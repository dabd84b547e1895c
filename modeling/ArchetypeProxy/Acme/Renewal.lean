import ArchetypeProxy.Acme.Steps
import ArchetypeProxy.Library.Runs

/-!
# The renewal loop

A tick decides from the files of the cache, while the certificate served to
clients is the one installed. The two agree unless a call of `issue` writes
the new chain and fails afterwards; then the loop waits on a certificate that
nobody serves. Without a cache there is nothing to decide from, and every
tick issues.
-/

set_option autoImplicit false

namespace ArchetypeProxy.Acme.Renewal
open ArchetypeProxy.Acme.Certificate ArchetypeProxy.Acme.Issue ArchetypeProxy.Acme.Steps
open ArchetypeProxy.CounterNonce ArchetypeProxy.Runs

structure Tick where
  now : ℕ
  attempt : Attempt

variable (crates : Crates) (cfg : AcmeConfig)

def loopStep (w : World) (e : Tick) : World := (tick crates cfg e.now e.attempt w).2

def Issues (w : World) (e : Tick) : Prop := (tick crates cfg e.now e.attempt w).1 ≠ none

theorem issues_iff (w : World) (e : Tick) :
    Issues crates cfg w e ↔ due crates cfg e.now w = true := by
  rw [Issues, tick]
  split <;> simp [*]

theorem loopStep_not_due (w : World) (e : Tick) (h : due crates cfg e.now w = false) :
    loopStep crates cfg w e = w := by
  rw [loopStep, tick, h]
  rfl

theorem loopStep_due (w : World) (e : Tick) (h : due crates cfg e.now w = true) :
    loopStep crates cfg w e = (issue crates cfg e.attempt w).2 := by
  rw [loopStep, tick, h]
  rfl

def installedLeaf (w : World) : Option Bytes := w.current.bind (fun ck => ck.cert.head?)

def Paired (w : World) : Prop :=
  ∃ cert ck, w.loadCert = some cert ∧ cert.intoCertifiedKey crates.toPem = .ok ck ∧
    w.current = some ck

theorem installedLeaf_paired (w : World) (h : Paired crates w) :
    ∃ cert, w.loadCert = some cert ∧
      installedLeaf w = firstCert crates.toPem cert.certPem := by
  obtain ⟨cert,ck,hload,hck,hcurrent⟩ := h
  refine ⟨cert,hload,?_⟩
  rw [installedLeaf, hcurrent, firstCert_of_certified crates.toPem cert ck hck]
  rfl

theorem paired_issue (a : Attempt) (w w' : World) (issued : IssuedCert)
    (hcache : cfg.cacheDir ≠ none) (h : issue crates cfg a w = (.ok issued,w')) :
    Paired crates w' := by
  have hresult := (issue_result crates cfg a w).1
  rw [h] at hresult
  cases hresult with
  | installed issued ck _ _ hck hcurrent hfiles _ =>
    exact ⟨issued,ck,(loadCert_eq_some_iff w' issued).mpr (hfiles hcache),hck,hcurrent⟩

theorem paired_start (addr : SocketAddr) (now : ℕ) (a : Attempt)
    (files : CacheFile → Option String) (alpn : Bool) (w : World) (hcache : cfg.cacheDir ≠ none)
    (h : setupAcme crates cfg addr now a (booted files []) = (.ok alpn,w)) : Paired crates w := by
  obtain ⟨spawn,⟨ck,husable,rfl⟩|⟨issued,hissue⟩⟩ :=
    setupAcme_ok_cases crates cfg addr now a _ w alpn h
  · obtain ⟨-,cert,hload,hck⟩ := usableCert_eq_some crates cfg now _ ck husable
    exact ⟨cert,ck,hload,hck,rfl⟩
  · exact paired_issue crates cfg a _ w issued hcache hissue

/-! ## Renewal does not stall -/

/-- No certificate is installed, or it is not valid for more than the lead. -/
def Dying (now : ℕ) (w : World) : Prop :=
  ∀ left, (installedLeaf w).bind (remaining crates.toPem now) = some left → left ≤ renewBefore

/-- The call obtains a certificate and fails after it has put a readable chain
into `cert.pem`: the write of `cert.pem` or of `key.pem` fails, or the pair
cannot be served. -/
def Splits (a : Attempt) (w : World) : Prop :=
  ∃ issued, Obtains crates cfg a w issued ∧ (cfg.cacheDir ≠ none ∧ a.certDir = .ok ()) ∧
    ¬ Saved crates issued a ∧
    a.certWrite.content (w.files .cert) issued.certPem ≠ w.files .cert ∧
    (a.certWrite.content (w.files .cert) issued.certPem).bind (firstCert crates.toPem) ≠ none

def Aligned (w : World) : Prop :=
  cfg.cacheDir ≠ none → ∀ der, (w.files .cert).bind (firstCert crates.toPem) = some der →
    installedLeaf w = some der

theorem aligned_of_paired (w : World) (h : cfg.cacheDir ≠ none → Paired crates w) :
    Aligned crates cfg w := by
  intro hcache der hder
  obtain ⟨cert,hload,hleaf⟩ := installedLeaf_paired crates w (h hcache)
  rw [((loadCert_eq_some_iff w cert).mp hload).1] at hder
  exact hleaf.trans hder

theorem due_of_dying (now : ℕ) (w : World) (halign : Aligned crates cfg w)
    (h : Dying crates now w) : due crates cfg now w = true := by
  rw [due]
  split
  · rfl
  · rw [certNeedsRenewal]
    split
    · rename_i cert hload
      obtain ⟨dir,hdir,hload⟩ := Option.bind_eq_some_iff.mp hload
      have hcert := ((loadCert_eq_some_iff w cert).mp hload).1
      rw [IssuedCert.needsRenewal]
      split
      · rename_i left hleft
        obtain ⟨der,hfirst,hleft⟩ := Option.bind_eq_some_iff.mp hleft
        have hleaf := halign (by simp [hdir]) der (by rw [hcert]; exact hfirst)
        exact decide_eq_true (h left (by rw [hleaf]; exact hleft))
      · rfl
    · rfl

theorem aligned_issue (a : Attempt) (w : World) (halign : Aligned crates cfg w)
    (h : ¬ Splits crates cfg a w) : Aligned crates cfg (issue crates cfg a w).2 := by
  have hresult := (issue_result crates cfg a w).1
  rcases hissue : issue crates cfg a w with ⟨r,w'⟩
  rw [hissue] at hresult
  cases hresult with
  | installed issued ck _ _ hck hcurrent hfiles _ =>
    exact aligned_of_paired crates cfg w' fun hcache =>
      paired_issue crates cfg a w w' issued hcache hissue
  | unchanged e hcurrent hcert =>
    intro hcache der hder
    rw [hcert] at hder
    rw [installedLeaf, hcurrent]
    exact halign hcache der hder
  | torn e issued hobtained _ hcurrent hdir hunsaved hcert =>
    intro hcache der hder
    rw [hcert] at hder
    rw [installedLeaf, hcurrent]
    refine halign hcache der ?_
    by_contra hold
    refine h ⟨issued,hobtained,hdir,hunsaved,fun hsame => hold (hsame ▸ hder),?_⟩
    rw [hder]
    simp

/-- If no call splits cache and resolver, every tick at which the installed
certificate is absent or within the lead calls `issue`. -/
theorem dying_certificate_renewed (addr : SocketAddr) (now : ℕ) (a : Attempt)
    (files : CacheFile → Option String) (alpn : Bool) (w : World)
    (hstart : setupAcme crates cfg addr now a (booted files []) = (.ok alpn,w))
    (ticks : List Tick)
    (hok : Throughout (loopStep crates cfg)
      (fun w e => Issues crates cfg w e → ¬ Splits crates cfg e.attempt w) w ticks) :
    Throughout (loopStep crates cfg)
      (fun w e => Dying crates e.now w → Issues crates cfg w e) w ticks := by
  refine throughout_of_invariant _ (Aligned crates cfg) _ _ ?_ ?_ w ?_ ticks hok
  · intro w e halign hsplit
    cases hdue : due crates cfg e.now w with
    | false => rwa [loopStep_not_due crates cfg w e hdue]
    | true =>
      rw [loopStep_due crates cfg w e hdue]
      exact aligned_issue crates cfg e.attempt w halign
        (hsplit ((issues_iff crates cfg w e).mpr hdue))
  · intro w e halign _ hdying
    exact (issues_iff crates cfg w e).mpr (due_of_dying crates cfg e.now w halign hdying)
  · exact aligned_of_paired crates cfg w fun hcache =>
      paired_start crates cfg addr now a files alpn w hcache hstart

def cachedConfig : AcmeConfig := ⟨["a"],none,.http01,none,false,some "cache",none,.manual⟩

def day : ℕ := 86400*second

def orderFor (pair : IssuedCert) : Attempt := smoothAttempt [.ok (pendingAuthz .http01 "a")] pair

def startedServer : World :=
  (setupAcme charCrates cachedConfig ⟨"::",443⟩ 0 (orderFor ⟨"A","A"⟩) emptyWorld).2

theorem startedServer_ok :
    setupAcme charCrates cachedConfig ⟨"::",443⟩ 0 (orderFor ⟨"A","A"⟩) emptyWorld =
      (.ok false,startedServer) := by rfl

theorem renewed_on_fortieth_day :
    Throughout (loopStep charCrates cachedConfig)
      (fun w e => Dying charCrates e.now w → Issues charCrates cachedConfig w e) startedServer
      [⟨40*day,orderFor ⟨"z","z"⟩⟩] := by
  refine dying_certificate_renewed charCrates cachedConfig ⟨"::",443⟩ 0 (orderFor ⟨"A","A"⟩)
    (fun _ => none) false startedServer startedServer_ok _ ?_
  rw [throughout_cons]
  refine ⟨?_,throughout_nil _ _ _⟩
  rintro - ⟨⟨certPem,keyPem⟩,⟨-,-,-,hkey,hcert⟩,-,hunsaved,-⟩
  cases hkey
  cases hcert
  exact hunsaved ⟨rfl,rfl,_,rfl⟩

/-- The new chain is written on the fortieth day and the write of its key fails.
On the sixtieth day the old certificate has five days left, and nothing is
issued. -/
theorem split_cache_stalls_renewal :
    setupAcme charCrates cachedConfig ⟨"::",443⟩ 0 (orderFor ⟨"A","A"⟩) emptyWorld =
        (.ok false,startedServer) ∧
      ¬ Throughout (loopStep charCrates cachedConfig)
        (fun w e => Dying charCrates e.now w → Issues charCrates cachedConfig w e) startedServer
        [⟨40*day,{ orderFor ⟨"z","z"⟩ with keyWrite := .failed (.cut 0) "disk full" }⟩,
          ⟨60*day,orderFor ⟨"z","z"⟩⟩] := by
  refine ⟨startedServer_ok,fun h => ?_⟩
  have hissues := h [_] _ [] rfl ?_
  · exact absurd ((issues_iff charCrates cachedConfig _ _).mp hissues) (by decide +kernel)
  · intro left hleft
    have hfive : some left = some (5*86400) := hleft.symm.trans (by decide +kernel)
    rw [Option.some.inj hfive]
    decide

/-! ## Renewal is not needless -/

def Healthy (now : ℕ) (w : World) : Prop :=
  ∃ der v, installedLeaf w = some der ∧ crates.parseX509 der = some v ∧
    v.notBefore*second ≤ now ∧ now+renewBefore*second < v.notAfter*second

def clockedStep (s : World × ℕ) (e : Tick) : World × ℕ := (loopStep crates cfg s.1 e,e.now)

/-- There is a cache, the clock was not set back, the installed certificate is
valid already, and it does not run out within a second after the lead. -/
def Steady (s : World × ℕ) (e : Tick) : Prop :=
  cfg.cacheDir ≠ none ∧ s.2 ≤ e.now ∧
    ∀ der v, installedLeaf s.1 = some der → crates.parseX509 der = some v →
      v.notBefore*second ≤ e.now ∧
        (v.notAfter*second ≤ e.now+renewBefore*second ∨
          e.now+(renewBefore+1)*second ≤ v.notAfter*second)

/-- The cache holds the installed certificate, or it is spent for good. -/
def Tracked (s : World × ℕ) : Prop :=
  Paired crates s.1 ∨ ∀ now, s.2 ≤ now → ¬ Healthy crates now s.1

theorem due_paired (now : ℕ) (w : World) (hcache : cfg.cacheDir ≠ none) (h : Paired crates w) :
    due crates cfg now w = true ↔ Dying crates now w := by
  obtain ⟨dir,hdir⟩ := Option.ne_none_iff_exists'.mp hcache
  obtain ⟨cert,hload,hleaf⟩ := installedLeaf_paired crates w h
  obtain ⟨_,ck,_,_,hcurrent⟩ := h
  rw [due, hcurrent, Dying]
  simp only [certNeedsRenewal, hdir, Option.bind_some, hload, IssuedCert.needsRenewal,
    IssuedCert.timeToExpiry, hleaf]
  rcases (firstCert crates.toPem cert.certPem).bind (remaining crates.toPem now) with _|left
  · simp
  · simp

theorem remaining_of_valid (now : ℕ) (der : Bytes) (v : Validity)
    (hv : crates.parseX509 der = some v) (hbefore : v.notBefore*second ≤ now)
    (hafter : now < v.notAfter*second) :
    remaining crates.toPem now der = some ((v.notAfter*second-now)/second) := by
  rw [remaining, hv, Option.bind_some, timeToExpiration, if_pos ⟨hbefore,hafter⟩]
  rfl

theorem left_of_dying (now : ℕ) (w : World) (der : Bytes) (v : Validity)
    (h : Dying crates now w) (hleaf : installedLeaf w = some der)
    (hv : crates.parseX509 der = some v) (hbefore : v.notBefore*second ≤ now)
    (hafter : now < v.notAfter*second) : (v.notAfter*second-now)/second ≤ renewBefore := by
  refine h _ ?_
  rw [hleaf, Option.bind_some, remaining_of_valid crates now der v hv hbefore hafter]

theorem not_dying_of_healthy (s : World × ℕ) (e : Tick) (hsteady : Steady crates cfg s e)
    (h : Healthy crates e.now s.1) : ¬ Dying crates e.now s.1 := by
  obtain ⟨der,v,hleaf,hv,hbefore,hafter⟩ := h
  obtain ⟨-,hwindow⟩ := hsteady.2.2 der v hleaf hv
  intro hdying
  have hleft := left_of_dying crates e.now s.1 der v hdying hleaf hv hbefore (by omega)
  simp only [second, renewBefore] at *
  omega

theorem spent_of_dying (s : World × ℕ) (e : Tick) (hsteady : Steady crates cfg s e)
    (h : Dying crates e.now s.1) (now : ℕ) (hnow : e.now ≤ now) : ¬ Healthy crates now s.1 := by
  rintro ⟨der,v,hleaf,hv,-,hafter⟩
  obtain ⟨hbefore,hwindow⟩ := hsteady.2.2 der v hleaf hv
  have hleft := left_of_dying crates e.now s.1 der v h hleaf hv hbefore (by omega)
  simp only [second, renewBefore] at *
  omega

theorem tracked_step (s : World × ℕ) (e : Tick) (h : Tracked crates s)
    (hsteady : Steady crates cfg s e) : Tracked crates (clockedStep crates cfg s e) := by
  cases hdue : due crates cfg e.now s.1 with
  | false =>
    rw [clockedStep, loopStep_not_due crates cfg s.1 e hdue]
    exact h.imp_right fun hspent now hnow => hspent now (hsteady.2.1.trans hnow)
  | true =>
    rw [clockedStep, loopStep_due crates cfg s.1 e hdue]
    rcases hissue : issue crates cfg e.attempt s.1 with ⟨err|issued,w'⟩
    · -- the call failed: what is installed stays, and it was due
      right
      have hcurrent := current_of_failed crates cfg e.attempt s.1 w' err hissue
      intro now hnow
      have hsame : Healthy crates now w' ↔ Healthy crates now s.1 := by
        simp only [Healthy, installedLeaf, hcurrent]
      rw [hsame]
      rcases h with hpaired|hspent
      · exact spent_of_dying crates cfg s e hsteady
          ((due_paired crates cfg e.now s.1 hsteady.1 hpaired).mp hdue) now hnow
      · exact hspent now (hsteady.2.1.trans hnow)
    · exact Or.inl (paired_issue crates cfg e.attempt s.1 w' issued hsteady.1 hissue)

theorem not_issues_of_healthy (s : World × ℕ) (e : Tick) (h : Tracked crates s)
    (hsteady : Steady crates cfg s e) (hhealthy : Healthy crates e.now s.1) :
    ¬ Issues crates cfg s.1 e := by
  rw [issues_iff]
  rcases h with hpaired|hspent
  · rw [due_paired crates cfg e.now s.1 hsteady.1 hpaired]
    exact not_dying_of_healthy crates cfg s e hsteady hhealthy
  · exact absurd hhealthy (hspent e.now hsteady.2.1)

theorem issues_without_cache (w : World) (e : Tick) (h : cfg.cacheDir = none) :
    Issues crates cfg w e := by
  rw [issues_iff, due]
  split
  · rfl
  · simp [certNeedsRenewal, h]

/-- In steady runs a tick leaves a healthy certificate alone; without a cache
every tick issues. -/
theorem healthy_certificate_kept (addr : SocketAddr) (now : ℕ) (a : Attempt)
    (files : CacheFile → Option String) (alpn : Bool) (w : World)
    (hstart : setupAcme crates cfg addr now a (booted files []) = (.ok alpn,w)) :
    (∀ ticks, Throughout (clockedStep crates cfg) (Steady crates cfg) (w,now) ticks →
        Throughout (clockedStep crates cfg)
          (fun s e => Healthy crates e.now s.1 → ¬ Issues crates cfg s.1 e) (w,now) ticks) ∧
      (cfg.cacheDir = none → ∀ s e, Issues crates cfg s e) := by
  refine ⟨fun ticks hok => ?_,fun hcache w e => issues_without_cache crates cfg w e hcache⟩
  rcases ticks with _|⟨e,ticks⟩
  · exact throughout_nil _ _ _
  · have hcache := ((throughout_cons _ _ _ _ _).mp hok).1.1
    exact throughout_of_invariant _ (Tracked crates) _ _ (tracked_step crates cfg)
      (not_issues_of_healthy crates cfg) _
      (Or.inl (paired_start crates cfg addr now a files alpn w hcache hstart)) _ hok

theorem kept_on_tenth_day :
    Throughout (clockedStep charCrates cachedConfig)
      (fun s e => Healthy charCrates e.now s.1 → ¬ Issues charCrates cachedConfig s.1 e)
      (startedServer,0) [⟨10*day,orderFor ⟨"z","z"⟩⟩] := by
  refine (healthy_certificate_kept charCrates cachedConfig ⟨"::",443⟩ 0 (orderFor ⟨"A","A"⟩)
    (fun _ => none) false startedServer startedServer_ok).1 _ ?_
  rw [throughout_cons]
  refine ⟨⟨by simp [cachedConfig],by simp,?_⟩,throughout_nil _ _ _⟩
  intro der v hleaf hv
  have hder : some der = some [65] := hleaf.symm.trans (by rfl)
  cases hder
  have hv' : some v = some ⟨0,65*86400⟩ := hv.symm.trans (by rfl)
  cases hv'
  decide +kernel

def uncachedConfig : AcmeConfig := ⟨["a"],none,.http01,none,false,none,none,.manual⟩

theorem uncached_server_reissues :
    ∃ w, setupAcme charCrates uncachedConfig ⟨"::",443⟩ 0 (orderFor ⟨"A","A"⟩) emptyWorld =
        (.ok false,w) ∧ Healthy charCrates (10*day) w ∧
      ¬ Throughout (clockedStep charCrates uncachedConfig)
        (fun s e => Healthy charCrates e.now s.1 → ¬ Issues charCrates uncachedConfig s.1 e)
        (w,0) [⟨10*day,orderFor ⟨"z","z"⟩⟩] := by
  refine ⟨_,rfl,?_⟩
  have hhealthy : Healthy charCrates (10*day)
      (setupAcme charCrates uncachedConfig ⟨"::",443⟩ 0 (orderFor ⟨"A","A"⟩) emptyWorld).2 :=
    ⟨[65],⟨0,65*86400⟩,rfl,rfl,by decide +kernel,by decide +kernel⟩
  refine ⟨hhealthy,fun h => ?_⟩
  exact h [] _ [] rfl hhealthy (issues_without_cache charCrates uncachedConfig _ _ rfl)

end ArchetypeProxy.Acme.Renewal
