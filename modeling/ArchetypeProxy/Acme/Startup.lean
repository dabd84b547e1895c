import ArchetypeProxy.Acme.Steps
import ArchetypeProxy.Library.Runs

/-!
# Listeners and the first order

At startup the main task spawns the HTTP-01 responder as a task of its own,
provisions the certificate and binds the TLS listener last. The two tasks
take turns in any order. The authority is told to validate in the middle of
provisioning, so nothing serves a TLS-ALPN-01 challenge then, and an HTTP-01
challenge is served only if the responder had its turn in time.
-/

set_option autoImplicit false

namespace ArchetypeProxy.Acme.Startup
open ArchetypeProxy.Acme.Certificate ArchetypeProxy.Acme.Issue ArchetypeProxy.Acme.Steps
open ArchetypeProxy.Fallible ArchetypeProxy.Runs

inductive Turn where
  | main
  | responder (bound : Bool)
  deriving DecidableEq, Repr

/-- What the main task has still to do, and which listener accepts. -/
structure System where
  pending : List Action
  spawned : Bool
  listening : Bool
  tls : Bool
  exited : Bool
  deriving DecidableEq, Repr

def System.perform (s : System) : Action → System
  | .spawnResponder _ => { s with spawned := true }
  | .bindTls _ acmeTlsAlpn => { s with tls := acmeTlsAlpn }
  | .exit => { s with exited := true }
  | _ => s

/-- The main task does its next action. The responder binds its address once
it is spawned, and a bind that fails ends the process. -/
def turn (s : System) : Turn → System
  | .main => match s.exited, s.pending with
    | false, action::rest => { s with pending := rest }.perform action
    | _, _ => s
  | .responder bound =>
    if s.spawned && !s.listening && !s.exited then
      if bound then { s with listening := true } else { s with exited := true }
    else s

variable (crates : Crates) (cfg : AcmeConfig) (addr : SocketAddr) (now : ℕ) (a : Attempt)
  (files : CacheFile → Option String)

def mainActions : List Action := (startServer crates cfg addr now a (booted files [])).2.log

def boot : System := ⟨mainActions crates cfg addr now a files,false,false,false,false⟩

/-- The next action announces a challenge only if its listener accepts. -/
def Served (s : System) (t : Turn) : Prop :=
  t = .main → s.exited = false → ∀ type rest, s.pending = .setReady type::rest →
    (type = .http01 → s.listening = true) ∧ (type = .tlsAlpn01 → s.tls = true)

/-- An order is created only for DNS-01, or for HTTP-01 once the responder
listens. -/
def Prepared (s : System) (t : Turn) : Prop :=
  t = .main → s.exited = false → ∀ url identifiers rest,
    s.pending = .newOrder url identifiers::rest →
      cfg.challenge = .dns01 ∨ cfg.challenge = .http01 ∧ s.listening = true

def Answers (replies : List (Except String Authorization)) : Prop :=
  ∃ before reply after, replies = before++reply::after ∧
    (∀ b ∈ before, proceeds cfg b = true) ∧ response cfg reply ≠ none

/-- The cached certificate cannot be used, the order is created, and a pending
authorization is answered. -/
def Announces : Prop :=
  newManager cfg = .ok () ∧ usableCert crates cfg now (booted files []) = none ∧
    (AccountOpens crates cfg a (booted files []) ∧ a.newOrder = .ok ()) ∧
    Answers cfg a.authorizations

theorem answers_iff (replies : List (Except String Authorization)) :
    Answers cfg replies ↔ planned cfg replies ≠ [] := by
  constructor
  · rintro ⟨before,reply,after,rfl,hbefore,hup⟩
    obtain ⟨r,hr⟩ := Option.ne_none_iff_exists'.mp hup
    rw [planned_append cfg before (reply::after) hbefore, planned, hr]
    simp
  · intro h
    induction replies with
    | nil => simp [planned] at h
    | cons r replies ih =>
      by_cases hr : response cfg r = none
      · cases hp : proceeds cfg r with
        | false => simp [planned, hr, hp] at h
        | true =>
          obtain ⟨before,reply,after,rfl,hbefore,hup⟩ := ih (by simpa [planned, hr, hp] using h)
          exact ⟨r::before,reply,after,rfl,by simpa [hp] using hbefore,hup⟩
      · exact ⟨[],r,replies,rfl,by simp,hr⟩

theorem mem_readies_iff (log : List Action) (type : AcmeChallenge) :
    type ∈ readies log ↔ .setReady type ∈ log := by
  rw [readies, List.mem_filterMap]
  constructor
  · rintro ⟨action,hmem,htype⟩
    cases action <;> simp at htype
    exact htype ▸ hmem
  · intro hmem
    exact ⟨_,hmem,rfl⟩

theorem setReady_mem_iff (rest : List Action) (rs : List ChallengeResponse) (type : AcmeChallenge)
    (h : readies rest = rs.map (fun _ => cfg.challenge)) :
    .setReady type ∈ rest ↔ type = cfg.challenge ∧ rs ≠ [] := by
  rw [← mem_readies_iff, h, List.mem_map]
  constructor
  · rintro ⟨r,hr,rfl⟩
    exact ⟨rfl,List.ne_nil_of_mem hr⟩
  · rintro ⟨rfl,hne⟩
    obtain ⟨r,hr⟩ := List.exists_mem_of_ne_nil _ hne
    exact ⟨r,hr,rfl⟩

theorem startServer_log (w : World) :
    ∃ final, (startServer crates cfg addr now a w).2.log =
        (setupAcme crates cfg addr now a w).2.log++[final] ∧ ∀ type, final ≠ .setReady type := by
  rw [startServer]
  rcases setupAcme crates cfg addr now a w with ⟨e|acmeTlsAlpn,w'⟩
  · exact ⟨.exit,rfl,by simp⟩
  · exact ⟨.bindTls addr acmeTlsAlpn,rfl,by simp⟩

theorem mainActions_shape :
    ∃ pre post final, mainActions crates cfg addr now a files = pre++(post++[final]) ∧
      (∀ action ∈ pre, (∃ listen, action = .spawnResponder listen) ∨
        ∃ url contacts, action = .createAccount url contacts) ∧
      (∀ type, final ≠ .setReady type) ∧
      (post = [] ∧ ¬ Announces crates cfg now a files ∨
        ∃ url rest, post = .newOrder url cfg.domains::rest ∧ (∀ action ∈ rest, InOrder action) ∧
          ∀ type, .setReady type ∈ rest ↔
            type = cfg.challenge ∧ Announces crates cfg now a files) := by
  obtain ⟨final,hlog,hfinal⟩ := startServer_log crates cfg addr now a (booted files [])
  rw [mainActions, hlog]
  rcases hnew : newManager cfg with e|_
  · refine ⟨[],[],final,?_,by simp,hfinal,Or.inl ⟨rfl,?_⟩⟩
    · rw [setupAcme, hnew]
      rfl
    · intro h
      cases hnew.symm.trans h.1
  · obtain ⟨spawn,hsetup,hspawn⟩ := setupAcme_spec crates cfg addr now a (booted files []) hnew
    rw [hsetup]
    rcases hcached : usableCert crates cfg now (booted files []) with _|ck
    · obtain ⟨pre,post,hissue,hpre,hpost⟩ :=
        issue_log crates cfg a ((booted files []).note spawn)
      rw [provision_issue crates cfg now a ((booted files []).note spawn) hcached, hissue]
      refine ⟨spawn++pre,post,final,by simp [booted],?_,hfinal,?_⟩
      · intro action hmem
        exact (List.mem_append.mp hmem).imp (hspawn action) (hpre action)
      · rcases hpost with ⟨hopen,hpost⟩|⟨hopen,url,rest,hpost,hin,hready⟩
        · exact Or.inl ⟨hpost,fun h => hopen h.2.2.1⟩
        · refine Or.inr ⟨url,rest,hpost,hin,fun type => ?_⟩
          have hannounce : Announces crates cfg now a files ↔
              planned cfg a.authorizations ≠ [] := by
            rw [← answers_iff]
            exact ⟨fun h => h.2.2.2,fun h => ⟨hnew,hcached,hopen,h⟩⟩
          rw [hannounce, setReady_mem_iff cfg rest _ type hready]
    · rw [provision_usable crates cfg now a ((booted files []).note spawn) ck hcached]
      refine ⟨spawn,[],final,by simp [booted],fun action hmem => Or.inl (hspawn action hmem),
        hfinal,Or.inl ⟨rfl,fun h => ?_⟩⟩
      cases hcached.symm.trans h.2.1

/-! ## Where an announcement stands -/

theorem split_after {α : Type} (xs ys done rest : List α) (x : α)
    (h : xs++ys = done++x::rest) (hx : x ∉ xs) : ∃ mid, done = xs++mid ∧ ys = mid++x::rest := by
  rcases List.append_eq_append_iff.mp h with ⟨mid,hdone,hys⟩|⟨mid,hxs,hmid⟩
  · exact ⟨mid,hdone,hys⟩
  · rcases mid with _|⟨y,mid⟩
    · exact ⟨[],by simpa using hxs.symm,by simpa using hmid.symm⟩
    · obtain ⟨rfl,-⟩ := List.cons.inj hmid
      exact absurd (by simp [hxs]) hx

theorem split_before {α : Type} (xs mid rest : List α) (x y : α)
    (h : xs++[y] = mid++x::rest) (hx : x ≠ y) : ∃ rest', xs = mid++x::rest' := by
  rcases List.eq_nil_or_concat rest with rfl|⟨rest',z,rfl⟩
  · obtain ⟨-,hy⟩ := List.append_inj' h rfl
    exact absurd (List.cons.inj hy).1.symm hx
  · rw [List.concat_eq_append, ← List.cons_append, ← List.append_assoc] at h
    exact ⟨rest',(List.append_inj' h rfl).1⟩

theorem before_setReady (done rest : List Action) (type : AcmeChallenge)
    (h : mainActions crates cfg addr now a files = done++.setReady type::rest) :
    (type = cfg.challenge ∧ Announces crates cfg now a files) ∧
      (∃ url, .newOrder url cfg.domains ∈ done) ∧
      ∀ action ∈ done, action ≠ .exit ∧ ∀ addr alpn, action ≠ .bindTls addr alpn := by
  obtain ⟨pre,post,final,hshape,hpre,hfinal,hpost⟩ :=
    mainActions_shape crates cfg addr now a files
  rw [hshape] at h
  have hnot : .setReady type ∉ pre := by
    intro hmem
    rcases hpre _ hmem with ⟨_,h⟩|⟨_,_,h⟩ <;> cases h
  obtain ⟨mid,rfl,hmid⟩ := split_after pre _ done rest _ h hnot
  obtain ⟨rest',hpost'⟩ := split_before post mid rest _ final hmid (Ne.symm (hfinal type))
  rcases hpost with ⟨rfl,-⟩|⟨url,order,rfl,hin,hready⟩
  · simp at hpost'
  · rw [← List.singleton_append] at hpost'
    obtain ⟨mid',rfl,horder⟩ := split_after _ order mid rest' _ hpost' (by simp)
    have hmem : .setReady type ∈ order := by simp [horder]
    refine ⟨(hready type).mp hmem,⟨url,by simp⟩,?_⟩
    intro action haction
    simp only [List.mem_append, List.mem_singleton] at haction
    rcases haction with haction|rfl|haction
    · rcases hpre action haction with ⟨_,rfl⟩|⟨_,_,rfl⟩ <;> simp
    · simp
    · have hkind := hin action (by simp [horder, haction])
      constructor
      · rintro rfl
        exact hkind
      · rintro _ _ rfl
        exact hkind

theorem exists_setReady (h : Announces crates cfg now a files) :
    ∃ done rest, mainActions crates cfg addr now a files = done++.setReady cfg.challenge::rest := by
  obtain ⟨pre,post,final,hshape,-,-,⟨-,hnot⟩|⟨url,order,rfl,-,hready⟩⟩ :=
    mainActions_shape crates cfg addr now a files
  · exact absurd h hnot
  · refine List.append_of_mem ?_
    have hmem := (hready cfg.challenge).mpr ⟨rfl,h⟩
    simp [hshape, hmem]

/-! ## Runs of the two tasks -/

theorem turn_main (action : Action) (rest : List Action) (spawned listening tls : Bool) :
    turn ⟨action::rest,spawned,listening,tls,false⟩ .main =
      System.perform ⟨rest,spawned,listening,tls,false⟩ action := rfl

theorem main_alone (done rest : List Action) (spawned : Bool)
    (h : ∀ action ∈ done, action ≠ .exit ∧ ∀ addr alpn, action ≠ .bindTls addr alpn) :
    ∃ spawned', run turn ⟨done++rest,spawned,false,false,false⟩
      (List.replicate done.length .main) = ⟨rest,spawned',false,false,false⟩ := by
  induction done generalizing spawned with
  | nil => exact ⟨spawned,rfl⟩
  | cons action done ih =>
    obtain ⟨hexit,hbind⟩ := h action (by simp)
    obtain ⟨spawned',hperform⟩ : ∃ spawned', turn ⟨action::done++rest,spawned,false,false,false⟩
        .main = ⟨done++rest,spawned',false,false,false⟩ := by
      rw [List.cons_append, turn_main]
      cases action with
      | exit => exact absurd rfl hexit
      | bindTls addr alpn => exact absurd rfl (hbind addr alpn)
      | _ => exact ⟨_,rfl⟩
    obtain ⟨spawned'',hrun⟩ := ih spawned' fun x hx => h x (by simp [hx])
    refine ⟨spawned'',?_⟩
    rw [List.length_cons, List.replicate_succ]
    exact (congrArg (fun s => run turn s _) hperform).trans hrun

def Underway (s : System) : Prop :=
  ∃ done, mainActions crates cfg addr now a files = done++s.pending ∧
    ((∃ url identifiers, .newOrder url identifiers ∈ done) →
      cfg.challenge = .dns01 ∨ cfg.challenge = .http01 ∧ s.listening = true)

theorem perform_listening (s : System) (action : Action) :
    (s.perform action).listening = s.listening ∧ (s.perform action).pending = s.pending := by
  cases action <;> exact ⟨rfl,rfl⟩

theorem turn_pending (s : System) (t : Turn) : (turn s t).pending <:+ s.pending := by
  rcases t with _|bound
  · rcases s with ⟨_|⟨action,rest⟩,spawned,listening,tls,_|_⟩
    case main.cons.false =>
      rw [turn_main, (perform_listening _ action).2]
      exact List.suffix_cons action rest
    all_goals exact List.suffix_refl _
  · simp only [turn]
    split
    · split <;> exact List.suffix_refl _
    · exact List.suffix_refl _

theorem underway_turn (s : System) (t : Turn) (h : Underway crates cfg addr now a files s)
    (hok : Prepared cfg s t) : Underway crates cfg addr now a files (turn s t) := by
  obtain ⟨done,hdone,horder⟩ := h
  cases t with
  | responder bound =>
    have hkeep : (turn s (.responder bound)).pending = s.pending ∧
        (s.listening = true → (turn s (.responder bound)).listening = true) := by
      simp only [turn]
      split
      · split <;> simp
      · simp
    refine ⟨done,by rw [hkeep.1, hdone],fun hnew => ?_⟩
    exact (horder hnew).imp_right fun h => ⟨h.1,hkeep.2 h.2⟩
  | main =>
    rcases s with ⟨_|⟨action,rest⟩,spawned,listening,tls,_|_⟩
    case cons.false =>
      rw [turn_main]
      obtain ⟨hlisten,hpending⟩ :=
        perform_listening ⟨rest,spawned,listening,tls,false⟩ action
      refine ⟨done++[action],by rw [hpending, hdone]; simp,?_⟩
      rintro ⟨url,identifiers,hmem⟩
      rw [hlisten]
      rcases List.mem_append.mp hmem with hmem|hmem
      · exact horder ⟨url,identifiers,hmem⟩
      · obtain rfl := List.mem_singleton.mp hmem
        exact hok rfl rfl url identifiers rest rfl
    all_goals exact ⟨done,hdone,horder⟩

theorem served_of_underway (s : System) (t : Turn) (h : Underway crates cfg addr now a files s) :
    Served s t := by
  obtain ⟨done,hdone,horder⟩ := h
  intro _ _ type rest hpending
  rw [hpending] at hdone
  obtain ⟨⟨rfl,-⟩,⟨url,hurl⟩,-⟩ := before_setReady crates cfg addr now a files done rest type hdone
  rcases horder ⟨url,_,hurl⟩ with hdns|⟨hhttp,hlisten⟩
  · simp [hdns]
  · simp [hhttp, hlisten]

/-- Startup announces nothing too early in any interleaving exactly when it
announces nothing or uses DNS-01, and in an interleaving that creates orders
only when prepared. -/
theorem announced_only_when_served_iff :
    ((∀ turns, Throughout turn Served (boot crates cfg addr now a files) turns) ↔
        cfg.challenge = .dns01 ∨ ¬ Announces crates cfg now a files) ∧
      ∀ turns, Throughout turn (Prepared cfg) (boot crates cfg addr now a files) turns →
        Throughout turn Served (boot crates cfg addr now a files) turns := by
  refine ⟨⟨fun hall => ?_,fun hcond turns => ?_⟩,fun turns hok => ?_⟩
  · by_contra hnot
    obtain ⟨hdns,hann⟩ := not_or.mp hnot
    obtain ⟨done,rest,hdone⟩ := exists_setReady crates cfg addr now a files (not_not.mp hann)
    obtain ⟨-,-,hplain⟩ := before_setReady crates cfg addr now a files done rest _ hdone
    obtain ⟨spawned,hrun⟩ := main_alone done (.setReady cfg.challenge::rest) false hplain
    -- the main task alone reaches the announcement with nothing listening
    have hserved := hall (List.replicate done.length .main++[.main]) _ .main [] rfl
    rw [boot, hdone, hrun] at hserved
    obtain ⟨hhttp,htls⟩ := hserved rfl rfl _ _ rfl
    cases htype : cfg.challenge with
    | dns01 => exact hdns htype
    | http01 => exact absurd (hhttp htype) (by simp)
    | tlsAlpn01 => exact absurd (htls htype) (by simp)
  · intro before t after _ _ _ type rest hpending
    have hsuffix : (run turn (boot crates cfg addr now a files) before).pending <:+
        mainActions crates cfg addr now a files :=
      run_invariant turn (fun s => s.pending <:+ mainActions crates cfg addr now a files)
        (fun s t h => (turn_pending s t).trans h) _ (List.suffix_refl _) before
    obtain ⟨done,hdone⟩ := hsuffix
    rw [hpending] at hdone
    obtain ⟨⟨rfl,hann⟩,-⟩ := before_setReady crates cfg addr now a files done rest type hdone.symm
    rcases hcond with hdns|hnot
    · simp [hdns]
    · exact absurd hann hnot
  · refine throughout_of_invariant turn (Underway crates cfg addr now a files) (Prepared cfg) _
      (underway_turn crates cfg addr now a files)
      (fun s t h _ => served_of_underway crates cfg addr now a files s t h) _ ?_ turns hok
    exact ⟨[],rfl,by simp⟩

def alpnConfig : AcmeConfig := ⟨["a"],none,.tlsAlpn01,none,false,none,none,.manual⟩

def httpConfig : AcmeConfig := ⟨["a"],none,.http01,none,false,none,none,.manual⟩

def firstStart (type : AcmeChallenge) : Attempt :=
  smoothAttempt [.ok (pendingAuthz type "a")] ⟨"Z","Z"⟩

theorem responder_first_served :
    Throughout turn Served
      (boot charCrates httpConfig ⟨"::",443⟩ 0 (firstStart .http01) (fun _ => none))
      [.main,.responder true,.main,.main,.main,.main] := by
  refine (announced_only_when_served_iff charCrates httpConfig ⟨"::",443⟩ 0 (firstStart .http01)
    (fun _ => none)).2 _ ?_
  simp only [throughout_cons]
  refine ⟨?_,?_,?_,?_,?_,?_,throughout_nil _ _ _⟩
  · nofun
  · nofun
  · nofun
  · exact fun _ _ _ _ _ _ => Or.inr ⟨rfl,rfl⟩
  · nofun
  · nofun

/-- A first start announces a TLS-ALPN-01 challenge with no listener, and an
HTTP-01 challenge while the responder waits for its turn. -/
theorem announced_without_listener :
    ¬ Throughout turn Served
        (boot charCrates alpnConfig ⟨"::",443⟩ 0 (firstStart .tlsAlpn01) (fun _ => none))
        [.main,.main,.main,.main] ∧
      ¬ Throughout turn Served
        (boot charCrates httpConfig ⟨"::",443⟩ 0 (firstStart .http01) (fun _ => none))
        [.main,.main,.main,.main,.main] := by
  constructor
  · intro h
    have hserved := h [.main,.main,.main] .main [] rfl rfl rfl .tlsAlpn01 _ rfl
    exact absurd (hserved.2 rfl) (by decide)
  · intro h
    have hserved := h [.main,.main,.main,.main] .main [] rfl rfl rfl .http01 _ rfl
    exact absurd (hserved.1 rfl) (by decide)

end ArchetypeProxy.Acme.Startup
