import ArchetypeProxy.Acme.Renewal

/-!
# Where the served certificate comes from

The cache outlives the process and its configuration: the account file keeps
the directory it was created at, and a cached certificate is served after a
check of its dates and its key only. While the configurations that share a
cache agree on the directory and never add a domain, whatever is served was
downloaded from the configured directory for all configured domains.
-/

set_option autoImplicit false

namespace ArchetypeProxy.Acme.Provenance
open ArchetypeProxy.Acme.Certificate ArchetypeProxy.Acme.Issue ArchetypeProxy.Acme.Steps
open ArchetypeProxy.Acme.Renewal ArchetypeProxy.CounterNonce ArchetypeProxy.Fallible
open ArchetypeProxy.Runs

/-- The beginning of a text holds no credentials and no first certificate other
than those of the text. -/
structure Faithful (crates : Crates) : Prop where
  credentials : ∀ creds text n creds', crates.printCredentials creds = .ok text →
    crates.parseCredentials (String.ofList (text.toList.take n)) = some creds' →
      creds'.directory = creds.directory
  certificates : ∀ text n der,
    firstCert crates.toPem (String.ofList (text.toList.take n)) = some der →
      firstCert crates.toPem text = some der

inductive Event where
  | start (cfg : AcmeConfig) (addr : SocketAddr) (now : ℕ) (a : Attempt)
  | tick (e : Tick)

structure Server where
  world : World
  running : Option AcmeConfig
  history : List AcmeConfig

variable (crates : Crates)

/-- A start is a new process over the same files, and a start that fails leaves
none running. -/
def serverStep (s : Server) : Event → Server
  | .start cfg addr now a =>
    let r := startServer crates cfg addr now a (booted s.world.files s.world.log)
    ⟨r.2,if r.1.isOk then some cfg else none,s.history++[cfg]⟩
  | .tick e => match s.running with
    | some cfg => { s with world := loopStep crates cfg s.world e }
    | none => s

/-- The installed certificate was downloaded from the configured directory for
an order that names every configured domain. -/
def Matching (s : Server) : Prop :=
  ∀ cfg ck, s.running = some cfg → s.world.current = some ck →
    ∃ der identifiers certPem, ck.cert.head? = some der ∧
      .download (directoryUrl crates cfg) identifiers certPem ∈ s.world.log ∧
      (∀ d ∈ cfg.domains, d ∈ identifiers) ∧ firstCert crates.toPem certPem = some der

/-- Every configuration started earlier has the same directory and all domains
of the new one. -/
def Compatible (s : Server) : Event → Prop
  | .start cfg _ _ _ => ∀ old ∈ s.history,
      directoryUrl crates old = directoryUrl crates cfg ∧ ∀ d ∈ cfg.domains, d ∈ old.domains
  | .tick _ => True

def Fetched (history : List AcmeConfig) (log : List Action) (der : Bytes) : Prop :=
  ∃ old ∈ history, ∃ old' ∈ history, ∃ certPem,
    .download (directoryUrl crates old') old.domains certPem ∈ log ∧
      firstCert crates.toPem certPem = some der

structure CacheOrigin (history : List AcmeConfig) (w : World) : Prop where
  account : ∀ creds, (w.files .account).bind crates.parseCredentials = some creds →
    ∃ old ∈ history, creds.directory = directoryUrl crates old
  cert : ∀ der, (w.files .cert).bind (firstCert crates.toPem) = some der →
    Fetched crates history w.log der

theorem fetched_mono (history history' : List AcmeConfig) (log log' : List Action) (der : Bytes)
    (hh : history ⊆ history') (hl : log ⊆ log') (h : Fetched crates history log der) :
    Fetched crates history' log' der := by
  obtain ⟨old,hold,old',hold',certPem,hmem,hder⟩ := h
  exact ⟨old,hh hold,old',hh hold',certPem,hl hmem,hder⟩

theorem content_cases {α : Type} (f : String → Option α) (reply : WriteReply)
    (old : Option String) (text : String) (x : α)
    (h : (reply.content old text).bind f = some x) :
    old.bind f = some x ∨ ∃ n, f (String.ofList (text.toList.take n)) = some x := by
  rcases reply with _|⟨_|_|n,source⟩
  · exact Or.inr ⟨text.toList.length,by simpa [WriteReply.content] using h⟩
  · exact Or.inl h
  · simp [WriteReply.content] at h
  · exact Or.inr ⟨n,h⟩

section Issue
variable (cfg : AcmeConfig) (history : List AcmeConfig) (a : Attempt) (w : World)

theorem log_subset_issue : w.log ⊆ (issue crates cfg a w).2.log := by
  obtain ⟨pre,post,hlog,-⟩ := issue_log crates cfg a w
  rw [hlog]
  exact List.subset_append_left _ _

theorem account_origin (hcfg : cfg ∈ history) (horigin : CacheOrigin crates history w)
    (acc : Account) (h : (account crates cfg a w).1 = .ok acc) :
    ∃ old ∈ history, acc.directory = directoryUrl crates old := by
  rw [account_directory crates cfg a w acc h]
  rcases hcached : cachedCredentials crates cfg w with _|creds
  · exact ⟨cfg,hcfg,rfl⟩
  · obtain ⟨dir,-,hcreds⟩ := Option.bind_eq_some_iff.mp hcached
    exact horigin.account creds hcreds

theorem downloaded_fetched (hcfg : cfg ∈ history) (horigin : CacheOrigin crates history w)
    (w' : World) (issued : IssuedCert) (hdown : Downloaded crates cfg a w w' issued)
    (der : Bytes) (hder : firstCert crates.toPem issued.certPem = some der) :
    Fetched crates history w'.log der := by
  obtain ⟨acc,hacc,hmem⟩ := hdown
  obtain ⟨old,hold,hurl⟩ := account_origin crates cfg history a w hcfg horigin acc hacc
  exact ⟨cfg,hcfg,old,hold,issued.certPem,hurl ▸ hmem,hder⟩

theorem origin_issue (hfaithful : Faithful crates) (hcfg : cfg ∈ history)
    (horigin : CacheOrigin crates history w) :
    CacheOrigin crates history (issue crates cfg a w).2 := by
  obtain ⟨hresult,haccount⟩ := issue_result crates cfg a w
  have hlog := log_subset_issue crates cfg a w
  refine ⟨fun creds hcreds => ?_,fun der hder => ?_⟩
  · rw [haccount] at hcreds
    rcases account_file crates cfg a w with hsame|⟨id,text,htext,hwritten⟩
    · exact horigin.account creds (hsame ▸ hcreds)
    · rw [hwritten] at hcreds
      rcases content_cases _ _ _ _ _ hcreds with hold|⟨n,hnew⟩
      · exact horigin.account creds hold
      · exact ⟨cfg,hcfg,hfaithful.credentials _ text n creds htext hnew⟩
  · rcases hissue : issue crates cfg a w with ⟨r,w'⟩
    rw [hissue] at hresult hder hlog
    have hkept : (w.files .cert).bind (firstCert crates.toPem) = some der →
        Fetched crates history w'.log der := fun h =>
      fetched_mono crates _ _ _ _ der (List.Subset.refl _) hlog (horigin.cert der h)
    cases hresult with
    | installed issued ck _ hdown _ _ hfiles huncached =>
      by_cases hcache : cfg.cacheDir = none
      · exact hkept (huncached hcache ▸ hder)
      · rw [(hfiles hcache).1] at hder
        exact downloaded_fetched crates cfg history a w hcfg horigin w' issued hdown der hder
    | unchanged e _ hcert => exact hkept (hcert ▸ hder)
    | torn e issued _ hdown _ _ _ hcert =>
      rw [hcert] at hder
      rcases content_cases _ _ _ _ _ hder with hold|⟨n,hnew⟩
      · exact hkept hold
      · exact downloaded_fetched crates cfg history a w hcfg horigin w' issued hdown der
          (hfaithful.certificates issued.certPem n der hnew)

def LeafOrigin (w : World) : Prop :=
  ∀ ck, w.current = some ck →
    ∃ der, ck.cert.head? = some der ∧ Fetched crates history w.log der

theorem leaf_of_current (w' : World) (hcurrent : w'.current = w.current) (hlog : w.log ⊆ w'.log)
    (h : LeafOrigin crates history w) : LeafOrigin crates history w' := by
  intro ck hck
  obtain ⟨der,hder,hfetched⟩ := h ck (hcurrent ▸ hck)
  exact ⟨der,hder,fetched_mono crates _ _ _ _ der (List.Subset.refl _) hlog hfetched⟩

theorem leaf_issue (hcfg : cfg ∈ history) (horigin : CacheOrigin crates history w)
    (hleaf : LeafOrigin crates history w) :
    LeafOrigin crates history (issue crates cfg a w).2 := by
  have hresult := (issue_result crates cfg a w).1
  have hlog := log_subset_issue crates cfg a w
  rcases hissue : issue crates cfg a w with ⟨e|issued,w'⟩ <;> rw [hissue] at hresult hlog
  · exact leaf_of_current crates history w w' (current_of_failed crates cfg a w w' e hissue) hlog
      hleaf
  · cases hresult with
    | installed issued ck _ hdown hck hcurrent _ _ =>
      intro ck' hck'
      cases hcurrent.symm.trans hck'
      obtain ⟨der,hhead,hfirst⟩ := certified_leaf crates.toPem issued ck hck
      exact ⟨der,hhead,downloaded_fetched crates cfg history a w hcfg horigin w' issued hdown der
        hfirst⟩

end Issue

section Start
variable (cfg : AcmeConfig) (history : List AcmeConfig) (addr : SocketAddr) (now : ℕ) (a : Attempt)
  (w : World)

theorem origin_of_files (w' : World) (hfiles : w'.files = w.files) (hlog : w.log ⊆ w'.log)
    (h : CacheOrigin crates history w) : CacheOrigin crates history w' :=
  ⟨fun creds hcreds => h.account creds (hfiles ▸ hcreds),
    fun der hder => fetched_mono crates _ _ _ _ der (List.Subset.refl _) hlog
      (h.cert der (hfiles ▸ hder))⟩

theorem origin_setup (hfaithful : Faithful crates) (hcfg : cfg ∈ history)
    (h : CacheOrigin crates history w) :
    CacheOrigin crates history (setupAcme crates cfg addr now a w).2 := by
  rcases hnew : newManager cfg with e|_
  · rw [setupAcme, hnew]
    exact h
  · obtain ⟨spawn,hsetup,-⟩ := setupAcme_spec crates cfg addr now a w hnew
    have hnote : CacheOrigin crates history (w.note spawn) :=
      origin_of_files crates history w _ rfl (List.subset_append_left _ _) h
    rw [hsetup]
    rcases hcached : usableCert crates cfg now w with _|ck
    · rw [provision_issue crates cfg now a (w.note spawn) hcached]
      exact origin_issue crates cfg history a _ hfaithful hcfg hnote
    · rw [provision_usable crates cfg now a (w.note spawn) ck hcached]
      exact origin_of_files crates history (w.note spawn) _ rfl (List.Subset.refl _) hnote

theorem leaf_setup (hcfg : cfg ∈ history) (h : CacheOrigin crates history w)
    (hnone : w.current = none) (alpn : Bool) (w' : World)
    (hsetup : setupAcme crates cfg addr now a w = (.ok alpn,w')) :
    LeafOrigin crates history w' := by
  obtain ⟨spawn,⟨ck,husable,rfl⟩|⟨issued,hissue⟩⟩ :=
    setupAcme_ok_cases crates cfg addr now a w w' alpn hsetup
  · intro ck' hck'
    cases hck'
    obtain ⟨-,cert,hload,hck⟩ := usableCert_eq_some crates cfg now w ck husable
    obtain ⟨der,hhead,hfirst⟩ := certified_leaf crates.toPem cert ck hck
    refine ⟨der,hhead,fetched_mono crates _ _ _ _ der (List.Subset.refl _)
      (List.subset_append_left _ _) (h.cert der ?_)⟩
    rw [((loadCert_eq_some_iff w cert).mp hload).1]
    exact hfirst
  · have hnote : CacheOrigin crates history (w.note spawn) :=
      origin_of_files crates history w _ rfl (List.subset_append_left _ _) h
    have hleaf := leaf_issue crates cfg history a (w.note spawn) hcfg hnote
      (fun ck hck => by rw [note_current, hnone] at hck; cases hck)
    rwa [hissue] at hleaf

end Start

structure Consistent (s : Server) : Prop where
  origin : CacheOrigin crates s.history s.world
  leaf : s.running ≠ none → LeafOrigin crates s.history s.world
  agree : ∀ cfg, s.running = some cfg → cfg ∈ s.history ∧ ∀ old ∈ s.history,
    directoryUrl crates old = directoryUrl crates cfg ∧ ∀ d ∈ cfg.domains, d ∈ old.domains

theorem consistent_start (hfaithful : Faithful crates) (s : Server) (cfg : AcmeConfig)
    (addr : SocketAddr) (now : ℕ) (a : Attempt) (h : Consistent crates s)
    (hok : Compatible crates s (.start cfg addr now a)) :
    Consistent crates (serverStep crates s (.start cfg addr now a)) := by
  have hcfg : cfg ∈ s.history++[cfg] := by simp
  have hbooted : CacheOrigin crates (s.history++[cfg]) (booted s.world.files s.world.log) := by
    refine ⟨fun creds hcreds => ?_,fun der hder => ?_⟩
    · obtain ⟨old,hold,hurl⟩ := h.origin.account creds hcreds
      exact ⟨old,List.mem_append_left _ hold,hurl⟩
    · exact fetched_mono crates _ _ _ _ der (List.subset_append_left _ _) (List.Subset.refl _)
        (h.origin.cert der hder)
  have horigin := origin_setup crates cfg _ addr now a _ hfaithful hcfg hbooted
  rw [serverStep, startServer]
  rcases hsetup : setupAcme crates cfg addr now a (booted s.world.files s.world.log)
    with ⟨_|alpn,w'⟩
  all_goals
    rw [hsetup] at horigin
    have hnote := fun action => origin_of_files crates (s.history++[cfg]) w' (w'.note [action]) rfl
      (List.subset_append_left _ _) horigin
  · exact ⟨hnote .exit,by simp [Except.isOk, Except.toBool],by simp [Except.isOk, Except.toBool]⟩
  · refine ⟨hnote (.bindTls addr alpn),fun _ => ?_,fun cfg' hcfg' => ?_⟩
    · exact leaf_of_current crates _ w' _ rfl (List.subset_append_left _ _)
        (leaf_setup crates cfg _ addr now a _ hcfg hbooted rfl alpn w' hsetup)
    · cases hcfg'
      refine ⟨hcfg,fun old hold => ?_⟩
      rcases List.mem_append.mp hold with hold|hold
      · exact hok old hold
      · rw [List.mem_singleton.mp hold]
        exact ⟨rfl,fun d hd => hd⟩

theorem consistent_tick (hfaithful : Faithful crates) (s : Server) (e : Tick)
    (h : Consistent crates s) : Consistent crates (serverStep crates s (.tick e)) := by
  obtain ⟨w,_|cfg,history⟩ := s
  · exact h
  · obtain ⟨hcfg,hagree⟩ := h.agree cfg rfl
    cases hdue : due crates cfg e.now w with
    | false =>
      simp only [serverStep, loopStep_not_due crates cfg w e hdue]
      exact h
    | true =>
      simp only [serverStep, loopStep_due crates cfg w e hdue]
      exact ⟨origin_issue crates cfg history e.attempt w hfaithful hcfg h.origin,
        fun hne => leaf_issue crates cfg history e.attempt w hcfg h.origin (h.leaf hne),
        h.agree⟩

theorem matching_of_consistent (s : Server) (h : Consistent crates s) : Matching crates s := by
  intro cfg ck hrunning hcurrent
  obtain ⟨der,hhead,old,hold,old',hold',certPem,hmem,hfirst⟩ :=
    h.leaf (by simp [hrunning]) ck hcurrent
  obtain ⟨-,hagree⟩ := h.agree cfg hrunning
  exact ⟨der,old.domains,certPem,hhead,(hagree old' hold').1 ▸ hmem,(hagree old hold).2,hfirst⟩

def newServer : Server := ⟨emptyWorld,none,[]⟩

theorem consistent_newServer : Consistent crates newServer where
  origin := ⟨fun _ h => (nomatch h),fun _ h => (nomatch h)⟩
  leaf h := absurd rfl h
  agree _ h := nomatch h

/-- While the configurations that share the cache are compatible, the served
certificate matches the configuration in every state. -/
theorem served_certificate_matches_config (hfaithful : Faithful crates) (events : List Event)
    (hok : Throughout (serverStep crates) (Compatible crates) newServer events) :
    Matching crates (run (serverStep crates) newServer events) := by
  refine matching_of_consistent crates _ (run_invariant_of_throughout _ (Consistent crates) _ ?_ _
    (consistent_newServer crates) events hok)
  intro s e h hcompatible
  cases e with
  | start cfg addr now a => exact consistent_start crates hfaithful s cfg addr now a h hcompatible
  | tick e => exact consistent_tick crates hfaithful s e h

theorem unframe_take (url : List Char) (n : ℕ) (url' : List Char)
    (h : unframe ((frame url).take n) = some url') : url' = url := by
  induction url generalizing n url' with
  | nil =>
    rcases n with _|n
    · simp [unframe] at h
    · simpa [frame, unframe, eq_comm] using h
  | cons c url ih =>
    rcases n with _|_|n
    · simp [unframe] at h
    · simp [frame, unframe] at h
    · simp only [frame, List.take_succ_cons, unframe, Option.map_eq_some_iff] at h
      obtain ⟨rest,hrest,rfl⟩ := h
      rw [ih n rest hrest]

theorem charCrates_faithful : Faithful charCrates where
  credentials := by
    rintro creds text n creds' htext h
    cases htext
    obtain ⟨url,hurl,rfl⟩ := Option.map_eq_some_iff.mp h
    simp only [String.toList_ofList] at hurl
    rw [unframe_take _ n url hurl]
    simp
  certificates := by
    rintro text n der h
    simp only [firstCert, charCrates, String.toList_ofList] at h ⊢
    generalize text.toList = cs at h ⊢
    rcases cs with _|⟨c,cs⟩
    · simp at h
    · rcases n with _|n
      · simp at h
      · simpa using h

def stagingConfig : AcmeConfig := ⟨["a"],none,.http01,none,true,some "cache",none,.manual⟩

def productionConfig : AcmeConfig := { stagingConfig with staging := false }

def startWith (cfg : AcmeConfig) : Event := .start cfg ⟨"::",443⟩ 0 (orderFor ⟨"Z","Z"⟩)

theorem restart_serves_own_order :
    Matching charCrates (run (serverStep charCrates) newServer
      [startWith productionConfig,startWith productionConfig]) := by
  refine served_certificate_matches_config charCrates charCrates_faithful _ ?_
  rw [throughout_cons, throughout_cons]
  refine ⟨?_,?_,throughout_nil _ _ _⟩
  · intro old hold
    cases hold
  · intro old hold
    obtain rfl := List.mem_singleton.mp hold
    exact ⟨rfl,fun d hd => hd⟩

/-- After the move from staging to production the cached staging certificate is
served. -/
theorem staging_certificate_served_in_production :
    (run (serverStep charCrates) newServer
        [startWith stagingConfig,startWith productionConfig]).running = some productionConfig ∧
      ¬ Matching charCrates (run (serverStep charCrates) newServer
        [startWith stagingConfig,startWith productionConfig]) := by
  refine ⟨by rfl,fun h => ?_⟩
  obtain ⟨der,identifiers,certPem,-,hmem,-⟩ := h productionConfig ⟨[[90]],[90]⟩ (by rfl) (by rfl)
  have hlog : (run (serverStep charCrates) newServer
      [startWith stagingConfig,startWith productionConfig]).world.log =
    [.spawnResponder ⟨"::",80⟩,.createAccount "staging" [],.newOrder "staging" ["a"],
      .install (.http01 "a" "a"),.setReady .http01,.download "staging" ["a"] "Z",
      .bindTls ⟨"::",443⟩ false,.spawnResponder ⟨"::",80⟩,.bindTls ⟨"::",443⟩ false] := by rfl
  rw [hlog] at hmem
  simp [directoryUrl, productionConfig, stagingConfig, charCrates] at hmem

end ArchetypeProxy.Acme.Provenance
