import ArchetypeProxy.Acme.Issue

/-!
# What the steps of an order do

One statement for each function of the manager: what it leaves alone, when it
succeeds and what it then gives. The results of the authorization loop are
read off the replies: `response` is what a reply puts up and `proceeds` says
whether the loop goes on after it.
-/

set_option autoImplicit false

namespace ArchetypeProxy.Acme.Steps
open ArchetypeProxy.Acme.Certificate ArchetypeProxy.Acme.Issue ArchetypeProxy.Fallible
open ArchetypeProxy.StringMap

variable (crates : Crates) (cfg : AcmeConfig)

/-! ## The account -/

structure Quiet (w w' : World) : Prop where
  httpTokens : w'.httpTokens = w.httpTokens
  challenges : w'.challenges = w.challenges
  current : w'.current = w.current
  files : ∀ file, file ≠ .account → w'.files file = w.files file
  log : ∃ new, w'.log = w.log++new ∧
    ∀ action ∈ new, ∃ url contacts, action = .createAccount url contacts

instance : Std.Refl Quiet where
  refl w := ⟨rfl,rfl,rfl,fun _ _ => rfl,[],by simp,by simp⟩

instance : IsTrans World Quiet where
  trans := by
    rintro w₁ w₂ w₃ h h'
    obtain ⟨new,hlog,hnew⟩ := h.log
    obtain ⟨new',hlog',hnew'⟩ := h'.log
    refine ⟨h'.httpTokens.trans h.httpTokens,h'.challenges.trans h.challenges,
      h'.current.trans h.current,fun file hf => (h'.files file hf).trans (h.files file hf),
      new++new',by rw [hlog', hlog, List.append_assoc],?_⟩
    intro action hmem
    exact (List.mem_append.mp hmem).elim (hnew action) (hnew' action)

theorem saveAccount_quiet (creds : Credentials) (a : Attempt) :
    Moves Quiet (saveAccount crates cfg creds a) := by
  rw [saveAccount]
  split
  · exact moves_pure Quiet ()
  · refine moves_bind Quiet _ _ (moves_ask Quiet _) fun _ => ?_
    refine moves_bind Quiet _ _ (moves_ask Quiet _) fun text => ?_
    refine moves_bind Quiet _ _ (moves_update Quiet _ fun w => ?_) fun _ => moves_ask Quiet _
    exact ⟨rfl,rfl,rfl,fun file hf => Function.update_of_ne hf _ _,[],by simp,by simp⟩

theorem account_quiet (a : Attempt) : Moves Quiet (account crates cfg a) := by
  refine moves_bind Quiet _ _ (fun w => refl w) fun cached => ?_
  rcases cached with _|creds
  · refine moves_bind Quiet _ _ (moves_ask Quiet _) fun _ => ?_
    refine moves_bind Quiet _ _ (moves_ask Quiet _) fun id => ?_
    refine moves_bind Quiet _ _ (moves_update Quiet _ fun w => ?_) fun _ => ?_
    · exact ⟨rfl,rfl,rfl,fun _ _ => rfl,[_],rfl,by simp⟩
    · exact moves_bind Quiet _ _ (saveAccount_quiet crates cfg _ a) fun _ => moves_pure Quiet _
  · refine moves_bind Quiet _ _ (moves_ask Quiet _) fun _ => ?_
    exact moves_bind Quiet _ _ (moves_ask Quiet _) fun _ => moves_pure Quiet _

def AccountOpens (a : Attempt) (w : World) : Prop :=
  a.builder = .ok () ∧
    match cachedCredentials crates cfg w with
    | some _ => a.fromCredentials = .ok ()
    | none => ∃ id, a.create = .ok id ∧ ∀ dir, cfg.cacheDir = some dir →
        a.accountDir = .ok () ∧ a.accountWrite = .done ∧
          ∃ text, crates.printCredentials ⟨id,directoryUrl crates cfg⟩ = .ok text

theorem acme_eq_ok_iff {α : Type} (reply : Except String α) (x : α) :
    acme reply = .ok x ↔ reply = .ok x := by
  cases reply <;> simp [acme, Except.mapError]

theorem result_eq_ok_iff (reply : WriteReply) (path : String) (x : Unit) :
    reply.result path = .ok x ↔ reply = .done := by
  cases reply <;> simp [WriteReply.result]

theorem saveAccount_succeeds_iff (creds : Credentials) (a : Attempt) (w : World) :
    Succeeds (saveAccount crates cfg creds a) w ↔ ∀ dir, cfg.cacheDir = some dir →
      a.accountDir = .ok () ∧ a.accountWrite = .done ∧
        ∃ text, crates.printCredentials creds = .ok text := by
  rw [saveAccount]
  rcases cfg.cacheDir with _|dir
  · simp
  · simp only [write, ensureDir, succeeds_ask_bind_iff, succeeds_update_bind_iff,
      succeeds_ask_iff, mapError_eq_ok_iff, Unique.exists_iff, result_eq_ok_iff]
    constructor
    · rintro ⟨hdir,text,htext,hdone⟩ _ _
      exact ⟨hdir,hdone,text,htext⟩
    · intro h
      obtain ⟨hdir,hdone,text,htext⟩ := h dir rfl
      exact ⟨hdir,text,htext,hdone⟩

theorem account_succeeds_iff (a : Attempt) (w : World) :
    Succeeds (account crates cfg a) w ↔ AccountOpens crates cfg a w := by
  rw [account, succeeds_look_bind_iff, AccountOpens]
  rcases cachedCredentials crates cfg w with _|creds
  · simp only [createAccount, emit, succeeds_ask_bind_iff, acme_eq_ok_iff,
      succeeds_update_bind_iff, succeeds_bind_pure_iff, saveAccount_succeeds_iff,
      Unique.exists_iff]
  · simp only [restoreAccount, succeeds_ask_bind_iff, acme_eq_ok_iff, succeeds_pure, and_true,
      Unique.exists_iff]

theorem account_directory (a : Attempt) (w : World) (acc : Account)
    (h : (account crates cfg a w).1 = .ok acc) :
    acc.directory = ((cachedCredentials crates cfg w).map Credentials.directory).getD
      (directoryUrl crates cfg) := by
  obtain ⟨w',hok⟩ : ∃ w', account crates cfg a w = (.ok acc,w') := ⟨_,Prod.ext h rfl⟩
  rw [account, look_bind] at hok
  rcases hcached : cachedCredentials crates cfg w with _|creds <;> rw [hcached] at hok
  · simp only [createAccount, bind_eq_ok_iff] at hok
    obtain ⟨_,_,-,_,_,-,_,_,-,_,_,-,hpure⟩ := hok
    cases hpure
    rfl
  · simp only [restoreAccount, bind_eq_ok_iff] at hok
    obtain ⟨_,_,-,_,_,-,hpure⟩ := hok
    cases hpure
    rfl

theorem saveAccount_file (creds : Credentials) (a : Attempt) (w : World) :
    (saveAccount crates cfg creds a w).2.files .account = w.files .account ∨
      ∃ text, crates.printCredentials creds = .ok text ∧
        (saveAccount crates cfg creds a w).2.files .account =
          a.accountWrite.content (w.files .account) text := by
  rw [saveAccount]
  rcases cfg.cacheDir with _|dir
  · exact Or.inl rfl
  · rcases a.accountDir with e|_
    · exact Or.inl rfl
    · rcases htext : crates.printCredentials creds with e|text
      · exact Or.inl rfl
      · refine Or.inr ⟨text,rfl,?_⟩
        simp [ensureDir, Except.mapError, write]

theorem account_file (a : Attempt) (w : World) :
    (account crates cfg a w).2.files .account = w.files .account ∨
      ∃ id text, crates.printCredentials ⟨id,directoryUrl crates cfg⟩ = .ok text ∧
        (account crates cfg a w).2.files .account =
          a.accountWrite.content (w.files .account) text := by
  rw [account, look_bind]
  rcases cachedCredentials crates cfg w with _|creds
  · rw [createAccount]
    rcases a.builder with e|_
    · exact Or.inl rfl
    · rcases a.create with e|id
      · exact Or.inl rfl
      · have hsave := saveAccount_file crates cfg ⟨id,directoryUrl crates cfg⟩ a
          (w.note [.createAccount (directoryUrl crates cfg) (contacts cfg)])
        simp only [acme, Except.mapError, ask_ok_bind, emit, update_bind, bind_pure_apply]
        exact hsave.imp_right fun ⟨text,htext,hfile⟩ => ⟨id,text,htext,hfile⟩
  · refine Or.inl (congrArg (fun w => w.files .account) (?_ : (restoreAccount creds a w).2 = w))
    rw [restoreAccount]
    rcases a.builder with e|_
    · rfl
    · rcases a.fromCredentials with e|_ <;> rfl

/-! ## The authorization loop -/

/-- The response of the challenge reaches the place the authority looks at. -/
def goesUp (c : Challenge) : Bool :=
  match cfg.challenge with
  | .http01 => true
  | .tlsAlpn01 => c.validationCert.isOk
  | .dns01 => c.publish.isOk

def answer (authz : Authorization) : Option ChallengeResponse :=
  (authz.challenge cfg.challenge).bind (fun c =>
    if goesUp cfg c then some (challengeResponse cfg.challenge authz.domain c) else none)

def readied (authz : Authorization) : Bool :=
  (authz.challenge cfg.challenge).any (fun c => goesUp cfg c && c.setReady.isOk)

def response (reply : Except String Authorization) : Option ChallengeResponse :=
  match reply with
  | .ok authz => if authz.status = .pending then answer cfg authz else none
  | .error _ => none

def proceeds (reply : Except String Authorization) : Bool :=
  match reply with
  | .ok authz => match authz.status with
    | .pending => readied cfg authz
    | .valid => true
    | _ => false
  | .error _ => false

def planned : List (Except String Authorization) → List ChallengeResponse
  | [] => []
  | reply::replies =>
    (response cfg reply).toList++if proceeds cfg reply then planned replies else []

/-- Up to the first reply that stops the loop, each puts up its response. -/
theorem planned_append (before rest : List (Except String Authorization))
    (h : ∀ b ∈ before, proceeds cfg b = true) :
    planned cfg (before++rest) = before.filterMap (response cfg)++planned cfg rest := by
  induction before with
  | nil => rfl
  | cons b before ih =>
    rw [List.cons_append, planned, h b (by simp), if_pos rfl, ih fun r hr => h r (by simp [hr])]
    cases hr : response cfg b <;> simp [hr]

def tokens (rs : List ChallengeResponse) : List String :=
  rs.filterMap fun
    | .http01 token _ => some token
    | _ => none

def validated (rs : List ChallengeResponse) : List String :=
  rs.filterMap fun
    | .tlsAlpn01 domain _ => some domain
    | _ => none

def records (rs : List ChallengeResponse) : List (String × String × String) :=
  rs.filterMap fun
    | .dns01 domain recordName value => some (domain,recordName,value)
    | _ => none

def installed (log : List Action) : List ChallengeResponse :=
  log.filterMap fun
    | .install r => some r
    | _ => none

def cleaned (log : List Action) : List (String × String × String) :=
  log.filterMap fun
    | .cleanup domain recordName value => some (domain,recordName,value)
    | _ => none

def readies (log : List Action) : List AcmeChallenge :=
  log.filterMap fun
    | .setReady type => some type
    | _ => none

theorem tokens_append (rs rs' : List ChallengeResponse) :
    tokens (rs++rs') = tokens rs++tokens rs' := List.filterMap_append

theorem validated_append (rs rs' : List ChallengeResponse) :
    validated (rs++rs') = validated rs++validated rs' := List.filterMap_append

theorem records_append (rs rs' : List ChallengeResponse) :
    records (rs++rs') = records rs++records rs' := List.filterMap_append

theorem installed_append (log log' : List Action) :
    installed (log++log') = installed log++installed log' := List.filterMap_append

theorem cleaned_append (log log' : List Action) :
    cleaned (log++log') = cleaned log++cleaned log' := List.filterMap_append

theorem readies_append (log log' : List Action) :
    readies (log++log') = readies log++readies log' := List.filterMap_append

def InOrder : Action → Prop
  | .install _ | .setReady _ | .cleanup _ _ _ | .download _ _ _ => True
  | _ => False

def Active.add (active : Active) (rs : List ChallengeResponse) : Active :=
  ⟨active.dns++records rs,active.alpn++validated rs,active.http++tokens rs⟩

theorem add_add (active : Active) (rs rs' : List ChallengeResponse) :
    Active.add (Active.add active rs) rs' = Active.add active (rs++rs') := by
  simp [Active.add, tokens_append, validated_append, records_append]

/-- From `w` to `w'` the responses `rs` were put up and nothing was withdrawn. -/
structure Tracks (w w' : World) (new : List Action) (rs : List ChallengeResponse) : Prop where
  log : w'.log = w.log++new
  inOrder : ∀ action ∈ new, InOrder action
  installed : installed new = rs
  cleaned : cleaned new = []
  readies : readies new = rs.map (fun _ => cfg.challenge)
  httpTokens : ∀ t, t ∈ w'.httpTokens ↔ t ∈ w.httpTokens ∨ t ∈ tokens rs
  challenges : ∀ d, d ∈ w'.challenges ↔ d ∈ w.challenges ∨ d ∈ validated rs
  current : w'.current = w.current
  files : w'.files = w.files

theorem tracks_refl (w : World) : Tracks cfg w w [] [] := by
  constructor <;> simp [installed, cleaned, readies, tokens, validated]

theorem tracks_trans (w₁ w₂ w₃ : World) (new new' : List Action)
    (rs rs' : List ChallengeResponse) (h : Tracks cfg w₁ w₂ new rs)
    (h' : Tracks cfg w₂ w₃ new' rs') : Tracks cfg w₁ w₃ (new++new') (rs++rs') where
  log := by rw [h'.log, h.log, List.append_assoc]
  inOrder action hmem := (List.mem_append.mp hmem).elim (h.inOrder action) (h'.inOrder action)
  installed := by rw [installed_append, h.installed, h'.installed]
  cleaned := by rw [cleaned_append, h.cleaned, h'.cleaned, List.append_nil]
  readies := by rw [readies_append, h.readies, h'.readies, List.map_append]
  httpTokens := by
    intro t
    rw [h'.httpTokens, h.httpTokens, tokens_append, List.mem_append, or_assoc]
  challenges := by
    intro d
    rw [h'.challenges, h.challenges, validated_append, List.mem_append, or_assoc]
  current := h'.current.trans h.current
  files := h'.files.trans h.files

theorem install_goesUp (domain : String) (c : Challenge) (active : Active) (w : World)
    (h : goesUp cfg c = true) :
    ∃ w', install c (challengeResponse cfg.challenge domain c) active w =
        (.ok (Active.add active [challengeResponse cfg.challenge domain c]),w') ∧
      Tracks cfg w (w'.note [.setReady cfg.challenge])
        [.install (challengeResponse cfg.challenge domain c),.setReady cfg.challenge]
        [challengeResponse cfg.challenge domain c] := by
  rw [goesUp] at h
  cases htype : cfg.challenge with
  | http01 =>
    refine ⟨World.note { w with httpTokens := w.httpTokens.insert c.token c.keyAuthorization }
      [.install (.http01 c.token c.keyAuthorization)],?_,?_⟩
    · simp [install, challengeResponse, emit, Active.add, tokens, validated, records]
    · constructor <;> simp [challengeResponse, InOrder, installed, cleaned, readies, tokens,
        validated, htype, mem_insert_string_iff, -Std.ExtTreeMap.mem_insert]
  | tlsAlpn01 =>
    rw [htype] at h
    rcases hcert : c.validationCert with e|ck
    · simp [hcert, Except.isOk, Except.toBool] at h
    · refine ⟨World.note { w with challenges := w.challenges.insert domain ck }
        [.install (.tlsAlpn01 domain c.digest)],?_,?_⟩
      · simp [install, challengeResponse, hcert, emit, Active.add, tokens, validated, records]
      · constructor <;> simp [challengeResponse, InOrder, installed, cleaned, readies, tokens,
          validated, htype, mem_insert_string_iff, -Std.ExtTreeMap.mem_insert]
  | dns01 =>
    rw [htype] at h
    rcases hpub : c.publish with e|_
    · simp [hpub, Except.isOk, Except.toBool] at h
    · refine ⟨w.note [.install (.dns01 domain (dnsRecordName domain) c.dnsValue)],?_,?_⟩
      · simp [install, challengeResponse, hpub, emit, Active.add, tokens, validated, records]
      · constructor <;> simp [challengeResponse, InOrder, installed, cleaned, readies, tokens,
          validated, htype]

theorem install_not_goesUp (domain : String) (c : Challenge) (active : Active) (w : World)
    (h : goesUp cfg c = false) :
    ∃ e, install c (challengeResponse cfg.challenge domain c) active w = (.error e,w) := by
  rw [goesUp] at h
  cases htype : cfg.challenge with
  | http01 => simp [htype] at h
  | tlsAlpn01 =>
    rw [htype] at h
    rcases hcert : c.validationCert with e|ck
    · exact ⟨e,by simp [install, challengeResponse, hcert]⟩
    · simp [hcert, Except.isOk, Except.toBool] at h
  | dns01 =>
    rw [htype] at h
    rcases hpub : c.publish with e|_
    · exact ⟨e,by simp [install, challengeResponse, hpub]⟩
    · simp [hpub, Except.isOk, Except.toBool] at h

theorem respond_spec (authz : Authorization) (active : Active) (w : World) :
    ∃ new w', Tracks cfg w w' new (answer cfg authz).toList ∧
      (readied cfg authz = true ∧
          respond cfg authz active w = (.ok (Active.add active (answer cfg authz).toList),w') ∨
        readied cfg authz = false ∧ ∃ e, respond cfg authz active w = (.error e,w')) := by
  rw [answer, readied, respond]
  rcases authz.challenge cfg.challenge with _|c
  · exact ⟨[],w,tracks_refl cfg w,Or.inr ⟨rfl,_,rfl⟩⟩
  · cases hup : goesUp cfg c with
    | false =>
      obtain ⟨e,he⟩ := install_not_goesUp cfg authz.domain c active w hup
      exact ⟨[],w,by simpa [hup] using tracks_refl cfg w,
        Or.inr ⟨by simp [hup],e,bind_of_error _ _ _ _ _ he⟩⟩
    | true =>
      obtain ⟨w',hok,htracks⟩ := install_goesUp cfg authz.domain c active w hup
      refine ⟨_,_,by simpa [hup] using htracks,?_⟩
      rcases hready : c.setReady with e|_
      · refine Or.inr ⟨by simp [hup, hready, Except.isOk, Except.toBool],.acme e,?_⟩
        refine (bind_of_ok _ _ _ _ _ hok).trans ?_
        simp [emit, hready, acme, Except.mapError]
      · refine Or.inl ⟨by simp [hup, hready, Except.isOk, Except.toBool],?_⟩
        refine (bind_of_ok _ _ _ _ _ hok).trans ?_
        simp [emit, hready, acme, Except.mapError, hup]

theorem setUp_spec (replies : List (Except String Authorization)) (active : Active) (w : World) :
    ∃ new w', Tracks cfg w w' new (planned cfg replies) ∧
      ((∀ r ∈ replies, proceeds cfg r = true) ∧
          setUp cfg replies active w = (.ok (Active.add active (planned cfg replies)),w') ∨
        ¬ (∀ r ∈ replies, proceeds cfg r = true) ∧
          ∃ e, setUp cfg replies active w = (.error e,w')) := by
  induction replies generalizing active w with
  | nil =>
    exact ⟨[],w,tracks_refl cfg w,Or.inl ⟨by simp,
      by simp [setUp, planned, Active.add, tokens, validated, records]⟩⟩
  | cons reply replies ih =>
    rcases reply with e|authz
    · exact ⟨[],w,by simpa [planned, response, proceeds] using tracks_refl cfg w,
        Or.inr ⟨by simp [proceeds],_,rfl⟩⟩
    · cases hstatus : authz.status with
      | pending =>
        have hplanned : planned cfg (.ok authz::replies) = (answer cfg authz).toList ++
            if readied cfg authz then planned cfg replies else [] := by
          simp [planned, response, proceeds, hstatus]
        have hset : setUp cfg (.ok authz::replies) active w =
            (respond cfg authz active >>= setUp cfg replies) w := by
          simp [setUp, acme, Except.mapError, hstatus]
        rw [hplanned, hset]
        obtain ⟨new,w',htracks,⟨hready,hrespond⟩|⟨hready,e,hrespond⟩⟩ :=
          respond_spec cfg authz active w
        · obtain ⟨new',w'',htracks',hend⟩ := ih (Active.add active (answer cfg authz).toList) w'
          rw [hready, if_pos rfl, bind_of_ok _ _ _ _ _ hrespond, ← add_add]
          refine ⟨new++new',w'',tracks_trans cfg w w' w'' _ _ _ _ htracks htracks',?_⟩
          simpa [proceeds, hstatus, hready] using hend
        · rw [hready, bind_of_error _ _ _ _ _ hrespond]
          exact ⟨new,w',by simpa using htracks,
            Or.inr ⟨by simp [proceeds, hstatus, hready],e,rfl⟩⟩
      | valid =>
        have hplanned : planned cfg (.ok authz::replies) = planned cfg replies := by
          simp [planned, response, proceeds, hstatus]
        have hset : setUp cfg (.ok authz::replies) active w = setUp cfg replies active w := by
          simp [setUp, acme, Except.mapError, hstatus]
        rw [hplanned, hset]
        simpa [proceeds, hstatus] using ih active w
      | _ =>
        refine ⟨[],w,by simpa [planned, response, proceeds, hstatus] using tracks_refl cfg w,
          Or.inr ⟨by simp [proceeds, hstatus],.authorization authz.domain authz.status,?_⟩⟩
        simp [setUp, acme, Except.mapError, hstatus]

/-! ## The end of an order -/

def Delivers (a : Attempt) (issued : IssuedCert) : Prop :=
  a.pollReady = .ok .ready ∧ a.finalize = .ok issued.keyPem ∧
    a.pollCertificate = .ok issued.certPem

theorem finalizeAndFetch_cases (acc : Account) (a : Attempt) (w : World) :
    (∃ e, finalizeAndFetch cfg acc a w = (.error e,w)) ∨
      ∃ issued : IssuedCert, Delivers a issued ∧
        finalizeAndFetch cfg acc a w = (.ok issued,
          (w.note [.download acc.directory cfg.domains issued.certPem])) := by
  rw [finalizeAndFetch]
  rcases hpoll : a.pollReady with e|status
  · exact Or.inl ⟨_,rfl⟩
  · by_cases hready : status = .ready
    · rcases hkey : a.finalize with e|keyPem
      · exact Or.inl ⟨.acme e,by simp [acme, Except.mapError, hready]⟩
      · rcases hcert : a.pollCertificate with e|certPem
        · exact Or.inl ⟨.acme e,by simp [acme, Except.mapError, hready]⟩
        · exact Or.inr ⟨⟨certPem,keyPem⟩,⟨hpoll.trans (congrArg _ hready),hkey,hcert⟩,by
            simp [acme, Except.mapError, hready, emit]⟩
    · exact Or.inl ⟨.order status,by simp [acme, Except.mapError, hready]⟩

def Saved (issued : IssuedCert) (a : Attempt) : Prop :=
  a.certWrite = .done ∧ a.keyWrite = .done ∧ ∃ ck, issued.intoCertifiedKey crates.toPem = .ok ck

structure Persists (issued : IssuedCert) (a : Attempt) (w w' : World)
    (r : Except AcmeError Unit) : Prop where
  httpTokens : w'.httpTokens = w.httpTokens
  challenges : w'.challenges = w.challenges
  log : w'.log = w.log
  account : w'.files .account = w.files .account
  ok : ∀ u, r = .ok u → ∃ ck, issued.intoCertifiedKey crates.toPem = .ok ck ∧
    w'.current = some ck ∧
      (cfg.cacheDir ≠ none → w'.files .cert = some issued.certPem ∧
        w'.files .key = some issued.keyPem) ∧
      (cfg.cacheDir = none → w'.files .cert = w.files .cert)
  error : ∀ e, r = .error e → w'.current = w.current ∧
    (w'.files .cert = w.files .cert ∨
      (cfg.cacheDir ≠ none ∧ a.certDir = .ok ()) ∧ ¬ Saved crates issued a ∧
        w'.files .cert = a.certWrite.content (w.files .cert) issued.certPem)

theorem persist_spec (issued : IssuedCert) (a : Attempt) (w : World) :
    Persists crates cfg issued a w (persist crates cfg issued a w).2
      (persist crates cfg issued a w).1 := by
  rw [persist, saveCert]
  rcases hdir : cfg.cacheDir with _|dir
  · rcases hck : issued.intoCertifiedKey crates.toPem with e|ck
    all_goals constructor <;> simp [hck, hdir, bind, pure]
  · rcases hmk : a.certDir with e|_
    · constructor <;> simp [ensureDir, Except.mapError, bind]
    · -- the first failing step decides: cert.pem, key.pem, then the pair itself
      rcases hcert : a.certWrite with _|⟨left,source⟩
      · have hstore := storeCert_of_done dir issued a w hcert
        rcases hkey : a.keyWrite with _|⟨left,source⟩
        · rcases hck : issued.intoCertifiedKey crates.toPem with e|ck
          all_goals constructor <;> simp [ensureDir, Except.mapError, bind, hstore, hdir, hmk,
            hcert, hkey, WriteReply.content, WriteReply.result, hck, Saved]
        · constructor <;> simp [ensureDir, Except.mapError, bind, hstore, hdir, hmk, hcert, hkey,
            WriteReply.content, WriteReply.result, Saved]
      · have hstore := storeCert_of_failed dir issued a w left source hcert
        constructor <;> simp [ensureDir, Except.mapError, bind, hstore, hdir, hmk, hcert, Saved]

/-- The teardown is done in every case; then the order failed or its
certificate is persisted. -/
theorem complete_cases (acc : Account) (active : Active) (a : Attempt) (w : World) :
    (∃ e, complete crates cfg acc active a w = (.error e,w.withdraw active)) ∨
      ∃ issued : IssuedCert, Delivers a issued ∧
        ∃ r w', complete crates cfg acc active a w = (r.map (fun _ => issued),w') ∧
          Persists crates cfg issued a (World.withdraw active
            (w.note [.download acc.directory cfg.domains issued.certPem])) w' r := by
  rw [complete, caught_bind]
  rcases finalizeAndFetch_cases cfg acc a w with ⟨e,h⟩|⟨issued,hdeliver,h⟩
  · exact Or.inl ⟨e,by simp [h, tearDown]⟩
  · refine Or.inr ⟨issued,hdeliver,_,_,?_,persist_spec crates cfg issued a _⟩
    simp only [h, tearDown, update_bind, ask_ok_bind, bind_pure_apply]

theorem complete_withdraws (acc : Account) (active : Active) (a : Attempt) (w : World) :
    (complete crates cfg acc active a w).2.httpTokens = eraseAll w.httpTokens active.http ∧
      (complete crates cfg acc active a w).2.challenges = eraseAll w.challenges active.alpn ∧
      ∃ new, (complete crates cfg acc active a w).2.log = w.log++new ∧
        (∀ action ∈ new, InOrder action) ∧ installed new = [] ∧ cleaned new = active.dns ∧
        readies new = [] := by
  generalize hdone : active.dns.map (fun r => Action.cleanup r.1 r.2.1 r.2.2) = done
  have hcleanup : (∀ action ∈ done, InOrder action) ∧ installed done = [] ∧
      cleaned done = active.dns ∧ readies done = [] := by
    subst hdone
    refine ⟨?_,by simp [installed],by simp [cleaned, List.filterMap_map],by simp [readies]⟩
    intro action hmem
    obtain ⟨r,-,rfl⟩ := List.mem_map.mp hmem
    trivial
  rcases complete_cases crates cfg acc active a w with ⟨e,h⟩|⟨issued,-,r,w',h,hp⟩
  · rw [h]
    exact ⟨rfl,rfl,done,by rw [← hdone]; rfl,hcleanup⟩
  · rw [h]
    refine ⟨hp.httpTokens,hp.challenges,
      [.download acc.directory cfg.domains issued.certPem]++done,?_,?_,hcleanup.2⟩
    · rw [hp.log, ← hdone, ← List.append_assoc]
      rfl
    · intro action hmem
      rcases List.mem_append.mp hmem with hmem|hmem
      · rw [List.mem_singleton.mp hmem]
        trivial
      · exact hcleanup.1 action hmem

/-- Where a call of `issue` ends. -/
theorem issue_cases (a : Attempt) (w : World) :
    ∃ w₁, Quiet w w₁ ∧ w₁ = (account crates cfg a w).2 ∧
      (¬ (AccountOpens crates cfg a w ∧ a.newOrder = .ok ()) ∧
          (∃ e, issue crates cfg a w = (.error e,w₁)) ∨
        (AccountOpens crates cfg a w ∧ a.newOrder = .ok ()) ∧
          ∃ acc new w₂, account crates cfg a w = (.ok acc,w₁) ∧
            Tracks cfg (w₁.note [.newOrder acc.directory cfg.domains]) w₂ new
              (planned cfg a.authorizations) ∧
            (¬ (∀ r ∈ a.authorizations, proceeds cfg r = true) ∧
                (∃ e, issue crates cfg a w = (.error e,w₂)) ∨
              (∀ r ∈ a.authorizations, proceeds cfg r = true) ∧
                issue crates cfg a w = complete crates cfg acc
                  (Active.add ⟨[],[],[]⟩ (planned cfg a.authorizations)) a w₂)) := by
  refine ⟨_,account_quiet crates cfg a w,rfl,?_⟩
  rw [← account_succeeds_iff, issue]
  rcases hacc : account crates cfg a w with ⟨e|acc,w₁⟩
  · refine Or.inl ⟨?_,e,bind_of_error _ _ _ _ _ hacc⟩
    rintro ⟨⟨acc,w',h⟩,-⟩
    cases hacc.symm.trans h
  · rw [bind_of_ok _ _ _ _ _ hacc]
    rcases horder : a.newOrder with e|_
    · exact Or.inl ⟨by simp,_,rfl⟩
    · obtain ⟨new,w₂,htracks,⟨hall,hset⟩|⟨hall,e,hset⟩⟩ := setUp_spec cfg a.authorizations
        ⟨[],[],[]⟩ (w₁.note [.newOrder acc.directory cfg.domains])
      · refine Or.inr ⟨⟨⟨acc,w₁,hacc⟩,rfl⟩,acc,new,w₂,rfl,htracks,Or.inr ⟨hall,?_⟩⟩
        exact bind_of_ok (setUp cfg a.authorizations _) _ _ _ _ hset
      · refine Or.inr ⟨⟨⟨acc,w₁,hacc⟩,rfl⟩,acc,new,w₂,rfl,htracks,Or.inl ⟨hall,e,?_⟩⟩
        exact bind_of_error (setUp cfg a.authorizations _) _ _ _ _ hset

/-- The actions of a call: an account may be created, then comes the order. -/
theorem issue_log (a : Attempt) (w : World) :
    ∃ pre post, (issue crates cfg a w).2.log = w.log++(pre++post) ∧
      (∀ action ∈ pre, ∃ url contacts, action = .createAccount url contacts) ∧
      (¬ (AccountOpens crates cfg a w ∧ a.newOrder = .ok ()) ∧ post = [] ∨
        (AccountOpens crates cfg a w ∧ a.newOrder = .ok ()) ∧
          ∃ url rest, post = .newOrder url cfg.domains::rest ∧
            (∀ action ∈ rest, InOrder action) ∧
            readies rest = (planned cfg a.authorizations).map (fun _ => cfg.challenge)) := by
  obtain ⟨w₁,hquiet,-,⟨hopen,e,hissue⟩|⟨hopen,acc,new,w₂,-,htracks,hloop⟩⟩ :=
    issue_cases crates cfg a w
  all_goals obtain ⟨pre,hlog,hpre⟩ := hquiet.log
  · exact ⟨pre,[],by rw [hissue, hlog, List.append_nil],hpre,Or.inl ⟨hopen,rfl⟩⟩
  · have hlog₂ : w₂.log = w.log++(pre++.newOrder acc.directory cfg.domains::new) := by
      rw [htracks.log, note_log, hlog]
      simp
    rcases hloop with ⟨-,e,hissue⟩|⟨-,hissue⟩
    · exact ⟨pre,_,by rw [hissue, hlog₂],hpre,
        Or.inr ⟨hopen,_,new,rfl,htracks.inOrder,htracks.readies⟩⟩
    · obtain ⟨-,-,new',hlog',hin,-,-,hready⟩ := complete_withdraws crates cfg acc
        (Active.add ⟨[],[],[]⟩ (planned cfg a.authorizations)) a w₂
      refine ⟨pre,.newOrder acc.directory cfg.domains::(new++new'),?_,hpre,
        Or.inr ⟨hopen,_,_,rfl,?_,?_⟩⟩
      · rw [hissue, hlog', hlog₂]
        simp
      · intro action hmem
        exact (List.mem_append.mp hmem).elim (htracks.inOrder action) (hin action)
      · rw [readies_append, htracks.readies, hready, List.append_nil]

def Obtains (a : Attempt) (w : World) (issued : IssuedCert) : Prop :=
  (AccountOpens crates cfg a w ∧ a.newOrder = .ok ()) ∧
    (∀ r ∈ a.authorizations, proceeds cfg r = true) ∧ Delivers a issued

def Downloaded (a : Attempt) (w w' : World) (issued : IssuedCert) : Prop :=
  ∃ acc, (account crates cfg a w).1 = .ok acc ∧
    .download acc.directory cfg.domains issued.certPem ∈ w'.log

/-- The cache and the installed certificate after a call. A call that fails
leaves the certificate installed, but may have written `cert.pem`. -/
inductive Result (a : Attempt) (w w' : World) : Except AcmeError IssuedCert → Prop where
  | installed (issued : IssuedCert) (ck : CertifiedKey) (obtained : Obtains crates cfg a w issued)
      (downloaded : Downloaded crates cfg a w w' issued)
      (certified : issued.intoCertifiedKey crates.toPem = .ok ck) (current : w'.current = some ck)
      (files : cfg.cacheDir ≠ none → w'.files .cert = some issued.certPem ∧
        w'.files .key = some issued.keyPem)
      (uncached : cfg.cacheDir = none → w'.files .cert = w.files .cert) :
      Result a w w' (.ok issued)
  | unchanged (e : AcmeError) (current : w'.current = w.current)
      (cert : w'.files .cert = w.files .cert) : Result a w w' (.error e)
  | torn (e : AcmeError) (issued : IssuedCert) (obtained : Obtains crates cfg a w issued)
      (downloaded : Downloaded crates cfg a w w' issued) (current : w'.current = w.current)
      (cache : cfg.cacheDir ≠ none ∧ a.certDir = .ok ()) (unsaved : ¬ Saved crates issued a)
      (cert : w'.files .cert = a.certWrite.content (w.files .cert) issued.certPem) :
      Result a w w' (.error e)

theorem issue_result (a : Attempt) (w : World) :
    Result crates cfg a w (issue crates cfg a w).2 (issue crates cfg a w).1 ∧
      (issue crates cfg a w).2.files .account = (account crates cfg a w).2.files .account := by
  obtain ⟨w₁,hquiet,rfl,⟨hopen,e,hissue⟩|⟨hopen,acc,new,w₂,hacc,htracks,hloop⟩⟩ :=
    issue_cases crates cfg a w
  · rw [hissue]
    exact ⟨.unchanged e hquiet.current (hquiet.files .cert (by simp)),rfl⟩
  · have hcurrent : w₂.current = w.current := htracks.current.trans hquiet.current
    have hfile : w₂.files .cert = w.files .cert := by
      rw [htracks.files]
      exact hquiet.files .cert (by simp)
    have haccount : w₂.files .account = (account crates cfg a w).2.files .account := by
      rw [htracks.files]
      rfl
    rcases hloop with ⟨-,e,hissue⟩|⟨hall,hissue⟩
    · rw [hissue]
      exact ⟨.unchanged e hcurrent hfile,haccount⟩
    · rw [hissue]
      rcases complete_cases crates cfg acc (Active.add ⟨[],[],[]⟩ (planned cfg a.authorizations)) a
        w₂ with ⟨e,h⟩|⟨issued,hdeliver,r,w',h,hp⟩
      · rw [h]
        exact ⟨.unchanged e hcurrent hfile,haccount⟩
      · rw [h]
        have hdown : Downloaded crates cfg a w w' issued := by
          refine ⟨acc,by rw [hacc],?_⟩
          rw [hp.log]
          simp [World.withdraw]
        refine ⟨?_,hp.account.trans haccount⟩
        rcases r with e|u
        · obtain ⟨hkeep,hcert|⟨hcache,hunsaved,hcert⟩⟩ := hp.error e rfl
          · exact .unchanged e (hkeep.trans hcurrent) (hcert.trans hfile)
          · refine .torn e issued ⟨hopen,hall,hdeliver⟩ hdown (hkeep.trans hcurrent) hcache
              hunsaved ?_
            rw [hcert, ← hfile]
            rfl
        · obtain ⟨ck,hck,hinst,hfiles,huncached⟩ := hp.ok u rfl
          exact .installed issued ck ⟨hopen,hall,hdeliver⟩ hdown hck hinst hfiles
            (fun hcache => (huncached hcache).trans hfile)

theorem current_of_failed (a : Attempt) (w w' : World) (e : AcmeError)
    (h : issue crates cfg a w = (.error e,w')) : w'.current = w.current := by
  have hresult := (issue_result crates cfg a w).1
  rw [h] at hresult
  cases hresult with
  | unchanged _ hcurrent _ => exact hcurrent
  | torn _ _ _ _ hcurrent _ _ _ => exact hcurrent

/-! ## Startup -/

variable (addr : SocketAddr) (now : ℕ) (a : Attempt)

theorem spawn_spec (w : World) :
    ∃ spawn, spawnHttp01Responder cfg addr w = (.ok (),w.note spawn) ∧
      ∀ action ∈ spawn, ∃ listen, action = .spawnResponder listen := by
  rw [spawnHttp01Responder]
  split
  · exact ⟨[_],rfl,by simp⟩
  · exact ⟨[],by simp [World.note],by simp⟩

theorem provision_usable (w : World) (ck : CertifiedKey)
    (h : usableCert crates cfg now w = some ck) :
    provision crates cfg now a w = (.ok (),{ w with current := some ck }) := by
  have hload : loadCached crates cfg now w = (.ok true,{ w with current := some ck }) := by
    simp [loadCached, h]
  exact bind_of_ok _ _ _ _ _ hload

theorem provision_issue (w : World) (h : usableCert crates cfg now w = none) :
    provision crates cfg now a w =
      ((issue crates cfg a w).1.map (fun _ => ()),(issue crates cfg a w).2) := by
  have hload : loadCached crates cfg now w = (.ok false,w) := by simp [loadCached, h]
  have hprovision : provision crates cfg now a w =
      (issue crates cfg a >>= fun _ => pure ()) w := bind_of_ok _ _ _ _ _ hload
  rw [hprovision, bind_pure_apply]

theorem setupAcme_spec (w : World) (h : newManager cfg = .ok ()) :
    ∃ spawn, setupAcme crates cfg addr now a w =
        ((provision crates cfg now a (w.note spawn)).1.map
            (fun _ => decide (cfg.challenge = .tlsAlpn01)),
          (provision crates cfg now a (w.note spawn)).2) ∧
      ∀ action ∈ spawn, ∃ listen, action = .spawnResponder listen := by
  obtain ⟨spawn,hspawn,hactions⟩ := spawn_spec cfg addr w
  refine ⟨spawn,?_,hactions⟩
  rw [setupAcme, h, ask_ok_bind, bind_of_ok _ _ _ _ _ hspawn, bind_pure_apply]

theorem setupAcme_ok_cases (w w' : World) (alpn : Bool)
    (h : setupAcme crates cfg addr now a w = (.ok alpn,w')) :
    ∃ spawn, (∃ ck, usableCert crates cfg now w = some ck ∧
        w' = { w.note spawn with current := some ck }) ∨
      ∃ issued, issue crates cfg a (w.note spawn) = (.ok issued,w') := by
  rcases hnew : newManager cfg with e|_
  · rw [setupAcme, hnew] at h
    cases h
  · obtain ⟨spawn,hsetup,-⟩ := setupAcme_spec crates cfg addr now a w hnew
    rw [hsetup] at h
    refine ⟨spawn,?_⟩
    rcases hcached : usableCert crates cfg now w with _|ck
    · rw [provision_issue crates cfg now a (w.note spawn) hcached] at h
      rcases hissue : issue crates cfg a (w.note spawn) with ⟨e|issued,w''⟩
      · rw [hissue] at h
        cases h
      · rw [hissue] at h
        cases h
        exact Or.inr ⟨issued,rfl⟩
    · rw [provision_usable crates cfg now a (w.note spawn) ck hcached] at h
      cases h
      exact Or.inl ⟨ck,rfl,rfl⟩

theorem usableCert_eq_some (w : World) (ck : CertifiedKey)
    (h : usableCert crates cfg now w = some ck) :
    cfg.cacheDir ≠ none ∧ ∃ cert, w.loadCert = some cert ∧
      cert.intoCertifiedKey crates.toPem = .ok ck := by
  obtain ⟨dir,hdir,h⟩ := Option.bind_eq_some_iff.mp h
  obtain ⟨cert,hcert,h⟩ := Option.bind_eq_some_iff.mp h
  refine ⟨by simp [hdir],cert,hcert,?_⟩
  split at h
  · cases h
  · rcases hck : cert.intoCertifiedKey crates.toPem with e|ck'
    · rw [hck] at h
      cases h
    · rw [hck] at h
      cases h
      rfl

end ArchetypeProxy.Acme.Steps
