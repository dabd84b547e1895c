import ArchetypeProxy.Acme.Startup
import ArchetypeProxy.Library.Upserts
import ArchetypeProxy.Tls

/-!
# What the authority finds

The authority is told that a challenge is ready and then looks for the
response: at the responder for a token, in a validation handshake for a
domain, or among the records of the zone. It may look at any moment until the
order has ended. Every response it was told of is in place from the moment it
was told until the teardown, unless a later authorization takes the same
place, and all the while other clients get the certificate they got before.
The authority finds it there exactly if the listener for it is up: at a first
start the listener is bound behind the order and the responder may be late.
-/

set_option autoImplicit false

namespace ArchetypeProxy.Acme.Validation
open ArchetypeProxy.Acme.Certificate ArchetypeProxy.Acme.Issue ArchetypeProxy.Acme.Startup
open ArchetypeProxy.Acme.Steps ArchetypeProxy.Fallible ArchetypeProxy.Runs ArchetypeProxy.Tls
open ArchetypeProxy.Upserts

def serveToken (w : World) (token : String) : ℕ × String :=
  match w.httpTokens[token]? with
  | some keyAuthorization => (200,keyAuthorization)
  | none => (404,"unknown ACME challenge token\n")

variable (cfg : AcmeConfig)

def httpReply (s : System) (w : World) (token : String) : Option (ℕ × String) :=
  if s.listening then some (serveToken w token) else none

/-- The certificate of a validation handshake, once the listener that offers its
protocol is bound. -/
def handshakeCert (s : System) (w : World) (hello : ClientHello) : Option CertifiedKey :=
  if s.tls then (Resolver.acme cfg w).resolve hello else none

/-- A record counts as there when the provider has published it and was not asked
to clean up since. -/
def RecordUp (domain : String) (c : Challenge) (w : World) : Prop :=
  ∃ before after, w.log =
    before++.install (.dns01 domain (dnsRecordName domain) c.dnsValue)::after ∧ cleaned after = []

def Found (s : System) (domain : String) (c : Challenge) (w : World) : Prop :=
  match cfg.challenge with
  | .http01 => httpReply s w c.token = some (200,c.keyAuthorization)
  | .tlsAlpn01 => ∃ ck, c.validationCert = .ok ck ∧
      ∀ hello : ClientHello, hello.isAcmeAlpn = true → hello.serverName = some domain →
        handshakeCert cfg s w hello = some ck
  | .dns01 => RecordUp domain c w

def Up (s : System) : Prop :=
  (cfg.challenge = .http01 → s.listening = true) ∧ (cfg.challenge = .tlsAlpn01 → s.tls = true)

def InPlace (domain : String) (c : Challenge) (w : World) : Prop :=
  match cfg.challenge with
  | .http01 => serveToken w c.token = (200,c.keyAuthorization)
  | .tlsAlpn01 => ∃ ck, c.validationCert = .ok ck ∧
      ∀ hello : ClientHello, hello.isAcmeAlpn = true → hello.serverName = some domain →
        (Resolver.acme cfg w).resolve hello = some ck
  | .dns01 => RecordUp domain c w

theorem found_iff_up (s : System) (domain : String) (c : Challenge) (w : World)
    (h : InPlace cfg domain c w) : Found cfg s domain c w ↔ Up cfg s := by
  rw [InPlace] at h
  rw [Found, Up]
  cases htype : cfg.challenge with
  | http01 =>
    rw [htype] at h
    cases hup : s.listening <;> simp [httpReply, hup, h]
  | tlsAlpn01 =>
    rw [htype] at h
    obtain ⟨ck,hck,hresolve⟩ := h
    constructor
    · rintro ⟨_,-,hall⟩
      have hhello := hall ⟨some domain,some [acmeTlsAlpnName]⟩ rfl rfl
      cases hup : s.tls with
      | true => simp
      | false => simp [handshakeCert, hup] at hhello
    · rintro ⟨-,hup⟩
      refine ⟨ck,hck,fun hello hacme hname => ?_⟩
      rw [handshakeCert, if_pos (hup rfl), hresolve hello hacme hname]
  | dns01 =>
    rw [htype] at h
    simpa using h

/-- The authorization puts its response in the same place. -/
def Displaces (domain : String) (c : Challenge) (reply : Except String Authorization) : Prop :=
  ∃ authz c', reply = .ok authz ∧ authz.status = .pending ∧
    authz.challenge cfg.challenge = some c' ∧
    match cfg.challenge with
    | .http01 => c'.token = c.token
    | .tlsAlpn01 => authz.domain = domain
    | .dns01 => False

/-- The states in the middle of an order that begins in `w`: after some of the
authorizations, or after the last of them while the order is polled. -/
inductive Moment (a : Attempt) (w : World) : List (Except String Authorization) → World → Prop where
  | loop (seen : List (Except String Authorization)) (h : seen <+: a.authorizations) :
    Moment a w seen (setUp cfg seen ⟨[],[],[]⟩ w).2
  | polled (acc : Account) :
    Moment a w a.authorizations
      (finalizeAndFetch cfg acc a (setUp cfg a.authorizations ⟨[],[],[]⟩ w).2).2

/-! ## One round of the loop -/

section Rounds
variable (authz : Authorization) (replies : List (Except String Authorization)) (active : Active)
variable (w : World)

theorem setUp_pending (h : authz.status = .pending) :
    setUp cfg (.ok authz::replies) active w =
      (respond cfg authz active >>= setUp cfg replies) w := by
  simp [setUp, acme, Except.mapError, h]

theorem setUp_valid (h : authz.status = .valid) :
    setUp cfg (.ok authz::replies) active w = setUp cfg replies active w := by
  simp [setUp, acme, Except.mapError, h]

theorem setUp_refused (hpending : authz.status ≠ .pending) (hvalid : authz.status ≠ .valid) :
    setUp cfg (.ok authz::replies) active w =
      (.error (.authorization authz.domain authz.status),w) := by
  cases h : authz.status with
  | pending => exact absurd h hpending
  | valid => exact absurd h hvalid
  | _ => simp [setUp, acme, Except.mapError, h]

end Rounds

/-! ## What stays in place -/

structure Keeps (domain : String) (c : Challenge) (w w' : World) : Prop where
  token : cfg.challenge = .http01 → w'.httpTokens[c.token]? = w.httpTokens[c.token]?
  cert : cfg.challenge = .tlsAlpn01 → w'.challenges[domain]? = w.challenges[domain]?
  log : ∃ new, w'.log = w.log++new ∧ cleaned new = []

section Keeps
variable (domain : String) (c : Challenge)

instance : Std.Refl (Keeps cfg domain c) where
  refl w := ⟨fun _ => rfl,fun _ => rfl,[],by simp,rfl⟩

instance : IsTrans World (Keeps cfg domain c) where
  trans := by
    intro w₁ w₂ w₃ h h'
    obtain ⟨new,hlog,hnew⟩ := h.log
    obtain ⟨new',hlog',hnew'⟩ := h'.log
    refine ⟨fun ht => (h'.token ht).trans (h.token ht),fun ht => (h'.cert ht).trans (h.cert ht),
      new++new',by rw [hlog', hlog, List.append_assoc],?_⟩
    rw [cleaned_append, hnew, hnew', List.append_nil]

theorem keeps_note (w : World) (actions : List Action) (h : cleaned actions = []) :
    Keeps cfg domain c w (w.note actions) :=
  ⟨fun _ => rfl,fun _ => rfl,actions,rfl,h⟩

theorem inPlace_keeps (w w' : World) (h : Keeps cfg domain c w w')
    (hplace : InPlace cfg domain c w) : InPlace cfg domain c w' := by
  rw [InPlace] at hplace ⊢
  split at hplace
  · rename_i htype
    rw [serveToken, h.token htype]
    exact hplace
  · rename_i htype
    obtain ⟨ck,hck,hresolve⟩ := hplace
    refine ⟨ck,hck,fun hello hacme hname => ?_⟩
    rw [← hresolve hello hacme hname]
    simp only [Resolver.resolve, hacme, if_true, hname, Option.bind_some, h.cert htype]
  · obtain ⟨before,after,hlog,hafter⟩ := hplace
    obtain ⟨new,hnew,hcleaned⟩ := h.log
    refine ⟨before,after++new,by rw [hnew, hlog]; simp,?_⟩
    rw [cleaned_append, hafter, hcleaned, List.append_nil]

theorem emit_keeps (action : Action) (h : cleaned [action] = []) :
    Moves (Keeps cfg domain c) (emit action) :=
  fun w => keeps_note cfg domain c w [action] h

theorem respond_keeps (authz : Authorization) (active : Active) (hpending : authz.status = .pending)
    (h : ¬ Displaces cfg domain c (.ok authz)) :
    Moves (Keeps cfg domain c) (respond cfg authz active) := by
  rw [respond]
  split
  · exact moves_ask _ _
  · rename_i c' hc'
    have hplace : ¬ match cfg.challenge with
        | .http01 => c'.token = c.token
        | .tlsAlpn01 => authz.domain = domain
        | .dns01 => False := fun hsame => h ⟨authz,c',rfl,hpending,hc',hsame⟩
    refine moves_bind _ _ _ ?_ fun active => moves_bind _ _ _ (emit_keeps cfg domain c _ rfl)
      fun _ => moves_bind _ _ _ (moves_ask _ _) fun _ => moves_pure _ _
    cases htype : cfg.challenge with
    | http01 =>
      rw [htype] at hplace
      refine moves_bind _ _ _ (moves_update _ _ fun w => ?_) fun _ =>
        moves_bind _ _ _ (emit_keeps cfg domain c _ rfl) fun _ => moves_pure _ _
      refine ⟨fun _ => ?_,fun _ => rfl,[],by simp,rfl⟩
      rw [getElem?_insert_key, if_neg hplace]
    | tlsAlpn01 =>
      rw [htype] at hplace
      refine moves_bind _ _ _ (moves_ask _ _) fun ck => moves_bind _ _ _
        (moves_update _ _ fun w => ?_) fun _ =>
        moves_bind _ _ _ (emit_keeps cfg domain c _ rfl) fun _ => moves_pure _ _
      refine ⟨fun _ => rfl,fun _ => ?_,[],by simp,rfl⟩
      rw [getElem?_insert_key, if_neg hplace]
    | dns01 =>
      exact moves_bind _ _ _ (moves_ask _ _) fun _ =>
        moves_bind _ _ _ (emit_keeps cfg domain c _ rfl) fun _ => moves_pure _ _

theorem setUp_keeps (replies : List (Except String Authorization)) (active : Active)
    (h : ∀ r ∈ replies, ¬ Displaces cfg domain c r) :
    Moves (Keeps cfg domain c) (setUp cfg replies active) := by
  induction replies generalizing active with
  | nil => exact moves_pure _ _
  | cons reply replies ih =>
    have hrest := fun active => ih active fun r hr => h r (List.mem_cons_of_mem reply hr)
    rcases reply with e|authz
    · exact fun w => refl w
    · intro w
      by_cases hpending : authz.status = .pending
      · rw [setUp_pending cfg authz replies active w hpending]
        exact moves_bind _ _ _ (respond_keeps cfg domain c authz active hpending
          (h _ List.mem_cons_self)) hrest w
      · by_cases hvalid : authz.status = .valid
        · rw [setUp_valid cfg authz replies active w hvalid]
          exact hrest active w
        · rw [setUp_refused cfg authz replies active w hpending hvalid]
          exact refl w

end Keeps

/-! ## From the announcement to the teardown -/

theorem setUp_append (replies rest : List (Except String Authorization)) (active : Active)
    (w : World) :
    setUp cfg (replies++rest) active w = (setUp cfg replies active >>= setUp cfg rest) w := by
  induction replies generalizing active w with
  | nil => rfl
  | cons reply replies ih =>
    rcases reply with e|authz
    · rfl
    · rw [List.cons_append]
      by_cases hpending : authz.status = .pending
      · rw [setUp_pending cfg authz (replies++rest) active w hpending]
        have hround := setUp_pending cfg authz replies active w hpending
        rcases hrespond : respond cfg authz active w with ⟨e|active',w'⟩
        · have hend := hround.trans (bind_of_error _ _ _ _ _ hrespond)
          rw [bind_of_error _ _ _ _ _ hrespond, bind_of_error _ _ _ _ _ hend]
        · rw [bind_of_ok _ _ _ _ _ hrespond, ih]
          have hnext := hround.trans (bind_of_ok _ _ _ _ _ hrespond)
          rcases hloop : setUp cfg replies active' w' with ⟨e|active'',w''⟩
          · rw [bind_of_error _ _ _ _ _ hloop, bind_of_error _ _ _ _ _ (hnext.trans hloop)]
          · rw [bind_of_ok _ _ _ _ _ hloop, bind_of_ok _ _ _ _ _ (hnext.trans hloop)]
      · by_cases hvalid : authz.status = .valid
        · rw [setUp_valid cfg authz (replies++rest) active w hvalid, ih]
          simp only [bind, setUp_valid cfg authz replies active w hvalid]
        · rw [setUp_refused cfg authz (replies++rest) active w hpending hvalid,
            bind_of_error _ _ _ _ _ (setUp_refused cfg authz replies active w hpending hvalid)]

theorem respond_inPlace (authz : Authorization) (c : Challenge) (active : Active) (w : World)
    (hc : authz.challenge cfg.challenge = some c) (hup : goesUp cfg c = true) :
    InPlace cfg authz.domain c (respond cfg authz active w).2 := by
  obtain ⟨w',hinstall,-⟩ := install_goesUp cfg authz.domain c active w hup
  have hstate : (respond cfg authz active w).2 = w'.note [.setReady cfg.challenge] := by
    rw [respond, hc]
    dsimp only
    rw [bind_of_ok _ _ _ _ _ hinstall]
    rcases hready : c.setReady with e|_ <;> simp [emit, acme, Except.mapError]
  rw [hstate]
  refine inPlace_keeps cfg authz.domain c w' _ (keeps_note cfg authz.domain c w' _ rfl) ?_
  rw [goesUp] at hup
  rw [InPlace]
  cases htype : cfg.challenge with
  | http01 =>
    rw [htype] at hinstall
    simp only [install, challengeResponse, update_bind, emit, pure_apply] at hinstall
    rw [← (Prod.mk.inj hinstall).2]
    simp [serveToken]
  | tlsAlpn01 =>
    rw [htype] at hinstall hup
    rcases hcert : c.validationCert with e|ck
    · simp [hcert, Except.isOk, Except.toBool] at hup
    · simp only [install, challengeResponse, hcert, ask_ok_bind, update_bind, emit,
        pure_apply] at hinstall
      rw [← (Prod.mk.inj hinstall).2]
      refine ⟨ck,rfl,fun hello hacme hname => ?_⟩
      simp [Resolver.resolve, hacme, hname]
  | dns01 =>
    rw [htype] at hinstall hup
    rcases hpublish : c.publish with e|_
    · simp [hpublish, Except.isOk, Except.toBool] at hup
    · simp only [install, challengeResponse, hpublish, ask_ok_bind, update_bind, emit,
        pure_apply] at hinstall
      rw [← (Prod.mk.inj hinstall).2]
      exact ⟨w.log,[],rfl,rfl⟩

theorem setUp_inPlace (before after : List (Except String Authorization)) (authz : Authorization)
    (c : Challenge) (active : Active) (w : World) (hbefore : ∀ r ∈ before, proceeds cfg r = true)
    (hpending : authz.status = .pending) (hc : authz.challenge cfg.challenge = some c)
    (hup : goesUp cfg c = true) (hafter : ∀ r ∈ after, ¬ Displaces cfg authz.domain c r) :
    InPlace cfg authz.domain c (setUp cfg (before++.ok authz::after) active w).2 := by
  obtain ⟨-,w₁,-,⟨-,hloop⟩|⟨hstop,-⟩⟩ := setUp_spec cfg before active w
  · rw [setUp_append, bind_of_ok _ _ _ _ _ hloop]
    rw [setUp_pending cfg authz after _ w₁ hpending]
    have hplace := respond_inPlace cfg authz c (Active.add active (planned cfg before)) w₁ hc hup
    rcases bind_cases (respond cfg authz (Active.add active (planned cfg before)))
      (setUp cfg after) w₁ with ⟨e,w₂,hrespond,hseq⟩|⟨active₂,w₂,hrespond,hseq⟩
    · rw [hseq]
      rwa [hrespond] at hplace
    · rw [hseq]
      rw [hrespond] at hplace
      exact inPlace_keeps cfg authz.domain c w₂ _
        (setUp_keeps cfg authz.domain c after active₂ hafter w₂) hplace
  · exact absurd hbefore hstop

theorem finalizeAndFetch_state (acc : Account) (a : Attempt) (w : World) :
    ∃ actions, cleaned actions = [] ∧ (finalizeAndFetch cfg acc a w).2 = w.note actions := by
  rcases finalizeAndFetch_cases cfg acc a w with ⟨e,h⟩|⟨issued,-,h⟩
  · exact ⟨[],rfl,by rw [h]; simp [World.note]⟩
  · exact ⟨[.download acc.directory cfg.domains issued.certPem],rfl,by rw [h]⟩

/-! ## When the listeners are up -/

section Started
variable (crates : Crates) (addr : SocketAddr) (now : ℕ) (first : Attempt)
variable (files : CacheFile → Option String)

theorem mainActions_last :
    ∃ log, mainActions crates cfg addr now first files = log++[.exit] ∨
      mainActions crates cfg addr now first files =
        log++[.bindTls addr (decide (cfg.challenge = .tlsAlpn01))] := by
  rw [mainActions, startServer]
  rcases hsetup : setupAcme crates cfg addr now first (booted files []) with ⟨e|alpn,w⟩
  · exact ⟨w.log,Or.inl rfl⟩
  · refine ⟨w.log,Or.inr ?_⟩
    rw [← setupAcme_alpn crates cfg addr now first _ w alpn hsetup]
    rfl

def Performed (s : System) : Prop :=
  ∃ done, mainActions crates cfg addr now first files = done++s.pending ∧
    (s.exited = false → ∀ log last, done = log++[last] →
      last ≠ .exit ∧ ∀ addr alpn, last = .bindTls addr alpn → s.tls = alpn)

theorem performed_turn (s : System) (t : Turn)
    (h : Performed cfg crates addr now first files s) :
    Performed cfg crates addr now first files (turn s t) := by
  obtain ⟨done,hdone,hlast⟩ := h
  cases t with
  | responder bound =>
    have hkeep : (turn s (.responder bound)).pending = s.pending ∧
        (turn s (.responder bound)).tls = s.tls ∧
        ((turn s (.responder bound)).exited = false → s.exited = false) := by
      simp only [turn]
      split
      · split <;> simp
      · simp
    refine ⟨done,by rw [hkeep.1, hdone],fun hrunning => ?_⟩
    rw [hkeep.2.1]
    exact hlast (hkeep.2.2 hrunning)
  | main =>
    rcases s with ⟨_|⟨action,rest⟩,spawned,listening,tls,_|_⟩
    case cons.false =>
      rw [turn_main]
      refine ⟨done++[action],by rw [(perform_listening _ action).2, hdone]; simp,?_⟩
      intro hrunning log last hsplit
      obtain ⟨-,hlast⟩ := List.append_inj' hsplit rfl
      cases hlast
      cases action with
      | exit => cases hrunning
      | bindTls addr' alpn' =>
        refine ⟨by simp,?_⟩
        intro addr alpn heq
        cases heq
        rfl
      | _ => simp
    all_goals exact ⟨done,hdone,hlast⟩

/-- Once the startup is complete, a listener that offers the validation protocol
is up if the challenge needs one, and only the responder may still be late. -/
theorem started_up_iff (turns : List Turn) (s : System)
    (hs : s = run turn (boot crates cfg addr now first files) turns) (hpending : s.pending = [])
    (hrunning : s.exited = false) :
    Up cfg s ↔ (cfg.challenge = .http01 → s.listening = true) := by
  have hperformed : Performed cfg crates addr now first files s := by
    rw [hs]
    exact run_invariant turn (Performed cfg crates addr now first files)
      (performed_turn cfg crates addr now first files) _ ⟨[],rfl,by simp⟩ turns
  obtain ⟨done,hdone,hlast⟩ := hperformed
  rw [hpending, List.append_nil] at hdone
  have htls : s.tls = decide (cfg.challenge = .tlsAlpn01) := by
    obtain ⟨log,hexit|hbind⟩ := mainActions_last cfg crates addr now first files
    · exact absurd rfl (hlast hrunning log _ (hdone.symm.trans hexit)).1
    · exact (hlast hrunning log _ (hdone.symm.trans hbind)).2 _ _ rfl
  rw [Up, htls]
  simp

end Started

/-- At every moment from the announcement of a challenge to the teardown, the
authority finds the response exactly if its listener is up, and other clients
get the certificate that was installed before the order. After the startup the
listener is up, and a responder as soon as it has bound its address. -/
theorem announced_challenge_found (a : Attempt) (w w' : World)
    (seen : List (Except String Authorization)) (h : Moment cfg a w seen w') :
    (∀ (s : System) before authz after c, seen = before++.ok authz::after →
      (∀ r ∈ before, proceeds cfg r = true) → authz.status = .pending →
      authz.challenge cfg.challenge = some c → goesUp cfg c = true →
      (∀ r ∈ after, ¬ Displaces cfg authz.domain c r) →
      (Found cfg s authz.domain c w' ↔ Up cfg s)) ∧
    (∀ hello : ClientHello, hello.isAcmeAlpn = false →
      (Resolver.acme cfg w').resolve hello = (Resolver.acme cfg w).resolve hello) ∧
    ∀ crates addr now first files turns s,
      s = run turn (boot crates cfg addr now first files) turns → s.pending = [] →
      s.exited = false → (Up cfg s ↔ (cfg.challenge = .http01 → s.listening = true)) := by
  have hcurrent (replies : List (Except String Authorization)) :
      (setUp cfg replies ⟨[],[],[]⟩ w).2.current = w.current := by
    obtain ⟨new,w₁,htracks,⟨-,hloop⟩|⟨-,e,hloop⟩⟩ := setUp_spec cfg replies ⟨[],[],[]⟩ w
    · rw [hloop]
      exact htracks.current
    · rw [hloop]
      exact htracks.current
  have hstate : ∃ actions, cleaned actions = [] ∧
      w' = (setUp cfg seen ⟨[],[],[]⟩ w).2.note actions := by
    cases h with
    | loop seen hseen => exact ⟨[],rfl,by simp [World.note]⟩
    | polled acc => exact finalizeAndFetch_state cfg acc a _
  obtain ⟨actions,hclean,rfl⟩ := hstate
  refine ⟨?_,?_,fun crates addr now first files turns s =>
    started_up_iff cfg crates addr now first files turns s⟩
  · intro s before authz after c hs hbefore hpending hc hup hafter
    apply found_iff_up
    refine inPlace_keeps cfg authz.domain c _ _ (keeps_note cfg authz.domain c _ actions hclean) ?_
    rw [hs]
    exact setUp_inPlace cfg before after authz c _ w hbefore hpending hc hup hafter
  · intro hello hplain
    simp [Resolver.resolve, hplain, hcurrent]

def twoDomains : AcmeConfig := ⟨["a","b"],none,.http01,none,false,none,none,.manual⟩

def twoOrders : Attempt :=
  smoothAttempt [.ok (pendingAuthz .http01 "a"),.ok (pendingAuthz .http01 "b")] ⟨"Z","Z"⟩

theorem first_token_served :
    httpReply (run turn (boot charCrates twoDomains ⟨"::",443⟩ 0 twoOrders (fun _ => none))
        [.main,.responder true,.main,.main])
      (finalizeAndFetch twoDomains ⟨"production"⟩ twoOrders
        (setUp twoDomains twoOrders.authorizations ⟨[],[],[]⟩ emptyWorld).2).2 "a" =
      some (200,"a") := by
  refine ((announced_challenge_found twoDomains twoOrders emptyWorld _ _
    (.polled ⟨"production"⟩)).1 _ [] (pendingAuthz .http01 "a") [.ok (pendingAuthz .http01 "b")] _
    rfl (by simp) rfl rfl rfl ?_).mpr ⟨fun _ => rfl,by simp [twoDomains]⟩
  intro r hr
  rw [List.mem_singleton.mp hr]
  rintro ⟨authz,c',hok,-,hc',htoken⟩
  cases hok
  cases hc'
  revert htoken
  simp [twoDomains]

end ArchetypeProxy.Acme.Validation
