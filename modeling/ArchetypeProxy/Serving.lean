import ArchetypeProxy.Library.Runs
import ArchetypeProxy.Metrics
import ArchetypeProxy.ProxyResponse
import ArchetypeProxy.WsUpgrade

/-!
# Serving requests concurrently

The router sends a request to the upgrade handler, the handshake, the
observability endpoints or the proxy handler. Each request is a task of its
own, and the tasks interleave at every atomic increment of the metrics and at
every wait for an upstream. A task remembers the request it serves, what it
handed to the HTTP client, the redirects that client followed and what it
added to the metrics. The cells of the metrics are taken in one total order,
although the source only asks for relaxed ones.
-/

set_option autoImplicit false

namespace ArchetypeProxy.Serving
open ArchetypeProxy.CounterNonce ArchetypeProxy.Http ArchetypeProxy.Metrics
open ArchetypeProxy.OpenHttpa ArchetypeProxy.ProxyHandler ArchetypeProxy.ProxyResponse
open ArchetypeProxy.Routes ArchetypeProxy.Runs ArchetypeProxy.Tally ArchetypeProxy.Text
open ArchetypeProxy.TrustedRequest ArchetypeProxy.Upstream ArchetypeProxy.WsUpgrade

variable {S A Id Suite F : Type}

/-- A request, with the crates, the registry and the live table as it meets
them, the paths of the handshake router and the status that router gives. -/
structure Arrival (S A Id Suite : Type) where
  attestation : Attestation S A
  protocol : Protocol Id Suite A
  registry : Registry Id Suite
  table : RouteTable
  websocketUpgrade : RequestHead → Bool
  baseRoute : String → Bool
  baseStatus : ℕ
  req : TrustedRequest.Request

inductive Endpoint where
  | upgrade (req : WsRequestMeta)
  | base
  | healthz
  | readyz
  | metrics
  | proxy
  | methodNotAllowed
  | notFound
  deriving DecidableEq, Repr

def observability : List (String × Endpoint) :=
  [("/healthz",.healthz),("/readyz",.readyz),("/metrics",.metrics)]

/-- A fixed path comes before the catch-all, and its handler takes `GET` and
`HEAD` only. -/
def routed (x : Arrival S A Id Suite) : Endpoint :=
  let head := x.req.head
  if x.baseRoute head.uri.path then .base
  else match observability.find? (fun route => route.1 == head.uri.path) with
    | some route => if head.method = "GET" ∨ head.method = "HEAD" then route.2
      else .methodNotAllowed
    | none => if startsWith head.uri.path "/" then .proxy else .notFound

/-- The guard for attested upgrades stands before all routes. -/
def endpoint (x : Arrival S A Id Suite) : Endpoint :=
  match wsDispatch x.protocol x.websocketUpgrade x.req.head with
  | some req => .upgrade req
  | none => routed x

/-- The failures of the extractor that are counted: the session refuses the
nonce, or MAC or body do not verify. -/
def decryptFails (t : Attestation S A) (maxBodyBytes : ℕ) (req : TrustedRequest.Request) : Bool :=
  match t.openSession req.head.headers with
  | .error _ => false
  | .ok session =>
    match readTicket t req.head.headers with
    | .error _ => false
    | .ok ticket =>
      match readEnvelope t maxBodyBytes req.body with
      | .error _ => false
      | .ok ciphertext =>
        if isEmpty (clientAuthority req.head) then false
        else
          match t.withKeysForTrr session.session ticket.nonce with
          | .error _ => true
          | .ok keys =>
            match openTrusted t session.aad keys ticket req.head ciphertext with
            | .error _ => true
            | .ok _ => false

def handshakeServed (x : Arrival S A Id Suite) : Bool :=
  x.req.head.method = "POST" && x.req.head.uri.path = "/attest" &&
    (200 ≤ x.baseStatus && x.baseStatus < 300)

structure Outbound where
  method : String
  url : String
  body : Bytes
  deriving DecidableEq

def maxRedirects : ℕ := 10

/-- The request behind a redirect. Depending on status and method, the HTTP
client keeps the method or turns it into `GET`, and keeps the body or not. -/
def Outbound.redirected (o : Outbound) (location : String) (asGet dropBody : Bool) : Outbound :=
  ⟨if asGet then "GET" else o.method,location,if dropBody then [] else o.body⟩

inductive Answer (Id A : Type) where
  | open (status : ℕ)
  | bare (r : Response)
  | upgraded (u : Upgrade Id A)
  | sealed (items : List Item)

inductive Stage (Id A : Type) where
  | forwarding (o : Outbound)
  | awaiting (o : Outbound)
  | answering (a : Answer Id A)

def opening (max : ℕ) (x : Arrival S A Id Suite) : Stage Id A × List Increment :=
  match endpoint x with
  | .upgrade req => match wsUpgradeHandler x.protocol x.registry x.table req with
    | .ok u => (.answering (.upgraded u),[])
    | .error r => (.answering (.bare r),[])
  | .base => (.answering (.open x.baseStatus),if handshakeServed x then incHandshakes else [])
  | .healthz | .readyz | .metrics => (.answering (.open 200),[])
  | .methodNotAllowed => (.answering (.open 405),[])
  | .notFound => (.answering (.open 404),[])
  | .proxy => match fromRequest x.attestation max x.req with
    | .error r => (.answering (.bare r),
        if decryptFails x.attestation max x.req then incDecryptFailures else [])
    | .ok req => match proxyHandler x.table max req with
      | .sealedError _ status message => (.answering (.sealed (sealError status message)),[])
      | .outbound _ method url body => (.forwarding ⟨method,url,body⟩,incUpstreamRequests)

structure Task (S A Id Suite F : Type) where
  origin : Arrival S A Id Suite
  stage : Stage Id A
  performed : List Increment
  pending : List Increment
  sent : List Outbound
  hops : List Outbound
  replied : Option (UpstreamReply × F)

def begin (max : ℕ) (x : Arrival S A Id Suite) : Task S A Id Suite F :=
  ⟨x,(opening max x).1,[],(opening max x).2,[],[],none⟩

def Task.send (τ : Task S A Id Suite F) : Task S A Id Suite F :=
  match τ.stage, τ.pending with
  | .forwarding o, [] => { τ with stage := .awaiting o, sent := τ.sent++[o] }
  | _, _ => τ

/-- The HTTP client follows a redirect by itself, to whatever place it names. -/
def Task.redirect (τ : Task S A Id Suite F) (location : String) (asGet dropBody : Bool) :
    Task S A Id Suite F :=
  match τ.stage with
  | .awaiting o =>
    if τ.hops.length < maxRedirects then
      { τ with hops := τ.hops++[(τ.hops.getLast?.getD o).redirected location asGet dropBody] }
    else τ
  | _ => τ

variable (f : Seconds F) (max : ℕ)

def errorIncrements : UpstreamReply → List Increment
  | .failed _ => incUpstreamErrors
  | .response _ => []

def replyIncrements (reply : UpstreamReply) (secs : F) : List Increment :=
  observeUpstreamLatency f secs++errorIncrements reply

def Task.reply (τ : Task S A Id Suite F) (reply : UpstreamReply) (secs : F) :
    Task S A Id Suite F :=
  match τ.stage with
  | .awaiting _ => { τ with
      stage := .answering (.sealed (relay max reply))
      pending := replyIncrements f reply secs
      replied := some (reply,secs) }
  | _ => τ

structure Server (S A Id Suite F : Type) where
  cells : Cell → ℕ
  tasks : List (Task S A Id Suite F)

def idle : Server S A Id Suite F := ⟨fun _ => 0,[]⟩

inductive Event (S A Id Suite F : Type) where
  | arrive (x : Arrival S A Id Suite)
  | perform (i : ℕ)
  | send (i : ℕ)
  | redirect (i : ℕ) (location : String) (asGet dropBody : Bool)
  | reply (i : ℕ) (reply : UpstreamReply) (secs : F)

def Event.arrival : Event S A Id Suite F → Option (Arrival S A Id Suite)
  | .arrive x => some x
  | _ => none

def arrivals (es : List (Event S A Id Suite F)) : List (Arrival S A Id Suite) :=
  es.filterMap Event.arrival

def Server.change (s : Server S A Id Suite F) (i : ℕ)
    (g : Task S A Id Suite F → Task S A Id Suite F) : Server S A Id Suite F :=
  match s.tasks[i]? with
  | none => s
  | some τ => { s with tasks := s.tasks.set i (g τ) }

def step (s : Server S A Id Suite F) : Event S A Id Suite F → Server S A Id Suite F
  | .arrive x => { s with tasks := s.tasks++[begin max x] }
  | .perform i => match s.tasks[i]? with
    | none => s
    | some τ => match τ.pending with
      | [] => s
      | a::rest => ⟨fetchAdd s.cells a,
          s.tasks.set i { τ with performed := τ.performed++[a], pending := rest }⟩
  | .send i => s.change i Task.send
  | .redirect i location asGet dropBody => s.change i (fun τ => τ.redirect location asGet dropBody)
  | .reply i reply secs => s.change i (fun τ => τ.reply f max reply secs)

def served (es : List (Event S A Id Suite F)) : Server S A Id Suite F := run (step f max) idle es

/-! ## What a task can be -/

/-- Redirects followed for a request carry nothing that was not in it, apart
from the places they go to. -/
structure Followed (o : Outbound) (hops : List Outbound) : Prop where
  bounded : hops.length ≤ maxRedirects
  method : ∀ hop ∈ hops, hop.method = o.method ∨ hop.method = "GET"
  body : ∀ hop ∈ hops, hop.body = o.body ∨ hop.body = []

theorem Followed.redirect {o : Outbound} {hops : List Outbound} (h : Followed o hops)
    (hroom : hops.length < maxRedirects) (location : String) (asGet dropBody : Bool) :
    Followed o (hops++[(hops.getLast?.getD o).redirected location asGet dropBody]) := by
  have hlast : ((hops.getLast?.getD o).method = o.method ∨
      (hops.getLast?.getD o).method = "GET") ∧
        ((hops.getLast?.getD o).body = o.body ∨ (hops.getLast?.getD o).body = []) := by
    cases hlast : hops.getLast? with
    | none => exact ⟨Or.inl rfl,Or.inl rfl⟩
    | some hop =>
      have hmem := List.mem_of_getLast? hlast
      exact ⟨h.method hop hmem,h.body hop hmem⟩
  constructor
  · rw [List.length_append, List.length_singleton]
    omega
  · intro hop hhop
    rcases List.mem_append.mp hhop with hhop | hhop
    · exact h.method hop hhop
    · rw [List.mem_singleton.mp hhop]
      cases asGet with
      | false => exact hlast.1
      | true => exact Or.inr rfl
  · intro hop hhop
    rcases List.mem_append.mp hhop with hhop | hhop
    · exact h.body hop hhop
    · rw [List.mem_singleton.mp hhop]
      cases dropBody with
      | false => exact hlast.2
      | true => exact Or.inr rfl

/-- The tasks of a run: answered on arrival, about to send, waiting for the
HTTP client, or answered with what the client gave. In each of these some of
the increments may still be pending. -/
inductive Reached : Task S A Id Suite F → Prop where
  | direct (x : Arrival S A Id Suite) (a : Answer Id A) (performed pending : List Increment)
    (h : opening max x = (.answering a,performed++pending)) :
    Reached ⟨x,.answering a,performed,pending,[],[],none⟩
  | forwarding (x : Arrival S A Id Suite) (o : Outbound) (performed pending : List Increment)
    (h : opening max x = (.forwarding o,performed++pending)) :
    Reached ⟨x,.forwarding o,performed,pending,[],[],none⟩
  | awaiting (x : Arrival S A Id Suite) (o : Outbound) (hops : List Outbound)
    (performed : List Increment) (h : opening max x = (.forwarding o,performed))
    (hhops : Followed o hops) :
    Reached ⟨x,.awaiting o,performed,[],[o],hops,none⟩
  | replied (x : Arrival S A Id Suite) (o : Outbound) (hops : List Outbound) (reply : UpstreamReply)
    (secs : F) (first performed pending : List Increment)
    (h : opening max x = (.forwarding o,first)) (hhops : Followed o hops)
    (hsplit : replyIncrements f reply secs = performed++pending) :
    Reached ⟨x,.answering (.sealed (relay max reply)),first++performed,pending,[o],hops,
      some (reply,secs)⟩

theorem opening_not_awaiting (x : Arrival S A Id Suite) (o : Outbound) (adds : List Increment) :
    opening max x ≠ (.awaiting o,adds) := by
  rw [opening]
  split <;> try simp
  · split <;> simp
  · split
    · simp
    · split <;> simp

theorem begin_reached (x : Arrival S A Id Suite) :
    Reached f max (begin max x : Task S A Id Suite F) := by
  rw [begin]
  cases h : opening max x with
  | mk stage adds =>
    cases stage with
    | forwarding o => exact .forwarding x o [] adds h
    | awaiting o => exact absurd h (opening_not_awaiting max x o adds)
    | answering a => exact .direct x a [] adds h

variable {f max}

theorem perform_reached (τ : Task S A Id Suite F) (a : Increment) (rest : List Increment)
    (h : Reached f max τ) (hpending : τ.pending = a::rest) :
    Reached f max { τ with performed := τ.performed++[a], pending := rest } := by
  cases h with
  | direct x b performed pending h =>
    cases hpending
    exact .direct x b (performed++[a]) rest (by simpa using h)
  | forwarding x o performed pending h =>
    cases hpending
    exact .forwarding x o (performed++[a]) rest (by simpa using h)
  | awaiting x o hops performed h hhops => cases hpending
  | replied x o hops reply secs first performed pending h hhops hsplit =>
    cases hpending
    simp only [List.append_assoc]
    exact .replied x o hops reply secs first (performed++[a]) rest h hhops (by simpa using hsplit)

theorem send_reached (τ : Task S A Id Suite F) (h : Reached f max τ) : Reached f max τ.send := by
  cases h with
  | direct x b performed pending h => exact .direct x b performed pending h
  | forwarding x o performed pending h =>
    cases pending with
    | nil => exact .awaiting x o [] performed (by simpa using h) ⟨Nat.zero_le _,by simp,by simp⟩
    | cons a rest => exact .forwarding x o performed (a::rest) h
  | awaiting x o hops performed h hhops => exact .awaiting x o hops performed h hhops
  | replied x o hops reply secs first performed pending h hhops hsplit =>
    exact .replied x o hops reply secs first performed pending h hhops hsplit

theorem redirect_reached (τ : Task S A Id Suite F) (location : String) (asGet dropBody : Bool)
    (h : Reached f max τ) : Reached f max (τ.redirect location asGet dropBody) := by
  cases h with
  | direct x b performed pending h => exact .direct x b performed pending h
  | forwarding x o performed pending h => exact .forwarding x o performed pending h
  | awaiting x o hops performed h hhops =>
    by_cases hroom : hops.length < maxRedirects
    · rw [Task.redirect]
      simp only [hroom, if_true]
      exact .awaiting x o _ performed h (hhops.redirect hroom location asGet dropBody)
    · rw [Task.redirect]
      simp only [hroom, if_false]
      exact .awaiting x o hops performed h hhops
  | replied x o hops reply secs first performed pending h hhops hsplit =>
    exact .replied x o hops reply secs first performed pending h hhops hsplit

theorem reply_reached (τ : Task S A Id Suite F) (reply : UpstreamReply) (secs : F)
    (h : Reached f max τ) : Reached f max (τ.reply f max reply secs) := by
  cases h with
  | direct x b performed pending h => exact .direct x b performed pending h
  | forwarding x o performed pending h => exact .forwarding x o performed pending h
  | awaiting x o hops performed h hhops =>
    have hreplied := Reached.replied x o hops reply secs performed [] _ h hhops
      (List.nil_append (replyIncrements f reply secs)).symm
    simpa [Task.reply] using hreplied
  | replied x o hops reply' secs' first performed pending h hhops hsplit =>
    exact .replied x o hops reply' secs' first performed pending h hhops hsplit

theorem send_kept (τ : Task S A Id Suite F) :
    τ.send.origin = τ.origin ∧ τ.send.performed = τ.performed := by
  rw [Task.send]
  split <;> exact ⟨rfl,rfl⟩

theorem redirect_kept (τ : Task S A Id Suite F) (location : String) (asGet dropBody : Bool) :
    (τ.redirect location asGet dropBody).origin = τ.origin ∧
      (τ.redirect location asGet dropBody).performed = τ.performed := by
  rw [Task.redirect]
  split
  · split <;> exact ⟨rfl,rfl⟩
  · exact ⟨rfl,rfl⟩

theorem reply_kept (τ : Task S A Id Suite F) (reply : UpstreamReply) (secs : F) :
    (τ.reply f max reply secs).origin = τ.origin ∧
      (τ.reply f max reply secs).performed = τ.performed := by
  rw [Task.reply]
  split <;> exact ⟨rfl,rfl⟩

variable (f max)

inductive Change (s : Server S A Id Suite F) :
    Event S A Id Suite F → Server S A Id Suite F → Prop where
  | skip (e : Event S A Id Suite F) (he : e.arrival = none) : Change s e s
  | arrive (x : Arrival S A Id Suite) :
    Change s (.arrive x) ⟨s.cells,s.tasks++[begin max x]⟩
  | perform (i : ℕ) (τ : Task S A Id Suite F) (a : Increment) (rest : List Increment)
    (hi : s.tasks[i]? = some τ) (hpending : τ.pending = a::rest) :
    Change s (.perform i) ⟨fetchAdd s.cells a,
      s.tasks.set i { τ with performed := τ.performed++[a], pending := rest }⟩
  | move (e : Event S A Id Suite F) (i : ℕ) (τ τ' : Task S A Id Suite F) (he : e.arrival = none)
    (hi : s.tasks[i]? = some τ) (hreached : Reached f max τ → Reached f max τ')
    (hkept : τ'.origin = τ.origin ∧ τ'.performed = τ.performed) :
    Change s e ⟨s.cells,s.tasks.set i τ'⟩

theorem step_change (s : Server S A Id Suite F) (e : Event S A Id Suite F) :
    Change f max s e (step f max s e) := by
  cases e with
  | arrive x => exact .arrive x
  | perform i =>
    rw [step]
    split
    · exact .skip _ rfl
    · rename_i τ hi
      split
      · exact .skip _ rfl
      · rename_i a rest hpending
        exact .perform i τ a rest hi hpending
  | send i =>
    rw [step, Server.change]
    split
    · exact .skip _ rfl
    · rename_i τ hi
      exact .move _ i τ τ.send rfl hi (send_reached τ) (send_kept τ)
  | redirect i location asGet dropBody =>
    rw [step, Server.change]
    split
    · exact .skip _ rfl
    · rename_i τ hi
      exact .move _ i τ _ rfl hi (redirect_reached τ location asGet dropBody)
        (redirect_kept τ location asGet dropBody)
  | reply i reply secs =>
    rw [step, Server.change]
    split
    · exact .skip _ rfl
    · rename_i τ hi
      exact .move _ i τ _ rfl hi (reply_reached τ reply secs) (reply_kept τ reply secs)

variable {f max}

theorem step_reached (s : Server S A Id Suite F) (e : Event S A Id Suite F)
    (h : ∀ τ ∈ s.tasks, Reached f max τ) : ∀ τ ∈ (step f max s e).tasks, Reached f max τ := by
  have hchange := step_change f max s e
  generalize step f max s e = s' at hchange ⊢
  intro τ hτ
  cases hchange with
  | skip e he => exact h τ hτ
  | arrive x =>
    rcases List.mem_append.mp hτ with hτ | hτ
    · exact h τ hτ
    · rw [List.mem_singleton.mp hτ]
      exact begin_reached f max x
  | perform i τ₀ a rest hi hpending =>
    rcases List.mem_or_eq_of_mem_set hτ with hτ | rfl
    · exact h τ hτ
    · exact perform_reached τ₀ a rest (h τ₀ (List.mem_of_getElem? hi)) hpending
  | move e i τ₀ τ₁ he hi hreached hkept =>
    rcases List.mem_or_eq_of_mem_set hτ with hτ | rfl
    · exact h τ hτ
    · exact hreached (h τ₀ (List.mem_of_getElem? hi))

theorem served_reached (es : List (Event S A Id Suite F)) :
    ∀ τ ∈ (served f max es).tasks, Reached f max τ :=
  run_invariant (step f max) (fun s => ∀ τ ∈ s.tasks, Reached f max τ) step_reached idle
    (by simp [idle]) es

/-! ## What reaches an upstream -/

theorem set_origin (tasks : List (Task S A Id Suite F)) (i : ℕ) (τ τ' : Task S A Id Suite F)
    (hi : tasks[i]? = some τ) (h : τ'.origin = τ.origin) :
    (tasks.set i τ').map Task.origin = tasks.map Task.origin := by
  obtain ⟨hlt,rfl⟩ := List.getElem?_eq_some_iff.mp hi
  have hself := @List.set_getElem_self _ (tasks.map Task.origin) i (by simpa using hlt)
  rw [List.map_set, h]
  simpa using hself

theorem step_origins (s : Server S A Id Suite F) (e : Event S A Id Suite F) :
    (step f max s e).tasks.map Task.origin = s.tasks.map Task.origin++arrivals [e] := by
  have hnone (e : Event S A Id Suite F) (he : e.arrival = none) : arrivals [e] = [] := by
    simp [arrivals, he]
  have hchange := step_change f max s e
  generalize step f max s e = s' at hchange ⊢
  cases hchange with
  | skip e he => rw [hnone e he, List.append_nil]
  | arrive x => simp [arrivals, Event.arrival, begin]
  | perform i τ a rest hi hpending =>
    rw [hnone _ rfl, List.append_nil]
    exact set_origin s.tasks i τ _ hi rfl
  | move e i τ τ' he hi hreached hkept =>
    rw [hnone e he, List.append_nil]
    exact set_origin s.tasks i τ τ' hi hkept.1

theorem served_origins (es : List (Event S A Id Suite F)) :
    (served f max es).tasks.map Task.origin = arrivals es := by
  induction es using List.reverseRecOn with
  | nil => rfl
  | append_singleton es e ih =>
    have hsplit : arrivals (es++[e]) = arrivals es++arrivals [e] := List.filterMap_append
    rw [served, run_concat, step_origins, hsplit, ← ih]
    rfl

def Authorised (max : ℕ) (x : Arrival S A Id Suite) (o : Outbound) : Prop :=
  endpoint x = .proxy ∧ ∃ req session, fromRequest x.attestation max x.req = .ok req ∧
    proxyHandler x.table max req = .outbound session o.method o.url o.body

theorem opening_forwarding (x : Arrival S A Id Suite) (o : Outbound) (adds : List Increment)
    (h : opening max x = (.forwarding o,adds)) :
    Authorised max x o ∧ adds = incUpstreamRequests := by
  rw [opening] at h
  split at h <;> try cases h
  · split at h <;> cases h
  · rename_i hend
    split at h
    · cases h
    · rename_i req hreq
      split at h
      · cases h
      · rename_i session method url body hout
        cases h
        exact ⟨⟨hend,req,session,hreq,hout⟩,rfl⟩

/-- An attested upgrade was granted: its session is known and alive, and the
place that is dialled is the one of the route selected for it. -/
def Granted (x : Arrival S A Id Suite) (u : Upgrade Id A) : Prop :=
  ∃ req, endpoint x = .upgrade req ∧ req.baseId.bind x.protocol.parseAtbId = some u.session ∧
    (∃ session, x.registry u.session = some session ∧ session.alive = true) ∧
    ∃ route, x.table.select req.host req.path = some route ∧
      buildUpstreamWsUrl route.upstream req.path req.query = .ok u.upstreamUrl

theorem opening_upgraded (x : Arrival S A Id Suite) (u : Upgrade Id A) (adds : List Increment)
    (h : opening max x = (.answering (.upgraded u),adds)) : Granted x u := by
  rw [opening] at h
  split at h <;> try cases h
  · rename_i req hend
    split at h
    · rename_i u' hok
      cases h
      obtain ⟨hid,_,_,_,_,hroute⟩ := upgrade_ok _ _ _ _ _ hok
      exact ⟨req,hend,hid,upgrade_alive _ _ _ _ _ hok,hroute⟩
    · cases h
  · split at h
    · cases h
    · split at h <;> cases h

/-- What a task may have done towards an upstream. One request at most is handed
to the HTTP client, an authorised one, and from then on the answer is sealed.
What else leaves are the redirects which that client follows, and the
connection of a granted upgrade. -/
structure Forwarding (max : ℕ) (τ : Task S A Id Suite F) : Prop where
  once : τ.sent.length ≤ 1
  authorised : ∀ o ∈ τ.sent, Authorised max τ.origin o
  followed : τ.hops ≠ [] → ∃ o, τ.sent = [o] ∧ Followed o τ.hops
  answered : τ.sent ≠ [] → ∀ a, τ.stage = .answering a →
    ∃ reply secs, τ.replied = some (reply,secs) ∧ a = .sealed (relay max reply)
  dialled : ∀ u, τ.stage = .answering (.upgraded u) → τ.sent = [] ∧ Granted τ.origin u

theorem reached_forwarding (τ : Task S A Id Suite F) (h : Reached f max τ) : Forwarding max τ := by
  cases h with
  | direct x b performed pending h =>
    refine ⟨by simp,by simp,by simp,by simp,?_⟩
    rintro u hu
    cases hu
    exact ⟨rfl,opening_upgraded x u _ h⟩
  | forwarding x o performed pending h => exact ⟨by simp,by simp,by simp,by simp,by simp⟩
  | awaiting x o hops performed h hhops =>
    refine ⟨by simp,?_,fun _ => ⟨o,rfl,hhops⟩,by simp,by simp⟩
    intro o' ho
    rw [List.mem_singleton.mp ho]
    exact (opening_forwarding x o performed h).1
  | replied x o hops reply secs first performed pending h hhops hsplit =>
    refine ⟨by simp,?_,fun _ => ⟨o,rfl,hhops⟩,?_,by simp⟩
    · intro o' ho
      rw [List.mem_singleton.mp ho]
      exact (opening_forwarding x o first h).1
    · rintro _ a ha
      cases ha
      exact ⟨reply,secs,rfl,rfl⟩

/-- In every interleaving there is one task for each request that arrived. It
hands a request to the HTTP client at most once and only after it was
authenticated, and from then on its answer is sealed: an answer in clear means
that no request went out. Redirects are followed up to their number and carry
no other body, and a WebSocket is dialled for a granted upgrade only. -/
theorem forwarded_once_and_sealed (es : List (Event S A Id Suite F)) :
    (served f max es).tasks.map Task.origin = arrivals es ∧
      ∀ τ ∈ (served f max es).tasks, Forwarding max τ :=
  ⟨served_origins es,fun τ hτ => reached_forwarding τ (served_reached es τ hτ)⟩

/-! ## What the metrics say -/

/-- The calls of the HTTP client; the redirects it follows are not counted. -/
def sentTotal (s : Server S A Id Suite F) : ℕ := sumOver (fun τ => τ.sent.length) s.tasks

def countTasks (p : Task S A Id Suite F → Bool) (s : Server S A Id Suite F) : ℕ :=
  sumOver (fun τ => if p τ then 1 else 0) s.tasks

def Task.unsettled (τ : Task S A Id Suite F) : Bool := !τ.pending.isEmpty

def handshakeCounted (x : Arrival S A Id Suite) : Bool := endpoint x = .base && handshakeServed x

def decryptFailureCounted (max : ℕ) (x : Arrival S A Id Suite) : Bool :=
  endpoint x = .proxy && decryptFails x.attestation max x.req

def Task.failed (τ : Task S A Id Suite F) : Bool :=
  match τ.replied with
  | some (.failed _,_) => true
  | _ => false

def Task.within (f : Seconds F) (i : Fin buckets) (τ : Task S A Id Suite F) : Bool :=
  match τ.replied with
  | some (_,secs) => f.atMost secs i
  | none => false

def directIncrements (max : ℕ) (x : Arrival S A Id Suite) : List Increment :=
  (if handshakeCounted x then incHandshakes else [])++
    (if decryptFailureCounted max x then incDecryptFailures else [])

theorem decryptFails_of_ok (t : Attestation S A) (req : TrustedRequest.Request)
    (d : DecryptedRequest S) (h : fromRequest t max req = .ok d) :
    decryptFails t max req = false := by
  cases hsession : t.openSession req.head.headers with
  | error r => simp [decryptFails, hsession]
  | ok session =>
    cases hticket : readTicket t req.head.headers with
    | error r => simp [decryptFails, hsession, hticket]
    | ok ticket =>
      cases henvelope : readEnvelope t max req.body with
      | error r => simp [decryptFails, hsession, hticket, henvelope]
      | ok ciphertext =>
        by_cases hauth : isEmpty (clientAuthority req.head) = true
        · simp [decryptFails, hsession, hticket, henvelope, hauth]
        · cases hkeys : t.withKeysForTrr session.session ticket.nonce with
          | error e => simp [fromRequest, hsession, hticket, henvelope, hauth, hkeys] at h
          | ok keys =>
            cases hopen : openTrusted t session.aad keys ticket req.head ciphertext with
            | error r => simp [fromRequest, hsession, hticket, henvelope, hauth, hkeys, hopen] at h
            | ok body =>
              simp [decryptFails, hsession, hticket, henvelope, hauth, hkeys, hopen]

theorem directIncrements_eq_nil (x : Arrival S A Id Suite) (hbase : endpoint x ≠ .base)
    (hproxy : endpoint x ≠ .proxy) : directIncrements max x = [] := by
  simp [directIncrements, handshakeCounted, decryptFailureCounted, hbase, hproxy]

theorem opening_answering (x : Arrival S A Id Suite) (a : Answer Id A) (adds : List Increment)
    (h : opening max x = (.answering a,adds)) : adds = directIncrements max x := by
  have hother (hbase : endpoint x ≠ .base) (hproxy : endpoint x ≠ .proxy) (hnil : [] = adds) :
      adds = directIncrements max x := by
    rw [directIncrements_eq_nil x hbase hproxy, hnil]
  cases hend : endpoint x with
  | upgrade req =>
    simp only [opening, hend] at h
    refine hother (by simp [hend]) (by simp [hend]) ?_
    split at h <;> exact (Prod.mk.inj h).2
  | base =>
    simp only [opening, hend, Prod.mk.injEq] at h
    simp [directIncrements, handshakeCounted, decryptFailureCounted, hend, ← h.2]
  | proxy =>
    simp only [opening, hend] at h
    have hdirect : directIncrements max x =
        if decryptFails x.attestation max x.req then incDecryptFailures else [] := by
      simp [directIncrements, handshakeCounted, decryptFailureCounted, hend]
    split at h
    · rw [hdirect, (Prod.mk.inj h).2]
    · rename_i req hreq
      rw [hdirect, decryptFails_of_ok x.attestation x.req req hreq]
      split at h
      · exact (Prod.mk.inj h).2.symm
      · cases h
  | healthz | readyz | metrics | methodNotAllowed | notFound =>
    simp only [opening, hend, Prod.mk.injEq] at h
    exact hother (by simp [hend]) (by simp [hend]) h.2

theorem uncounted_of_authorised (x : Arrival S A Id Suite) (o : Outbound)
    (h : Authorised max x o) :
    handshakeCounted x = false ∧ decryptFailureCounted max x = false := by
  obtain ⟨hend,req,_,hreq,_⟩ := h
  simp [handshakeCounted, decryptFailureCounted, hend,
    decryptFails_of_ok x.attestation x.req req hreq]

/-! ### The increments of one task -/

theorem total_replyIncrements_count (reply : UpstreamReply) (secs : F) :
    total .latencyCount (replyIncrements f reply secs) = 1 := by
  rw [replyIncrements, observeUpstreamLatency, total_append, total_append,
    total_bucketIncrements_other f secs _ (by simp)]
  cases reply <;> simp [total, sumOver, errorIncrements, incUpstreamErrors]

theorem total_replyIncrements_bucket (reply : UpstreamReply) (secs : F) (i : Fin buckets) :
    total (.latencyBucket i) (replyIncrements f reply secs) = if f.atMost secs i then 1 else 0 := by
  rw [replyIncrements, observeUpstreamLatency, total_append, total_append,
    total_bucketIncrements]
  cases reply <;> simp [total, sumOver, errorIncrements, incUpstreamErrors]

theorem total_replyIncrements_errors (reply : UpstreamReply) (secs : F) :
    total .upstreamErrorsTotal (replyIncrements f reply secs) =
      match reply with
      | .failed _ => 1
      | .response _ => 0 := by
  rw [replyIncrements, observeUpstreamLatency, total_append, total_append,
    total_bucketIncrements_other f secs _ (by simp)]
  cases reply <;> simp [total, sumOver, errorIncrements, incUpstreamErrors]

theorem total_replyIncrements_other (reply : UpstreamReply) (secs : F) (c : Cell)
    (h : c = .handshakesTotal ∨ c = .decryptFailuresTotal ∨ c = .upstreamRequestsTotal) :
    total c (replyIncrements f reply secs) = 0 := by
  rw [replyIncrements, observeUpstreamLatency, total_append, total_append,
    total_bucketIncrements_other f secs c (by rcases h with rfl | rfl | rfl <;> simp)]
  rcases h with rfl | rfl | rfl <;> cases reply <;>
    simp [total, sumOver, errorIncrements, incUpstreamErrors]

/-- The error counter comes last: as long as an increment is pending, it has
not been touched. -/
theorem errors_pending (reply : UpstreamReply) (secs : F) (performed : List Increment)
    (a : Increment) (rest : List Increment)
    (h : replyIncrements f reply secs = performed++a::rest) :
    total .upstreamErrorsTotal performed = 0 := by
  have hobserved : ∀ b ∈ observeUpstreamLatency f secs, b.1 ≠ .upstreamErrorsTotal := by
    intro b hb
    rcases List.mem_append.mp hb with hb | hb
    · obtain ⟨i,rfl⟩ := mem_bucketIncrements f secs b hb
      simp
    · rcases List.mem_pair.mp hb with rfl | rfl <;> simp
  refine total_eq_zero _ _ fun b hb => hobserved b ?_
  cases reply with
  | response r =>
    rw [replyIncrements, errorIncrements, List.append_nil] at h
    rw [h]
    exact List.mem_append_left _ hb
  | failed isTimeout =>
    have hinit := congrArg List.dropLast h
    rw [replyIncrements, errorIncrements, incUpstreamErrors, List.dropLast_concat,
      List.dropLast_append_cons] at hinit
    rw [hinit]
    exact List.mem_append_left _ hb

structure Ordered (f : Seconds F) (τ : Task S A Id Suite F) : Prop where
  errors : total .upstreamErrorsTotal τ.performed ≤ total .latencyCount τ.performed
  observed : total .latencyCount τ.performed ≤ τ.sent.length
  sent : τ.sent.length ≤ total .upstreamRequestsTotal τ.performed
  cumulative : ∀ i j, i ≤ j → total (.latencyBucket i) τ.performed ≤
    total (.latencyBucket j) τ.performed+if τ.unsettled then 1 else 0
  counted : ∀ i, total (.latencyBucket i) τ.performed ≤
    total .latencyCount τ.performed+if τ.unsettled then 1 else 0

theorem ordered_of_zero (τ : Task S A Id Suite F) (hsent : τ.sent = [])
    (h : ∀ c, c = .upstreamErrorsTotal ∨ c = .latencyCount ∨ (∃ i, c = .latencyBucket i) →
      total c τ.performed = 0) : Ordered f τ := by
  have hcount := h .latencyCount (by simp)
  refine ⟨?_,?_,?_,?_,?_⟩
  · rw [h .upstreamErrorsTotal (by simp)]
    exact Nat.zero_le _
  · rw [hcount]
    exact Nat.zero_le _
  · rw [hsent]
    exact Nat.zero_le _
  · intro i j _
    rw [h (.latencyBucket i) (by simp)]
    exact Nat.zero_le _
  · intro i
    rw [h (.latencyBucket i) (by simp)]
    exact Nat.zero_le _

theorem total_performed_le (c : Cell) (adds performed pending : List Increment)
    (h : adds = performed++pending) : total c performed ≤ total c adds := by
  rw [h, total_append]
  exact Nat.le_add_right _ _

theorem total_incUpstreamRequests (c : Cell) :
    total c incUpstreamRequests = if c = .upstreamRequestsTotal then 1 else 0 := by
  by_cases h : c = .upstreamRequestsTotal
  · subst h
    rfl
  · rw [if_neg h]
    exact total_eq_zero _ _ (by simpa [incUpstreamRequests] using Ne.symm h)

theorem total_directIncrements (c : Cell) (x : Arrival S A Id Suite) :
    total c (directIncrements max x) =
      (if c = .handshakesTotal ∧ handshakeCounted x then 1 else 0)+
        (if c = .decryptFailuresTotal ∧ decryptFailureCounted max x then 1 else 0) := by
  rw [directIncrements, total_append]
  cases handshakeCounted x <;> cases decryptFailureCounted max x <;>
    simp [total, sumOver, incHandshakes, incDecryptFailures, eq_comm]

theorem replied_ordered (x : Arrival S A Id Suite) (o : Outbound) (hops : List Outbound)
    (reply : UpstreamReply) (secs : F) (performed pending : List Increment)
    (hsplit : replyIncrements f reply secs = performed++pending) :
    Ordered f (⟨x,.answering (.sealed (relay max reply)),incUpstreamRequests++performed,pending,[o],
      hops,some (reply,secs)⟩ : Task S A Id Suite F) := by
  have hfirst (c : Cell) (hc : c ≠ .upstreamRequestsTotal) :
      total c (incUpstreamRequests++performed) = total c performed := by
    rw [total_append, total_incUpstreamRequests, if_neg hc, Nat.zero_add]
  have herrors := hfirst .upstreamErrorsTotal (by simp)
  have hcount := hfirst .latencyCount (by simp)
  have hbucket (i : Fin buckets) := hfirst (.latencyBucket i) (by simp)
  have hrequests : 1 ≤ total .upstreamRequestsTotal (incUpstreamRequests++performed) := by
    rw [total_append, total_incUpstreamRequests, if_pos rfl]
    exact Nat.le_add_right _ _
  have hcountle := total_performed_le .latencyCount _ _ _ hsplit
  rw [total_replyIncrements_count] at hcountle
  cases pending with
  | nil =>
    rw [List.append_nil] at hsplit
    subst hsplit
    rw [total_replyIncrements_errors] at herrors
    rw [total_replyIncrements_count] at hcount
    simp only [total_replyIncrements_bucket] at hbucket
    refine ⟨?_,by simp [hcount],hrequests,?_,?_⟩
    · simp only [herrors, hcount]
      split <;> omega
    · intro i j hij
      simp only [hbucket]
      cases hi : f.atMost secs i with
      | false => simp
      | true => simp [f.ascending secs i j hij hi]
    · intro i
      simp only [hbucket, hcount]
      split <;> omega
  | cons a rest =>
    have hone (i : Fin buckets) : total (.latencyBucket i) performed ≤ 1 := by
      have hle := total_performed_le (.latencyBucket i) _ _ _ hsplit
      rw [total_replyIncrements_bucket] at hle
      refine le_trans hle ?_
      split <;> omega
    refine ⟨?_,by simpa [hcount] using hcountle,hrequests,?_,?_⟩
    · simp only [herrors, errors_pending reply secs performed a rest hsplit]
      exact Nat.zero_le _
    · intro i j _
      have hi := hone i
      simp only [hbucket, Task.unsettled, List.isEmpty_cons, Bool.not_false, if_true]
      omega
    · intro i
      have hi := hone i
      simp only [hbucket, Task.unsettled, List.isEmpty_cons, Bool.not_false, if_true]
      omega

theorem reached_ordered (τ : Task S A Id Suite F) (h : Reached f max τ) : Ordered f τ := by
  cases h with
  | direct x a performed pending h =>
    refine ordered_of_zero _ rfl fun c hc => ?_
    have hle := total_performed_le c _ _ _ (opening_answering x a _ h).symm
    rw [total_directIncrements, if_neg (by rcases hc with rfl | rfl | ⟨i,rfl⟩ <;> simp),
      if_neg (by rcases hc with rfl | rfl | ⟨i,rfl⟩ <;> simp)] at hle
    exact Nat.le_zero.mp hle
  | forwarding x o performed pending h =>
    refine ordered_of_zero _ rfl fun c hc => ?_
    have hle := total_performed_le c _ _ _ (opening_forwarding x o _ h).2.symm
    rw [total_incUpstreamRequests, if_neg (by rcases hc with rfl | rfl | ⟨i,rfl⟩ <;> simp)] at hle
    exact Nat.le_zero.mp hle
  | awaiting x o hops performed h hhops =>
    obtain ⟨_,rfl⟩ := opening_forwarding x o performed h
    have hzero (c : Cell) (hc : c ≠ .upstreamRequestsTotal) : total c incUpstreamRequests = 0 := by
      rw [total_incUpstreamRequests, if_neg hc]
    refine ⟨?_,?_,?_,?_,?_⟩
    · simp only [hzero .upstreamErrorsTotal (by simp), Nat.zero_le]
    · simp only [hzero .latencyCount (by simp), Nat.zero_le]
    · rw [total_incUpstreamRequests, if_pos rfl]
      rfl
    · intro i j _
      simp only [hzero (.latencyBucket i) (by simp), Nat.zero_le]
    · intro i
      simp only [hzero (.latencyBucket i) (by simp), Nat.zero_le]
  | replied x o hops reply secs first performed pending h hhops hsplit =>
    obtain ⟨_,rfl⟩ := opening_forwarding x o first h
    exact replied_ordered x o hops reply secs performed pending hsplit

def Task.finished (τ : Task S A Id Suite F) : Prop := τ.pending = [] ∧ ∃ a, τ.stage = .answering a

structure Complete (f : Seconds F) (max : ℕ) (τ : Task S A Id Suite F) : Prop where
  handshakes : total .handshakesTotal τ.performed = if handshakeCounted τ.origin then 1 else 0
  decryptFailures : total .decryptFailuresTotal τ.performed =
    if decryptFailureCounted max τ.origin then 1 else 0
  requests : total .upstreamRequestsTotal τ.performed = τ.sent.length
  errors : total .upstreamErrorsTotal τ.performed = if τ.failed then 1 else 0
  observed : total .latencyCount τ.performed = τ.sent.length
  bucket : ∀ i, total (.latencyBucket i) τ.performed = if τ.within f i then 1 else 0

theorem finished_complete (τ : Task S A Id Suite F) (h : Reached f max τ) (hdone : τ.finished) :
    Complete f max τ := by
  obtain ⟨hpending,a,hstage⟩ := hdone
  cases h with
  | direct x b performed pending h =>
    cases hpending
    obtain rfl : performed = directIncrements max x := by
      simpa using opening_answering x b _ h
    refine ⟨?_,?_,?_,?_,?_,?_⟩ <;> try intro i
    all_goals simp [total_directIncrements, Task.failed, Task.within]
  | forwarding x o performed pending h => cases hstage
  | awaiting x o hops performed h hhops => cases hstage
  | replied x o hops reply secs first performed pending h hhops hsplit =>
    cases hpending
    rw [List.append_nil] at hsplit
    subst hsplit
    obtain ⟨hauthorised,rfl⟩ := opening_forwarding x o first h
    obtain ⟨hhandshake,hdecrypt⟩ := uncounted_of_authorised x o hauthorised
    refine ⟨?_,?_,?_,?_,?_,?_⟩
    · rw [total_append, total_incUpstreamRequests, total_replyIncrements_other _ _ _ (by simp)]
      simp [hhandshake]
    · rw [total_append, total_incUpstreamRequests, total_replyIncrements_other _ _ _ (by simp)]
      simp [hdecrypt]
    · rw [total_append, total_incUpstreamRequests, total_replyIncrements_other _ _ _ (by simp)]
      rfl
    · rw [total_append, total_incUpstreamRequests, total_replyIncrements_errors]
      cases reply <;> rfl
    · rw [total_append, total_incUpstreamRequests, total_replyIncrements_count]
      rfl
    · intro i
      rw [total_append, total_incUpstreamRequests, total_replyIncrements_bucket, if_neg (by simp),
        Nat.zero_add]
      rfl

/-! ### The cells -/

def counted (c : Cell) (s : Server S A Id Suite F) : ℕ :=
  sumOver (fun τ => total c τ.performed) s.tasks

theorem pending_amount (τ : Task S A Id Suite F) (h : Reached f max τ) (a : Increment)
    (ha : a ∈ τ.pending) : a.1 = .latencySumMicros ∨ a.2 = 1 := by
  cases h with
  | direct x b performed pending h =>
    have hmem : a ∈ directIncrements max x := by
      rw [← opening_answering x b _ h]
      exact List.mem_append_right _ ha
    rw [directIncrements] at hmem
    rcases List.mem_append.mp hmem with hmem | hmem <;> split at hmem <;>
      simp_all [incHandshakes, incDecryptFailures]
  | forwarding x o performed pending h =>
    have hmem : a ∈ incUpstreamRequests := by
      rw [← (opening_forwarding x o _ h).2]
      exact List.mem_append_right _ ha
    rw [List.mem_singleton.mp hmem]
    exact Or.inr rfl
  | awaiting x o hops performed h hhops => cases ha
  | replied x o hops reply secs first performed pending h hhops hsplit =>
    have hmem : a ∈ replyIncrements f reply secs := by
      rw [hsplit]
      exact List.mem_append_right _ ha
    rcases List.mem_append.mp hmem with hmem | hmem
    · rcases List.mem_append.mp hmem with hmem | hmem
      · obtain ⟨i,rfl⟩ := mem_bucketIncrements f secs a hmem
        exact Or.inr rfl
      · rcases List.mem_pair.mp hmem with rfl | rfl
        · exact Or.inr rfl
        · exact Or.inl rfl
    · cases reply with
      | response r => cases hmem
      | failed isTimeout =>
        rw [List.mem_singleton.mp hmem]
        exact Or.inr rfl

theorem step_added (s : Server S A Id Suite F) (e : Event S A Id Suite F) (c : Cell)
    (hreached : ∀ τ ∈ s.tasks, Reached f max τ) :
    ∃ n, counted c (step f max s e) = counted c s+n ∧ (c ≠ .latencySumMicros → n ≤ 1) ∧
      (s.cells c = counted c s % 2^64 →
        (step f max s e).cells c = counted c (step f max s e) % 2^64) := by
  have hchange := step_change f max s e
  generalize step f max s e = s' at hchange ⊢
  cases hchange with
  | skip e he => exact ⟨0,rfl,fun _ => Nat.zero_le 1,id⟩
  | arrive x =>
    have hsame : counted c (⟨s.cells,s.tasks++[begin max x]⟩ : Server S A Id Suite F) =
        counted c s := by
      rw [counted, sumOver_append]
      rfl
    rw [hsame]
    exact ⟨0,rfl,fun _ => Nat.zero_le 1,id⟩
  | perform i τ a rest hi hpending =>
    have hset := sumOver_set (fun τ => total c τ.performed) s.tasks i τ
      { τ with performed := τ.performed++[a], pending := rest } hi
    have hone : total c (τ.performed++[a]) = total c τ.performed+if a.1 = c then a.2 else 0 := by
      rw [total_append]
      simp [total, sumOver]
    have hsum : counted c (⟨fetchAdd s.cells a,s.tasks.set i
        { τ with performed := τ.performed++[a], pending := rest }⟩ : Server S A Id Suite F) =
          counted c s+if a.1 = c then a.2 else 0 := by
      simp only [hone] at hset
      simp only [counted]
      omega
    rw [hsum]
    by_cases hc : a.1 = c
    · subst hc
      refine ⟨_,rfl,?_,fun hcells => by simp [fetchAdd, hcells]⟩
      intro hne
      have hamount := (pending_amount τ (hreached τ (List.mem_of_getElem? hi)) a
        (by simp [hpending])).resolve_left hne
      simp [hamount]
    · rw [if_neg hc]
      refine ⟨0,rfl,fun _ => Nat.zero_le 1,fun hcells => ?_⟩
      simp only [fetchAdd]
      rw [Function.update_of_ne (Ne.symm hc)]
      exact hcells
  | move e i τ τ' he hi hnext hkept =>
    have hset := sumOver_set (fun τ => total c τ.performed) s.tasks i τ τ' hi
    have hsame : counted c (⟨s.cells,s.tasks.set i τ'⟩ : Server S A Id Suite F) = counted c s := by
      simp only [hkept.2] at hset
      simp only [counted]
      omega
    rw [hsame]
    exact ⟨0,rfl,fun _ => Nat.zero_le 1,id⟩

variable (f max) in
theorem served_counted (es : List (Event S A Id Suite F)) (c : Cell) :
    (served f max es).cells c = counted c (served f max es) % 2^64 ∧
      (c ≠ .latencySumMicros → counted c (served f max es) ≤ es.length) := by
  induction es using List.reverseRecOn with
  | nil => exact ⟨rfl,fun _ => Nat.le_refl 0⟩
  | append_singleton es e ih =>
    obtain ⟨n,hn,hle,hcells⟩ := step_added (served f max es) e c (served_reached es)
    rw [served, run_concat]
    refine ⟨hcells ih.1,?_⟩
    intro hc
    have hcount := ih.2 hc
    have hone := hle hc
    show counted c (step f max (served f max es) e) ≤ _
    rw [hn, List.length_append, List.length_singleton]
    omega

variable (f max) in
theorem counted_le_append (es fs : List (Event S A Id Suite F)) (c : Cell) :
    counted c (served f max es) ≤ counted c (served f max (es++fs)) := by
  induction fs using List.reverseRecOn with
  | nil => rw [List.append_nil]
  | append_singleton fs e ih =>
    obtain ⟨n,hn,-⟩ := step_added (served f max (es++fs)) e c (served_reached (es++fs))
    have hstep : served f max (es++(fs++[e])) = step f max (served f max (es++fs)) e := by
      rw [← List.append_assoc, served, run_concat]
      rfl
    rw [hstep, hn]
    omega

variable (f max) in
/-- Before the counters can wrap, a cell shows what was added to it. -/
theorem cell_eq_counted (es : List (Event S A Id Suite F)) (hes : es.length < 2^64) (c : Cell)
    (hc : c ≠ .latencySumMicros) : (served f max es).cells c = counted c (served f max es) := by
  obtain ⟨hcells,hle⟩ := served_counted f max es c
  rw [hcells]
  exact Nat.mod_eq_of_lt (lt_of_le_of_lt (hle hc) hes)

structure Consistent (s : Server S A Id Suite F) : Prop where
  errors : s.cells .upstreamErrorsTotal ≤ s.cells .latencyCount
  observed : s.cells .latencyCount ≤ sentTotal s
  sent : sentTotal s ≤ s.cells .upstreamRequestsTotal
  cumulative : ∀ i j, i ≤ j → s.cells (.latencyBucket i) ≤
    s.cells (.latencyBucket j)+countTasks Task.unsettled s
  counted : ∀ i, s.cells (.latencyBucket i) ≤
    s.cells .latencyCount+countTasks Task.unsettled s

structure Exact (f : Seconds F) (max : ℕ) (s : Server S A Id Suite F) : Prop where
  handshakes : s.cells .handshakesTotal = countTasks (fun τ => handshakeCounted τ.origin) s
  decryptFailures : s.cells .decryptFailuresTotal =
    countTasks (fun τ => decryptFailureCounted max τ.origin) s
  requests : s.cells .upstreamRequestsTotal = sentTotal s
  errors : s.cells .upstreamErrorsTotal = countTasks Task.failed s
  observed : s.cells .latencyCount = sentTotal s
  bucket : ∀ i, s.cells (.latencyBucket i) = countTasks (Task.within f i) s

theorem served_consistent (es : List (Event S A Id Suite F)) (hes : es.length < 2^64) :
    Consistent (served f max es) := by
  have hordered (τ : Task S A Id Suite F) (hτ : τ ∈ (served f max es).tasks) :=
    reached_ordered τ (served_reached es τ hτ)
  have herrors := cell_eq_counted f max es hes .upstreamErrorsTotal (by simp)
  have hcount := cell_eq_counted f max es hes .latencyCount (by simp)
  have hrequests := cell_eq_counted f max es hes .upstreamRequestsTotal (by simp)
  have hbucket (i : Fin buckets) :=
    cell_eq_counted f max es hes (.latencyBucket i) (by simp)
  refine ⟨?_,?_,?_,?_,?_⟩
  · rw [herrors, hcount]
    exact sumOver_le _ _ _ (fun τ hτ => (hordered τ hτ).errors)
  · rw [hcount]
    exact sumOver_le _ _ _ (fun τ hτ => (hordered τ hτ).observed)
  · rw [hrequests]
    exact sumOver_le _ _ _ (fun τ hτ => (hordered τ hτ).sent)
  · intro i j hij
    rw [hbucket, hbucket, counted, counted, countTasks, ← sumOver_add]
    exact sumOver_le _ _ _ (fun τ hτ => (hordered τ hτ).cumulative i j hij)
  · intro i
    rw [hbucket, hcount, counted, counted, countTasks, ← sumOver_add]
    exact sumOver_le _ _ _ (fun τ hτ => (hordered τ hτ).counted i)

theorem served_exact (es : List (Event S A Id Suite F)) (hes : es.length < 2^64)
    (hdone : ∀ τ ∈ (served f max es).tasks, τ.finished) : Exact f max (served f max es) := by
  have hcomplete (τ : Task S A Id Suite F) (hτ : τ ∈ (served f max es).tasks) :=
    finished_complete τ (served_reached es τ hτ) (hdone τ hτ)
  have hcell (c : Cell) (hc : c ≠ .latencySumMicros) :=
    cell_eq_counted f max es hes c hc
  refine ⟨?_,?_,?_,?_,?_,?_⟩
  · rw [hcell _ (by simp)]
    exact sumOver_congr _ _ _ (fun τ hτ => (hcomplete τ hτ).handshakes)
  · rw [hcell _ (by simp)]
    exact sumOver_congr _ _ _ (fun τ hτ => (hcomplete τ hτ).decryptFailures)
  · rw [hcell _ (by simp)]
    exact sumOver_congr _ _ _ (fun τ hτ => (hcomplete τ hτ).requests)
  · rw [hcell _ (by simp)]
    exact sumOver_congr _ _ _ (fun τ hτ => (hcomplete τ hτ).errors)
  · rw [hcell _ (by simp)]
    exact sumOver_congr _ _ _ (fun τ hτ => (hcomplete τ hτ).observed)
  · intro i
    rw [hcell _ (by simp)]
    exact sumOver_congr _ _ _ (fun τ hτ => (hcomplete τ hτ).bucket i)

/-- The counters agree with each other in every interleaving of the increments in
one order, up to those still pending, and are exact once all tasks are finished.
A request sent is a call of the HTTP client, whatever redirects it follows. -/
theorem metrics_consistent_and_exact (es : List (Event S A Id Suite F)) (hes : es.length < 2^64) :
    Consistent (served f max es) ∧
      ((∀ τ ∈ (served f max es).tasks, τ.finished) → Exact f max (served f max es)) :=
  ⟨served_consistent es hes,served_exact es hes⟩

def wholeSeconds : Seconds ℕ where
  atMost secs i := secs ≤ i.val
  micros secs := secs*1000000
  ascending secs i j hij h := by
    have hi : secs ≤ i.val := by simpa using h
    exact decide_eq_true (le_trans hi hij)

def soleArrival : Arrival Unit Unit Unit Unit where
  attestation := soleRequest
  protocol := ⟨soleRequest.aead,fun _ => none,fun _ => "","attest-base-id",fun _ => ()⟩
  registry := fun _ => none
  table := RouteTable.new [⟨"all","","","http://up:80",none,.file⟩]
  websocketUpgrade := fun _ => true
  baseRoute := fun path => path = "/attest"
  baseStatus := 200
  req := sentRequest

def movedReply : UpstreamReply := .response ⟨200,⟨[],List.forall_mem_nil _⟩,none,[.ok [7]]⟩

/-- Two requests at a time. The upstream of the first does not answer within
twenty seconds; the second is redirected once and answered after nine. -/
def timedOutRun : List (Event Unit Unit Unit Unit ℕ) :=
  [.arrive soleArrival,.arrive soleArrival,.perform 1,.perform 0,.send 0,.send 1,
    .redirect 1 "http://moved:80/" false false,.reply 1 movedReply 9,.perform 1,
    .reply 0 (.failed true) 20,.perform 0,.perform 1,.perform 0,.perform 1,.perform 0,.perform 1]

theorem timed_out_request_counted :
    Consistent (served wholeSeconds 10 timedOutRun) ∧
      Exact wholeSeconds 10 (served wholeSeconds 10 timedOutRun) := by
  obtain ⟨hconsistent,hexact⟩ := metrics_consistent_and_exact timedOutRun (by decide)
  refine ⟨hconsistent,hexact ?_⟩
  have htasks : (served wholeSeconds 10 timedOutRun).tasks.map
      (fun τ => (τ.pending,τ.stage)) = [([],.answering (.sealed (relay 10 (.failed true)))),
        ([],.answering (.sealed (relay 10 movedReply)))] := by
    rfl
  intro τ hτ
  have hpair := List.mem_map_of_mem (f := fun τ => (τ.pending,τ.stage)) hτ
  rw [htasks, List.mem_pair, Prod.mk.injEq, Prod.mk.injEq] at hpair
  rcases hpair with hpair | hpair
  · exact ⟨hpair.1,_,hpair.2⟩
  · exact ⟨hpair.1,_,hpair.2⟩

end ArchetypeProxy.Serving
