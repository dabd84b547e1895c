import ArchetypeProxy.WsSession

/-!
# What steers an attested WebSocket

The request names host, path and query in the clear, and they choose the
upstream. Pings and pongs are relayed with their payloads. The data messages
written to the upstream come from sealed frames alone: plaintext text, pings
and pongs can be added or removed without a change to them.
-/

set_option autoImplicit false

namespace ArchetypeProxy.WsSteering
open ArchetypeProxy.Text ArchetypeProxy.CounterNonce ArchetypeProxy.Http ArchetypeProxy.OpenHttpa
open ArchetypeProxy.Routes ArchetypeProxy.Runs ArchetypeProxy.Upstream ArchetypeProxy.WsFrames
open ArchetypeProxy.WsUpgrade ArchetypeProxy.WsBridge ArchetypeProxy.WsSession

variable {Id Suite A : Type}

structure Conversation where
  upstreamUrl : String
  effects : List Effect
  deriving DecidableEq

/-- From the request to the end of the bridge, for a request the guard diverts,
the handler accepts and whose upstream answers. -/
def converse (p : Protocol Id Suite A) (websocketUpgrade : RequestHead → Bool)
    (registry : Registry Id Suite) (table : RouteTable) (req : RequestHead) (is : List Input) :
    Option Conversation :=
  match wsDispatch p websocketUpgrade req with
  | none => none
  | some m =>
    match wsUpgradeHandler p registry table m with
    | .error _ => none
    | .ok u =>
      match openBridge p.aead u.keys u.aad with
      | .error _ => none
      | .ok b => some ⟨u.upstreamUrl,outputs (Bridge.step p.aead) b is⟩

def baseIdOf (p : Protocol Id Suite A) (req : RequestHead) : Option String :=
  req.headers.text p.hdrAttestBaseId

def writtenMessage : Effect → Option UpMessage
  | .forwarded _ m => some m
  | .toUpstream m => some m
  | _ => none

def dataMessage : Effect → Option UpMessage
  | .forwarded _ m => some m
  | _ => none

def Conversation.written (c : Conversation) : List UpMessage := c.effects.filterMap writtenMessage

def Conversation.data (c : Conversation) : List UpMessage := c.effects.filterMap dataMessage

/-- The plaintext payloads of a client message are blanked; sealed frames and
everything else stay. -/
def blankPayload : Input → Input
  | .client (.message (.text _)) => .client (.message (.text ""))
  | .client (.message (.ping _)) => .client (.message (.ping []))
  | .client (.message (.pong _)) => .client (.message (.pong []))
  | i => i

/-- Two conversations of one session that differ in the clear parts only dial
the same upstream and write the same messages. -/
def SealedAloneSteers (p : Protocol Id Suite A) (websocketUpgrade : RequestHead → Bool)
    (registry : Registry Id Suite) (table : RouteTable) : Prop :=
  ∀ req req' is is' c c',
    converse p websocketUpgrade registry table req is = some c →
    converse p websocketUpgrade registry table req' is' = some c' →
    baseIdOf p req = baseIdOf p req' → is.map blankPayload = is'.map blankPayload →
    c.upstreamUrl = c'.upstreamUrl ∧ c.written = c'.written

def completeHandshake (req : RequestHead) : Bool :=
  req.method == "GET" && req.headers.text "connection" == some "upgrade" &&
    req.headers.text "upgrade" == some "websocket" &&
    req.headers.text "sec-websocket-version" == some "13" &&
    req.headers.containsKey "sec-websocket-key"

def upgradeHead (path : String) : RequestHead :=
  ⟨"GET",⟨none,path,none⟩,none,[("host",utf8 "h"),("connection",utf8 "upgrade"),
    ("upgrade",utf8 "websocket"),("sec-websocket-version",utf8 "13"),
    ("sec-websocket-key",utf8 "x3JJHMbDL1EzLkh9GBhXDw=="),("attest-base-id",utf8 "7")]⟩

def forkedTable : RouteTable :=
  RouteTable.new [⟨"a","","/a","http://a:80",none,.file⟩,⟨"b","","/b","http://b:80",none,.file⟩]

def sampleFrame : Bytes := (counterNonce sampleIv 1).toList++msgBinary::9::List.replicate 16 0

theorem path_and_ping_steer :
    ¬ SealedAloneSteers (sampleProtocol taggingAead) completeHandshake sampleRegistry
      forkedTable := by
  intro h
  have hc := h (upgradeHead "/a") (upgradeHead "/b")
    [.client (.message (.ping [1]))] [.client (.message (.ping [2]))]
    ⟨"ws://a:80/a",[.toUpstream (.ping [1])]⟩ ⟨"ws://b:80/b",[.toUpstream (.ping [2])]⟩
    (by decide) (by decide) rfl rfl
  exact absurd hc.1 (by decide)

def steers : Input → Bool
  | .client (.message (.text _)) => false
  | .client (.message (.ping _)) => false
  | .client (.message (.pong _)) => false
  | _ => true

def notPlainText : Input → Bool
  | .client (.message (.text _)) => false
  | _ => true

/-- No data will be written any more: the bridge ended or lost its upstream. -/
def Mute (b : Bridge A) : Prop := b.ended.isSome = true ∨ b.upstreamUp = false

theorem data_eq_nil_iff (es : List Effect) :
    es.filterMap dataMessage = [] ↔ es.filterMap forwardedFrame = [] := by
  simp only [List.filterMap_eq_nil_iff]
  refine forall_congr' fun e => forall_congr' fun _ => ?_
  cases e <;> simp [dataMessage, forwardedFrame]

theorem mute_not_accepting (aead : Aead A) (b : Bridge A) (i : Input) (h : Mute b) :
    b.accepts aead i = false := by
  rcases h with h | h
  · simp [Bridge.accepts, Option.isSome_iff_ne_none.mp h]
  · unfold Bridge.accepts Bridge.accepts.acceptable
    split <;> simp [h]

theorem mute_step (aead : Aead A) (b : Bridge A) (i : Input) (h : Mute b) :
    (b.step aead i).2.filterMap dataMessage = [] ∧ Mute (b.step aead i).1 := by
  have ha := mute_not_accepting aead b i h
  constructor
  · rw [data_eq_nil_iff]
    rcases step_cases aead b i with ⟨_,_,hq⟩ | ⟨_,_,hq⟩ | ⟨_,ht,_⟩
    · exact hq.forwarded
    · exact hq.forwarded
    · rw [ha] at ht
      cases ht
  · rcases h with h | h
    · left
      simp [Bridge.step, h]
    · exact Or.inr (step_upstream_down aead b i h)

theorem plain_step (aead : Aead A) (b : Bridge A) (i : Input) (hk : steers i = false) :
    Mute b ∨ ((b.step aead i).1 = b ∧ (b.step aead i).2.filterMap dataMessage = []) := by
  by_cases hm : Mute b
  · exact Or.inl hm
  · right
    obtain ⟨hend,hup⟩ : b.ended.isSome = false ∧ b.upstreamUp = true := by
      simpa [Mute] using hm
    unfold steers at hk
    split at hk <;>
      simp [Bridge.step, hend, Bridge.clientToUpstream, Bridge.sendUpstream, hup,
        dataMessage] at hk ⊢

theorem data_purge (aead : Aead A) (b : Bridge A) (is : List Input) :
    (outputs (Bridge.step aead) b is).filterMap dataMessage =
      (outputs (Bridge.step aead) b (is.filter steers)).filterMap dataMessage :=
  outputs_purge (Bridge.step aead) dataMessage steers Mute (mute_step aead) (plain_step aead) b is

theorem text_purge (aead : Aead A) (b : Bridge A) (is : List Input) :
    outputs (Bridge.step aead) b is = outputs (Bridge.step aead) b (is.filter notPlainText) := by
  have h := outputs_purge (Bridge.step aead) some notPlainText (fun _ => False)
    (fun _ _ hf => hf.elim) (fun b i hk => Or.inr ?_) b is
  · simpa using h
  · unfold notPlainText at hk
    split at hk
    · unfold Bridge.step
      split <;> simp [Bridge.clientToUpstream]
    · cases hk

theorem converse_some (p : Protocol Id Suite A) (websocketUpgrade : RequestHead → Bool)
    (registry : Registry Id Suite) (table : RouteTable) (req : RequestHead) (is : List Input)
    (c : Conversation) (h : converse p websocketUpgrade registry table req is = some c) :
    ∃ u b, wsUpgradeHandler p registry table (requestMeta p req) = .ok u ∧
      openBridge p.aead u.keys u.aad = .ok b ∧ c.upstreamUrl = u.upstreamUrl ∧
      c.effects = outputs (Bridge.step p.aead) b is := by
  unfold converse at h
  split at h
  · cases h
  · rename_i m hm
    rw [dispatch_some p websocketUpgrade req m hm] at h
    split at h
    · cases h
    · rename_i u hu
      split at h
      · cases h
      · rename_i b hb
        cases h
        exact ⟨u,b,hu,hb,rfl,rfl⟩

theorem same_session_same_keys (p : Protocol Id Suite A) (registry : Registry Id Suite)
    (table : RouteTable) (req req' : WsRequestMeta) (u u' : Upgrade Id A)
    (hu : wsUpgradeHandler p registry table req = .ok u)
    (hu' : wsUpgradeHandler p registry table req' = .ok u') (hid : req.baseId = req'.baseId) :
    u.keys = u'.keys ∧ u.aad = u'.aad := by
  obtain ⟨hb,s,hs,hk,ha,_⟩ := upgrade_ok p registry table req u hu
  obtain ⟨hb',s',hs',hk',ha',_⟩ := upgrade_ok p registry table req' u' hu'
  rw [hid, hb', Option.some.injEq] at hb
  rw [← hb, hs', Option.some.injEq] at hs
  subst hs
  rw [hk', Option.some.injEq] at hk
  exact ⟨hk.symm,ha.trans ha'.symm⟩

theorem same_request_same_url (p : Protocol Id Suite A) (registry : Registry Id Suite)
    (table : RouteTable) (req req' : WsRequestMeta) (u u' : Upgrade Id A)
    (hu : wsUpgradeHandler p registry table req = .ok u)
    (hu' : wsUpgradeHandler p registry table req' = .ok u') (hhost : req.host = req'.host)
    (hpath : req.path = req'.path) (hquery : req.query = req'.query) :
    u.upstreamUrl = u'.upstreamUrl := by
  obtain ⟨_,_,_,_,_,r,hr,hbuild⟩ := upgrade_ok p registry table req u hu
  obtain ⟨_,_,_,_,_,r',hr',hbuild'⟩ := upgrade_ok p registry table req' u' hu'
  rw [hhost, hpath, hr', Option.some.injEq] at hr
  rw [← hr, hpath, hquery, hbuild', Except.ok.injEq] at hbuild
  exact hbuild.symm

/-- Two conversations of one session. If the inputs agree without client text,
pings and pongs, the data written upstream is the same whatever the paths,
queries and hosts were. If the inputs agree without client text, all effects
are the same. Requests with the same host, path and query dial the same URL. -/
theorem data_steered_by_sealed_frames (p : Protocol Id Suite A)
    (websocketUpgrade : RequestHead → Bool) (registry : Registry Id Suite) (table : RouteTable)
    (req req' : RequestHead) (is is' : List Input) (c c' : Conversation)
    (hc : converse p websocketUpgrade registry table req is = some c)
    (hc' : converse p websocketUpgrade registry table req' is' = some c')
    (hid : baseIdOf p req = baseIdOf p req') :
    (is.filter steers = is'.filter steers → c.data = c'.data) ∧
    (is.filter notPlainText = is'.filter notPlainText → c.effects = c'.effects) ∧
    ((requestMeta p req).host = (requestMeta p req').host → req.uri.path = req'.uri.path →
      req.uri.query = req'.uri.query → c.upstreamUrl = c'.upstreamUrl) := by
  obtain ⟨u,b,hu,hb,hurl,heff⟩ := converse_some p websocketUpgrade registry table req is c hc
  obtain ⟨u',b',hu',hb',hurl',heff'⟩ :=
    converse_some p websocketUpgrade registry table req' is' c' hc'
  obtain ⟨hkeys,haad⟩ := same_session_same_keys p registry table _ _ u u' hu hu' hid
  have hbb : b = b' := by
    rw [hkeys, haad, hb', Except.ok.injEq] at hb
    exact hb.symm
  subst hbb
  refine ⟨fun h => ?_,fun h => ?_,fun hhost hpath hquery => ?_⟩
  · rw [Conversation.data, Conversation.data, heff, heff', data_purge, h, ← data_purge]
  · rw [heff, heff', text_purge, h, ← text_purge]
  · rw [hurl, hurl']
    exact same_request_same_url p registry table _ _ u u' hu hu' hhost hpath hquery

theorem sealed_frame_steers_two_paths :
    ∃ c c' : Conversation, c.upstreamUrl ≠ c'.upstreamUrl ∧ c.data = c'.data ∧
      c.data = [.binary [9]] := by
  have hc : converse (sampleProtocol taggingAead) completeHandshake sampleRegistry forkedTable
      (upgradeHead "/a") [.client (.message (.binary sampleFrame))] =
      some ⟨"ws://a:80/a",[.forwarded sampleFrame (.binary [9])]⟩ := by decide
  have hc' : converse (sampleProtocol taggingAead) completeHandshake sampleRegistry forkedTable
      (upgradeHead "/b")
      [.client (.message (.ping [1])),.client (.message (.binary sampleFrame))] =
      some ⟨"ws://b:80/b",[.toUpstream (.ping [1]),.forwarded sampleFrame (.binary [9])]⟩ := by
    decide
  exact ⟨_,_,by decide,(data_steered_by_sealed_frames _ _ _ _ _ _ _ _ _ _ hc hc' rfl).1 rfl,rfl⟩

end ArchetypeProxy.WsSteering
