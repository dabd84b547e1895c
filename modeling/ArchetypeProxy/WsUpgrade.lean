import ArchetypeProxy.Http
import ArchetypeProxy.OpenHttpa
import ArchetypeProxy.Routes
import ArchetypeProxy.Upstream
import ArchetypeProxy.WsFrames

/-!
# Attested WebSocket upgrades

The dispatch guard takes a `GET` upgrade that names a session and hands host,
path, query and session name to the upgrade handler. The handler looks the
session up, selects a route, builds the upstream URL and derives the keys of
the bridge. Every other request passes through the guard.
-/

set_option autoImplicit false

namespace ArchetypeProxy.WsUpgrade
open ArchetypeProxy.Text ArchetypeProxy.CounterNonce ArchetypeProxy.Http
open ArchetypeProxy.OpenHttpa ArchetypeProxy.Routes ArchetypeProxy.Upstream
open ArchetypeProxy.WsFrames

variable {Id Suite A : Type}

structure WsRequestMeta where
  host : String
  path : String
  query : Option String
  baseId : Option String
  deriving DecidableEq, Repr

def isAttestedWsUpgrade (p : Protocol Id Suite A) (req : RequestHead) : Bool :=
  if req.method ≠ "GET" then false
  else
    let hasUpgrade := ((req.headers.text "upgrade").map
      (fun v => eqIgnoreAsciiCase v "websocket")).getD false
    hasUpgrade && req.headers.containsKey p.hdrAttestBaseId

def requestMeta (p : Protocol Id Suite A) (req : RequestHead) : WsRequestMeta where
  host := (req.uri.authority.or (req.headers.text "host")).getD ""
  path := req.uri.path
  query := req.uri.query
  baseId := req.headers.text p.hdrAttestBaseId

/-- What the guard diverts. The server library decides from the same head
whether the handshake headers are complete; otherwise the request passes on. -/
def wsDispatch (p : Protocol Id Suite A) (websocketUpgrade : RequestHead → Bool)
    (req : RequestHead) : Option WsRequestMeta :=
  if !isAttestedWsUpgrade p req then none
  else if !websocketUpgrade req then none
  else some (requestMeta p req)

theorem dispatch_some (p : Protocol Id Suite A) (websocketUpgrade : RequestHead → Bool)
    (req : RequestHead) (m : WsRequestMeta) (h : wsDispatch p websocketUpgrade req = some m) :
    m = requestMeta p req := by
  unfold wsDispatch at h
  split at h
  · cases h
  · split at h
    · cases h
    · exact (Option.some.inj h).symm

structure WsKeys (A : Type) where
  serverWriteKey : Bytes
  serverWriteIv : Nonce
  clientWriteKey : Bytes
  clientWriteIv : Nonce
  algorithm : A

def WsKeys.fromSession (p : Protocol Id Suite A) (s : AttestSession Id Suite) :
    Option (WsKeys A) :=
  s.keys.map (fun k => ⟨k.serverWriteKey,k.serverWriteIv,k.clientWriteKey,k.clientWriteIv,
    p.cipherSuiteToAead s.cipherSuite⟩)

def sessionAad (p : Protocol Id Suite A) (s : AttestSession Id Suite) : Bytes :=
  utf8 "openhttpa:" ++ utf8 (p.showAtbId s.id)

structure Upgrade (Id A : Type) where
  session : Id
  upstreamUrl : String
  keys : WsKeys A
  aad : Bytes

def wsUpgradeHandler (p : Protocol Id Suite A) (registry : Registry Id Suite)
    (table : RouteTable) (req : WsRequestMeta) : Except Response (Upgrade Id A) :=
  match req.baseId.bind p.parseAtbId with
  | none => .error ⟨401,p.hdrAttestBaseId ++ " header missing or invalid"⟩
  | some atbId =>
    match registry atbId with
    | none => .error ⟨401,"AtB session not found or expired"⟩
    | some session =>
      if !session.alive then .error ⟨401,"AtB session not in attested state"⟩
      else match table.select req.host req.path with
        | none => .error ⟨404,"no route matched"⟩
        | some route =>
          match buildUpstreamWsUrl route.upstream req.path req.query with
          | .error _ => .error ⟨502,"invalid upstream WS target"⟩
          | .ok url =>
            match WsKeys.fromSession p session with
            | none => .error ⟨401,"session keys unavailable"⟩
            | some keys => .ok ⟨atbId,url,keys,sessionAad p session⟩

theorem upgrade_ok (p : Protocol Id Suite A) (registry : Registry Id Suite) (table : RouteTable)
    (req : WsRequestMeta) (u : Upgrade Id A)
    (h : wsUpgradeHandler p registry table req = .ok u) :
    req.baseId.bind p.parseAtbId = some u.session ∧
    ∃ s, registry u.session = some s ∧ WsKeys.fromSession p s = some u.keys ∧
      u.aad = sessionAad p s ∧
      ∃ r, table.select req.host req.path = some r ∧
        buildUpstreamWsUrl r.upstream req.path req.query = .ok u.upstreamUrl := by
  unfold wsUpgradeHandler at h
  split at h
  · cases h
  · rename_i atbId hid
    split at h
    · cases h
    · rename_i s hs
      split at h
      · cases h
      · split at h
        · cases h
        · rename_i r hr
          split at h
          · cases h
          · rename_i url hurl
            split at h
            · cases h
            · rename_i keys hk
              cases h
              exact ⟨hid,s,hs,hk,rfl,r,hr,hurl⟩

theorem upgrade_alive (p : Protocol Id Suite A) (registry : Registry Id Suite) (table : RouteTable)
    (req : WsRequestMeta) (u : Upgrade Id A)
    (h : wsUpgradeHandler p registry table req = .ok u) :
    ∃ s, registry u.session = some s ∧ s.alive = true := by
  obtain ⟨hid,s,hs,_⟩ := upgrade_ok p registry table req u h
  refine ⟨s,hs,?_⟩
  cases halive : s.alive with
  | true => rfl
  | false => simp [wsUpgradeHandler, hid, hs, halive] at h

end ArchetypeProxy.WsUpgrade
