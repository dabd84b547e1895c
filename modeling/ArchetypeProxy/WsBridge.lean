import ArchetypeProxy.WsUpgrade

/-!
# The bridge between a client socket and its upstream

One iteration of either pump is one step. The environment supplies what the
sockets yield and when a sink stops accepting. Whichever pump returns first
ends the bridge: an ended bridge consumes its inputs without effect. Effects
are logged where they happen, so a sealed frame is recorded even when the
client can no longer be reached. The effects are those of `run_bridge`: what
the WebSocket libraries send by themselves for the pings and closes they read
belongs to the sockets below, and is added with them in `WsRelay`.
-/

set_option autoImplicit false

namespace ArchetypeProxy.WsBridge
open ArchetypeProxy.CounterNonce ArchetypeProxy.OpenHttpa ArchetypeProxy.WsFrames
open ArchetypeProxy.WsUpgrade

inductive Message where
  | text (t : String)
  | binary (b : Bytes)
  | ping (p : Bytes)
  | pong (p : Bytes)
  | close
  deriving DecidableEq

inductive UpMessage where
  | text (t : String)
  | binary (b : Bytes)
  | ping (p : Bytes)
  | pong (p : Bytes)
  | close
  | frame (b : Bytes)
  deriving DecidableEq

inductive Received (M : Type) where
  | finished
  | failed
  | message (m : M)
  deriving DecidableEq

inductive Input where
  | client (r : Received Message)
  | upstream (r : Received UpMessage)
  | upstreamLost
  | clientLost
  deriving DecidableEq

inductive Effect where
  | sealed (key : Bytes) (nonce : Nonce)
  | toClient (m : Message)
  | forwarded (frame : Bytes) (m : UpMessage)
  | toUpstream (m : UpMessage)
  deriving DecidableEq

structure Bridge (A : Type) where
  outKey : BoundAeadKey A
  inKey : AeadKey A
  inIv : Nonce
  aad : Bytes
  lastCounter : ℕ
  upstreamUp : Bool
  clientUp : Bool
  ended : Option (Except WsError Unit)

variable {A : Type}

def openBridge (aead : Aead A) (keys : WsKeys A) (aad : Bytes) : Except WsError (Bridge A) :=
  match BoundAeadKey.new aead keys.algorithm keys.serverWriteKey keys.serverWriteIv with
  | .error e => .error (.outboundKey e)
  | .ok outKey =>
    match AeadKey.new aead keys.algorithm keys.clientWriteKey with
    | .error e => .error (.inboundKey e)
    | .ok inKey => .ok ⟨outKey,inKey,keys.clientWriteIv,aad,0,true,true,none⟩

def Bridge.finish (b : Bridge A) (r : Except WsError Unit) : Bridge A :=
  { b with ended := some r }

def Bridge.sendUpstream (b : Bridge A) (e : Effect) (lost : WsError) : Bridge A × List Effect :=
  if b.upstreamUp then (b,[e]) else (b.finish (.error lost),[])

def Bridge.sendClient (b : Bridge A) (m : Message) (lost : WsError) : Bridge A × List Effect :=
  if b.clientUp then (b,[.toClient m]) else (b.finish (.error lost),[])

def InPayload.toUpstream : InPayload → UpMessage
  | .text t => .text t
  | .binary b => .binary b

def Bridge.receiveFrame (aead : Aead A) (b : Bridge A) (data : Bytes) :
    Bridge A × List Effect :=
  if maxWsFrame < data.length then (b.finish (.error .inboundCap),[])
  else match decodeInbound aead data b.inKey b.inIv b.aad b.lastCounter with
    | (.error e,last) => ({ b with lastCounter := last }.finish (.error e),[])
    | (.ok payload,last) =>
      { b with lastCounter := last }.sendUpstream
        (.forwarded data (InPayload.toUpstream payload)) .upstreamSend

/-- One iteration of `client_to_upstream`. Plaintext text is ignored; a failed
send of the closing message is not an error. -/
def Bridge.clientToUpstream (aead : Aead A) (b : Bridge A) :
    Received Message → Bridge A × List Effect
  | .finished => (b.finish (.ok ()),[])
  | .failed => (b.finish (.error .clientRecv),[])
  | .message (.binary data) => b.receiveFrame aead data
  | .message (.ping p) => b.sendUpstream (.toUpstream (.ping p)) .upstreamPing
  | .message (.pong p) => b.sendUpstream (.toUpstream (.pong p)) .upstreamPong
  | .message .close =>
    (b.finish (.ok ()),if b.upstreamUp then [.toUpstream .close] else [])
  | .message (.text _) => (b,[])

def Bridge.sealFrame (aead : Aead A) (b : Bridge A) (typeByte : UInt8) (payload : Bytes)
    (overCap : WsError) : Bridge A × List Effect :=
  if maxWsFrame < payload.length then (b.finish (.error overCap),[])
  else match encodeOutbound aead typeByte payload b.outKey b.aad with
    | .error e => (b.finish (.error e),[])
    | .ok (frame,key) =>
      let sent := { b with outKey := key }.sendClient (.binary frame) .clientSend
      (sent.1,.sealed b.outKey.key b.outKey.nextNonce::sent.2)

def Bridge.upstreamToClient (aead : Aead A) (b : Bridge A) :
    Received UpMessage → Bridge A × List Effect
  | .finished => (b.finish (.ok ()),[])
  | .failed => (b.finish (.error .upstreamRecv),[])
  | .message (.text t) => b.sealFrame aead msgText (utf8 t) .upstreamTextCap
  | .message (.binary data) => b.sealFrame aead msgBinary data .upstreamBinaryCap
  | .message (.ping p) => b.sendClient (.ping p) .clientPing
  | .message (.pong p) => b.sendClient (.pong p) .clientPong
  | .message .close => (b.finish (.ok ()),if b.clientUp then [.toClient .close] else [])
  | .message (.frame _) => (b,[])

def Bridge.step (aead : Aead A) (b : Bridge A) (i : Input) : Bridge A × List Effect :=
  if b.ended.isSome then (b,[])
  else match i with
    | .client r => b.clientToUpstream aead r
    | .upstream r => b.upstreamToClient aead r
    | .upstreamLost => ({ b with upstreamUp := false },[])
    | .clientLost => ({ b with clientUp := false },[])

def sealedPair : Effect → Option (Bytes × Nonce)
  | .sealed key nonce => some (key,nonce)
  | _ => none

def forwardedFrame : Effect → Option Bytes
  | .forwarded frame _ => some frame
  | _ => none

/-- The step seals a frame: a running bridge reads an upstream message within
the cap and the cipher accepts it. -/
def Bridge.seals (aead : Aead A) (b : Bridge A) (i : Input) : Bool :=
  b.ended.isNone && match i with
    | .upstream (.message (.text t)) => sealable (utf8 t) msgText
    | .upstream (.message (.binary data)) => sealable data msgBinary
    | _ => false
where
  sealable (payload : Bytes) (typeByte : UInt8) : Bool :=
    decide (payload.length ≤ maxWsFrame) &&
      (encodeOutbound aead typeByte payload b.outKey b.aad).isOk

/-- The step forwards a client frame: a running bridge with a reachable
upstream reads a frame within the cap that decodes. -/
def Bridge.accepts (aead : Aead A) (b : Bridge A) (i : Input) : Bool :=
  b.ended.isNone && match i with
    | .client (.message (.binary data)) => acceptable data
    | _ => false
where
  acceptable (data : Bytes) : Bool :=
    decide (data.length ≤ maxWsFrame) && b.upstreamUp &&
      (decodeInbound aead data b.inKey b.inIv b.aad b.lastCounter).1.isOk

structure Quiet (b b' : Bridge A) (es : List Effect) : Prop where
  outKey : b'.outKey = b.outKey
  inIv : b'.inIv = b.inIv
  counter : b.lastCounter ≤ b'.lastCounter
  sealed : es.filterMap sealedPair = []
  forwarded : es.filterMap forwardedFrame = []

structure Sealed (b b' : Bridge A) (es : List Effect) : Prop where
  outKey : b'.outKey = b.outKey.advanced
  inIv : b'.inIv = b.inIv
  counter : b'.lastCounter = b.lastCounter
  sealed : es.filterMap sealedPair = [(b.outKey.key,b.outKey.nextNonce)]
  forwarded : es.filterMap forwardedFrame = []

structure Forwarded (b b' : Bridge A) (es : List Effect) (frame : Bytes) : Prop where
  outKey : b'.outKey = b.outKey
  inIv : b'.inIv = b.inIv
  fresh : b.lastCounter < b'.lastCounter
  counter : b'.lastCounter = extractCounter (frame.take 12) b.inIv
  sealed : es.filterMap sealedPair = []
  forwarded : es.filterMap forwardedFrame = [frame]

theorem quiet_refl (b : Bridge A) : Quiet b b [] := ⟨rfl,rfl,le_refl _,rfl,rfl⟩

theorem finish_quiet (b : Bridge A) (r : Except WsError Unit) : Quiet b (b.finish r) [] :=
  ⟨rfl,rfl,le_refl _,rfl,rfl⟩

theorem sendClient_quiet (b : Bridge A) (m : Message) (lost : WsError) :
    Quiet b (b.sendClient m lost).1 (b.sendClient m lost).2 := by
  unfold Bridge.sendClient
  split
  · exact ⟨rfl,rfl,le_refl _,rfl,rfl⟩
  · exact finish_quiet b _

theorem sendUpstream_control (b : Bridge A) (m : UpMessage) (lost : WsError) :
    Quiet b (b.sendUpstream (.toUpstream m) lost).1 (b.sendUpstream (.toUpstream m) lost).2 := by
  unfold Bridge.sendUpstream
  split
  · exact ⟨rfl,rfl,le_refl _,rfl,rfl⟩
  · exact finish_quiet b _

theorem receiveFrame_cases (aead : Aead A) (b : Bridge A) (data : Bytes) :
    (Bridge.accepts.acceptable aead b data = false ∧
      Quiet b (b.receiveFrame aead data).1 (b.receiveFrame aead data).2) ∨
    (Bridge.accepts.acceptable aead b data = true ∧
      Forwarded b (b.receiveFrame aead data).1 (b.receiveFrame aead data).2 data) := by
  unfold Bridge.receiveFrame Bridge.accepts.acceptable
  split
  · rename_i hcap
    exact Or.inl ⟨by simp [not_le.mpr hcap],finish_quiet b _⟩
  · rename_i hcap
    have hle := decode_counter_le aead data b.inKey b.inIv b.aad b.lastCounter
    cases hd : decodeInbound aead data b.inKey b.inIv b.aad b.lastCounter with
    | mk result last =>
      rw [hd] at hle
      cases result with
      | error e => exact Or.inl ⟨by simp [Except.isOk, Except.toBool],rfl,rfl,hle,rfl,rfl⟩
      | ok payload =>
        obtain ⟨_,hlt,hc⟩ := decode_ok aead data b.inKey b.inIv b.aad _ last payload hd
        cases hu : b.upstreamUp
        · refine Or.inl ⟨by simp,?_⟩
          simp only [Bridge.sendUpstream, Bool.false_eq_true, if_false]
          exact ⟨rfl,rfl,hle,rfl,rfl⟩
        · refine Or.inr ⟨by simp [not_lt.mp hcap, Except.isOk, Except.toBool],?_⟩
          simp only [Bridge.sendUpstream, if_true]
          exact ⟨rfl,rfl,hlt,hc,rfl,rfl⟩

theorem sealFrame_cases (aead : Aead A) (b : Bridge A) (typeByte : UInt8) (payload : Bytes)
    (overCap : WsError) :
    (Bridge.seals.sealable aead b payload typeByte = false ∧
      Quiet b (b.sealFrame aead typeByte payload overCap).1
        (b.sealFrame aead typeByte payload overCap).2) ∨
    (Bridge.seals.sealable aead b payload typeByte = true ∧
      Sealed b (b.sealFrame aead typeByte payload overCap).1
        (b.sealFrame aead typeByte payload overCap).2) := by
  unfold Bridge.sealFrame Bridge.seals.sealable
  split
  · rename_i hcap
    exact Or.inl ⟨by simp [not_le.mpr hcap],finish_quiet b _⟩
  · rename_i hcap
    cases he : encodeOutbound aead typeByte payload b.outKey b.aad with
    | error e => exact Or.inl ⟨by simp [Except.isOk, Except.toBool],finish_quiet b _⟩
    | ok sealing =>
      obtain ⟨hk,_⟩ := encode_ok aead typeByte payload b.outKey sealing.2 b.aad sealing.1 he
      have hq := sendClient_quiet { b with outKey := sealing.2 } (.binary sealing.1) .clientSend
      refine Or.inr ⟨by simp [not_lt.mp hcap, Except.isOk, Except.toBool],?_,hq.inIv,?_,?_,?_⟩
      · exact hq.outKey.trans hk
      · unfold Bridge.sendClient
        dsimp only
        split <;> rfl
      · exact congrArg (List.cons _) hq.sealed
      · exact hq.forwarded

theorem client_close_quiet (aead : Aead A) (b : Bridge A) :
    Quiet b (b.clientToUpstream aead (.message .close)).1
      (b.clientToUpstream aead (.message .close)).2 := by
  cases hu : b.upstreamUp <;>
    exact ⟨rfl,rfl,le_refl _,by simp [Bridge.clientToUpstream, hu, sealedPair],
      by simp [Bridge.clientToUpstream, hu, forwardedFrame]⟩

theorem upstream_close_quiet (aead : Aead A) (b : Bridge A) :
    Quiet b (b.upstreamToClient aead (.message .close)).1
      (b.upstreamToClient aead (.message .close)).2 := by
  cases hc : b.clientUp <;>
    exact ⟨rfl,rfl,le_refl _,by simp [Bridge.upstreamToClient, hc, sealedPair],
      by simp [Bridge.upstreamToClient, hc, forwardedFrame]⟩

/-- All a step of a bridge can do to its counters and to the log, and when. -/
theorem step_cases (aead : Aead A) (b : Bridge A) (i : Input) :
    (b.seals aead i = false ∧ b.accepts aead i = false ∧
      Quiet b (b.step aead i).1 (b.step aead i).2) ∨
    (b.seals aead i = true ∧ b.accepts aead i = false ∧
      Sealed b (b.step aead i).1 (b.step aead i).2) ∨
    (b.seals aead i = false ∧ b.accepts aead i = true ∧
      ∃ frame, i = .client (.message (.binary frame)) ∧
        Forwarded b (b.step aead i).1 (b.step aead i).2 frame) := by
  unfold Bridge.step Bridge.seals Bridge.accepts
  cases hend : b.ended with
  | some r => exact Or.inl ⟨rfl,rfl,quiet_refl b⟩
  | none =>
    simp only [Option.isNone_none, Bool.true_and, Option.isSome_none, Bool.false_eq_true, if_false]
    cases i with
    | upstreamLost => exact Or.inl ⟨rfl,rfl,rfl,rfl,le_refl _,rfl,rfl⟩
    | clientLost => exact Or.inl ⟨rfl,rfl,rfl,rfl,le_refl _,rfl,rfl⟩
    | client r =>
      cases r with
      | finished => exact Or.inl ⟨rfl,rfl,finish_quiet b _⟩
      | failed => exact Or.inl ⟨rfl,rfl,finish_quiet b _⟩
      | message m =>
        cases m with
        | text t => exact Or.inl ⟨rfl,rfl,quiet_refl b⟩
        | ping p => exact Or.inl ⟨rfl,rfl,sendUpstream_control b _ _⟩
        | pong p => exact Or.inl ⟨rfl,rfl,sendUpstream_control b _ _⟩
        | close => exact Or.inl ⟨rfl,rfl,client_close_quiet aead b⟩
        | binary data =>
          rcases receiveFrame_cases aead b data with ⟨ha,h⟩ | ⟨ha,h⟩
          · exact Or.inl ⟨rfl,ha,h⟩
          · exact Or.inr (Or.inr ⟨rfl,ha,data,rfl,h⟩)
    | upstream r =>
      cases r with
      | finished => exact Or.inl ⟨rfl,rfl,finish_quiet b _⟩
      | failed => exact Or.inl ⟨rfl,rfl,finish_quiet b _⟩
      | message m =>
        cases m with
        | frame f => exact Or.inl ⟨rfl,rfl,quiet_refl b⟩
        | ping p => exact Or.inl ⟨rfl,rfl,sendClient_quiet b _ _⟩
        | pong p => exact Or.inl ⟨rfl,rfl,sendClient_quiet b _ _⟩
        | close => exact Or.inl ⟨rfl,rfl,upstream_close_quiet aead b⟩
        | text t =>
          rcases sealFrame_cases aead b msgText (utf8 t) .upstreamTextCap with ⟨hs,h⟩ | ⟨hs,h⟩
          · exact Or.inl ⟨hs,rfl,h⟩
          · exact Or.inr (Or.inl ⟨hs,rfl,h⟩)
        | binary data =>
          rcases sealFrame_cases aead b msgBinary data .upstreamBinaryCap with ⟨hs,h⟩ | ⟨hs,h⟩
          · exact Or.inl ⟨hs,rfl,h⟩
          · exact Or.inr (Or.inl ⟨hs,rfl,h⟩)

theorem step_keys (aead : Aead A) (b : Bridge A) (i : Input) :
    (b.step aead i).1.outKey.key = b.outKey.key ∧ (b.step aead i).1.outKey.iv = b.outKey.iv ∧
      (b.step aead i).1.inIv = b.inIv := by
  rcases step_cases aead b i with ⟨_,_,hq⟩ | ⟨_,_,hq⟩ | ⟨_,_,_,_,hq⟩
  · exact ⟨by rw [hq.outKey],by rw [hq.outKey],hq.inIv⟩
  · exact ⟨by rw [hq.outKey]; rfl,by rw [hq.outKey]; rfl,hq.inIv⟩
  · exact ⟨by rw [hq.outKey],by rw [hq.outKey],hq.inIv⟩

theorem sendUpstream_up (b : Bridge A) (e : Effect) (lost : WsError) :
    (b.sendUpstream e lost).1.upstreamUp = b.upstreamUp := by
  unfold Bridge.sendUpstream
  split <;> rfl

theorem sendClient_up (b : Bridge A) (m : Message) (lost : WsError) :
    (b.sendClient m lost).1.upstreamUp = b.upstreamUp := by
  unfold Bridge.sendClient
  split <;> rfl

theorem receiveFrame_up (aead : Aead A) (b : Bridge A) (data : Bytes) :
    (b.receiveFrame aead data).1.upstreamUp = b.upstreamUp := by
  unfold Bridge.receiveFrame
  split
  · rfl
  · split
    · rfl
    · exact sendUpstream_up _ _ _

theorem sealFrame_up (aead : Aead A) (b : Bridge A) (typeByte : UInt8) (payload : Bytes)
    (overCap : WsError) :
    (b.sealFrame aead typeByte payload overCap).1.upstreamUp = b.upstreamUp := by
  unfold Bridge.sealFrame
  split
  · rfl
  · split
    · rfl
    · exact sendClient_up _ _ _

theorem clientToUpstream_up (aead : Aead A) (b : Bridge A) (r : Received Message) :
    (b.clientToUpstream aead r).1.upstreamUp = b.upstreamUp := by
  unfold Bridge.clientToUpstream
  split <;> first | rfl | exact receiveFrame_up _ _ _ | exact sendUpstream_up _ _ _

theorem upstreamToClient_up (aead : Aead A) (b : Bridge A) (r : Received UpMessage) :
    (b.upstreamToClient aead r).1.upstreamUp = b.upstreamUp := by
  unfold Bridge.upstreamToClient
  split <;> first | rfl | exact sealFrame_up _ _ _ _ _ | exact sendClient_up _ _ _

theorem step_upstream_down (aead : Aead A) (b : Bridge A) (i : Input)
    (h : b.upstreamUp = false) : (b.step aead i).1.upstreamUp = false := by
  unfold Bridge.step
  split
  · exact h
  · cases i with
    | upstreamLost => rfl
    | clientLost => exact h
    | client r => exact (clientToUpstream_up aead b r).trans h
    | upstream r => exact (upstreamToClient_up aead b r).trans h

end ArchetypeProxy.WsBridge
