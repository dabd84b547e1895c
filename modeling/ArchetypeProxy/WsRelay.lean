import ArchetypeProxy.Library.Fallible
import ArchetypeProxy.Library.Replies
import ArchetypeProxy.WsBridge
import ArchetypeProxy.WsRoundTrip

/-!
# The bridge as a plain relay

Between a client that seals and opens frames as the bridge does and its
upstream, the bridge is a relay of plain messages: what one side sends the
other one receives, in order and in the same form, until either side ends.
The plain relay has no keys, no counters and no frames; the length of a frame
only appears in its cap. Client and bridge together simulate it. Both stand on
sockets whose libraries answer every ping and close they read by themselves,
besides its being relayed.
-/

set_option autoImplicit false

namespace ArchetypeProxy.WsRelay
open ArchetypeProxy.CounterNonce ArchetypeProxy.Fallible ArchetypeProxy.OpenHttpa
open ArchetypeProxy.Replies ArchetypeProxy.Runs ArchetypeProxy.WsBridge ArchetypeProxy.WsFrames
open ArchetypeProxy.WsRoundTrip ArchetypeProxy.WsUpgrade

inductive AppMessage where
  | data (p : InPayload)
  | ping (p : Bytes)
  | pong (p : Bytes)
  | close
  deriving DecidableEq

inductive AppInput where
  | client (r : Received AppMessage)
  | stray (t : String)
  | upstream (r : Received UpMessage)
  | upstreamLost
  | clientLost

inductive AppEffect where
  | toUpstream (m : UpMessage)
  | toClient (m : AppMessage)
  | unreadable (e : WsError)
  deriving DecidableEq

/-! ## The plain relay -/

structure Relay where
  upstreamUp : Bool
  clientUp : Bool
  ended : Option (Except WsError Unit)

def Relay.start : Relay := ⟨true,true,none⟩

def Relay.finish (r : Relay) (result : Except WsError Unit) : Relay :=
  { r with ended := some result }

def Relay.sendUpstream (r : Relay) (m : UpMessage) (lost : WsError) : Relay × List AppEffect :=
  if r.upstreamUp then (r,[.toUpstream m]) else (r.finish (.error lost),[])

def Relay.sendClient (r : Relay) (m : AppMessage) (lost : WsError) : Relay × List AppEffect :=
  if r.clientUp then (r,[.toClient m]) else (r.finish (.error lost),[])

/-- The cap counts the nonce, the type byte and the tag for a client message
and the bare payload for an upstream message. -/
def Relay.fromClient (r : Relay) : Received AppMessage → Relay × List AppEffect
  | .finished => (r.finish (.ok ()),[])
  | .failed => (r.finish (.error .clientRecv),[])
  | .message (.data p) =>
    if maxWsFrame < (payloadBytes p).length+minFrame then (r.finish (.error .inboundCap),[])
    else r.sendUpstream (InPayload.toUpstream p) .upstreamSend
  | .message (.ping p) => r.sendUpstream (.ping p) .upstreamPing
  | .message (.pong p) => r.sendUpstream (.pong p) .upstreamPong
  | .message .close => (r.finish (.ok ()),if r.upstreamUp then [.toUpstream .close] else [])

def Relay.pass (r : Relay) (p : InPayload) (overCap : WsError) : Relay × List AppEffect :=
  if maxWsFrame < (payloadBytes p).length then (r.finish (.error overCap),[])
  else r.sendClient (.data p) .clientSend

def Relay.fromUpstream (r : Relay) : Received UpMessage → Relay × List AppEffect
  | .finished => (r.finish (.ok ()),[])
  | .failed => (r.finish (.error .upstreamRecv),[])
  | .message (.text t) => r.pass (.text t) .upstreamTextCap
  | .message (.binary data) => r.pass (.binary data) .upstreamBinaryCap
  | .message (.ping p) => r.sendClient (.ping p) .clientPing
  | .message (.pong p) => r.sendClient (.pong p) .clientPong
  | .message .close => (r.finish (.ok ()),if r.clientUp then [.toClient .close] else [])
  | .message (.frame _) => (r,[])

def Relay.step (r : Relay) (i : AppInput) : Relay × List AppEffect :=
  if r.ended.isSome then (r,[])
  else match i with
    | .client m => r.fromClient m
    | .stray _ => (r,[])
    | .upstream m => r.fromUpstream m
    | .upstreamLost => ({ r with upstreamUp := false },[])
    | .clientLost => ({ r with clientUp := false },[])

/-! ## Client and bridge -/

/-- The bridge and the client at its other end: the key the client seals with,
the key it opens with and the last counter it has seen. -/
structure Link (A : Type) where
  sealing : BoundAeadKey A
  opening : AeadKey A
  openingIv : Nonce
  aad : Bytes
  lastCounter : ℕ
  bridge : Bridge A

variable {A : Type} (aead : Aead A)

def openLink (keys : WsKeys A) (aad : Bytes) : Except WsError (Link A) := do
  let bridge ← openBridge aead keys aad
  let sealing ← (BoundAeadKey.new aead keys.algorithm keys.clientWriteKey
    keys.clientWriteIv).mapError .outboundKey
  let opening ← (AeadKey.new aead keys.algorithm keys.serverWriteKey).mapError .inboundKey
  return ⟨sealing,opening,keys.serverWriteIv,aad,0,bridge⟩

def control : AppMessage → Option Message
  | .data _ => none
  | .ping p => some (.ping p)
  | .pong p => some (.pong p)
  | .close => some .close

def Link.wire (l : Link A) : AppInput → Option Input × BoundAeadKey A
  | .client .finished => (some (.client .finished),l.sealing)
  | .client .failed => (some (.client .failed),l.sealing)
  | .client (.message (.data p)) =>
    match encodeOutbound aead (typeByte p) (payloadBytes p) l.sealing l.aad with
    | .ok (frame,key) => (some (.client (.message (.binary frame))),key)
    | .error _ => (none,l.sealing)
  | .client (.message m) => ((control m).map (fun m => .client (.message m)),l.sealing)
  | .stray t => (some (.client (.message (.text t))),l.sealing)
  | .upstream r => (some (.upstream r),l.sealing)
  | .upstreamLost => (some .upstreamLost,l.sealing)
  | .clientLost => (some .clientLost,l.sealing)

def Link.receive (l : Link A) : Message → Link A × List AppEffect
  | .text _ => (l,[])
  | .binary frame =>
    match decodeInbound aead frame l.opening l.openingIv l.aad l.lastCounter with
    | (.ok p,last) => ({ l with lastCounter := last },[.toClient (.data p)])
    | (.error e,last) => ({ l with lastCounter := last },[.unreadable e])
  | .ping p => (l,[.toClient (.ping p)])
  | .pong p => (l,[.toClient (.pong p)])
  | .close => (l,[.toClient .close])

def Link.observe (l : Link A) : Effect → Link A × List AppEffect
  | .sealed _ _ => (l,[])
  | .toClient m => l.receive aead m
  | .forwarded _ m => (l,[.toUpstream m])
  | .toUpstream m => (l,[.toUpstream m])

def Link.observeAll (l : Link A) : List Effect → Link A × List AppEffect
  | [] => (l,[])
  | e::es =>
    let first := l.observe aead e
    let rest := first.1.observeAll es
    (rest.1,first.2++rest.2)

def Link.step (l : Link A) (i : AppInput) : Link A × List AppEffect :=
  match l.wire aead i with
  | (none,_) => (l,[])
  | (some input,key) =>
    let stepped := l.bridge.step aead input
    { l with sealing := key, bridge := stepped.1 }.observeAll aead stepped.2

/-! ## The sockets -/

inductive Side where
  | client | upstream
  deriving DecidableEq, Repr

inductive AutoReply where
  | pong (p : Bytes)
  | close

def asked : AppInput → Option (Side × AutoReply)
  | .client (.message (.ping p)) => some (.client,.pong p)
  | .client (.message .close) => some (.client,.close)
  | .upstream (.message (.ping p)) => some (.upstream,.pong p)
  | .upstream (.message .close) => some (.upstream,.close)
  | _ => none

def autoReply : Side → AutoReply → AppEffect
  | .client, .pong p => .toClient (.pong p)
  | .client, .close => .toClient .close
  | .upstream, .pong p => .toUpstream (.pong p)
  | .upstream, .close => .toUpstream .close

/-- Each library keeps its reply to the last ping or close it read until it next
gets to writing on that socket. -/
def sockets : Carrier AppInput AppEffect Side AutoReply := ⟨asked,autoReply⟩

def onSides (clientUp upstreamUp : Bool) : Side → Bool
  | .client => clientUp
  | .upstream => upstreamUp

def plainRelay : Machine Relay AppInput AppEffect Side where
  step := Relay.step
  takes r := r.ended.isNone
  reaches r := onSides r.clientUp r.upstreamUp

def sealedRelay : Machine (Link A) AppInput AppEffect Side where
  step := Link.step aead
  takes l := l.bridge.ended.isNone
  reaches l := onSides l.bridge.clientUp l.bridge.upstreamUp

def quiet : Side → Option AutoReply := fun _ => none

/-! ## The simulation -/

/-- What is assumed of the cipher: opening inverts sealing, and no text is
refused. -/
structure Cipher : Prop extends SealsOpen aead where
  total : ∀ a key nonce aad text, ∃ sealed, aead.sealInPlace a key nonce aad text = .ok sealed

/-- Both ends agree on the keys and on the counters, and the counters are good
for that many further messages. -/
structure Matches (n : ℕ) (l : Link A) (r : Relay) : Prop where
  ended : l.bridge.ended = r.ended
  upstreamUp : l.bridge.upstreamUp = r.upstreamUp
  clientUp : l.bridge.clientUp = r.clientUp
  inKey : l.bridge.inKey = ⟨l.sealing.algorithm,l.sealing.key⟩
  inIv : l.bridge.inIv = l.sealing.iv
  opening : l.opening = ⟨l.bridge.outKey.algorithm,l.bridge.outKey.key⟩
  openingIv : l.openingIv = l.bridge.outKey.iv
  aad : l.bridge.aad = l.aad
  sent : r.ended = none → l.bridge.lastCounter = l.sealing.sealed
  seen : r.ended = none → l.lastCounter = l.bridge.outKey.sealed
  sealing : l.sealing.sealed+n < counters
  outKey : l.bridge.outKey.sealed+n < counters

section Simulation
variable {n : ℕ} {l : Link A} {r : Relay}

theorem Matches.fewer (h : Matches (n+1) l r) : Matches n l r := by
  have hsealing := h.sealing
  have hout := h.outKey
  exact { h with sealing := by omega, outKey := by omega }

theorem Matches.finish (h : Matches n l r) (result : Except WsError Unit) :
    Matches n { l with bridge := l.bridge.finish result } (r.finish result) :=
  { h with
    ended := rfl
    sent := by simp [Relay.finish]
    seen := by simp [Relay.finish] }

theorem encode_total_one (hc : Cipher aead) (p : InPayload) (key : BoundAeadKey A) (aad : Bytes) :
    ∃ frame, encodeOutbound aead (typeByte p) (payloadBytes p) key aad =
        .ok (frame,key.advanced) ∧ frame.length = (payloadBytes p).length+minFrame := by
  obtain ⟨sealed,hseal⟩ := hc.total key.algorithm key.key key.nextNonce aad
    (typeByte p::payloadBytes p)
  refine ⟨key.nextNonce.toList++sealed,?_,?_⟩
  · simp [encodeOutbound, BoundAeadKey.seal, hseal, bind, Except.bind, pure, Except.pure]
  · have htag := hc.tag _ _ _ _ _ _ hseal
    simp only [List.length_append, List.Vector.toList_length, htag, List.length_cons, minFrame]
    omega

def Agree (n : ℕ) (x : Link A × List AppEffect) (y : Relay × List AppEffect) : Prop :=
  x.2 = y.2 ∧ Matches n x.1 y.1

def Link.after (l : Link A) (stepped : Bridge A × List Effect) : Link A × List AppEffect :=
  { l with bridge := stepped.1 }.observeAll aead stepped.2

theorem agree_finish (h : Matches n l r) (result : Except WsError Unit) :
    Agree n (l.after aead (l.bridge.finish result,[])) (r.finish result,[]) :=
  ⟨rfl,h.finish result⟩

theorem agree_sendUpstream (h : Matches n l r) (e : Effect) (m : UpMessage) (lost : WsError)
    (he : ∀ l : Link A, l.observe aead e = (l,[.toUpstream m])) :
    Agree n (l.after aead (l.bridge.sendUpstream e lost)) (r.sendUpstream m lost) := by
  rw [Bridge.sendUpstream, Relay.sendUpstream, h.upstreamUp]
  cases r.upstreamUp with
  | false => exact agree_finish aead h _
  | true =>
    refine ⟨?_,?_⟩
    · simp [Link.after, Link.observeAll, he]
    · simpa [Link.after, Link.observeAll, he] using h

theorem agree_sendClient (h : Matches n l r) (m : Message) (m' : AppMessage) (lost : WsError)
    (hm : ∀ l : Link A, l.receive aead m = (l,[.toClient m'])) :
    Agree n (l.after aead (l.bridge.sendClient m lost)) (r.sendClient m' lost) := by
  rw [Bridge.sendClient, Relay.sendClient, h.clientUp]
  cases r.clientUp with
  | false => exact agree_finish aead h _
  | true =>
    refine ⟨?_,?_⟩
    · simp [Link.after, Link.observeAll, Link.observe, hm]
    · simpa [Link.after, Link.observeAll, Link.observe, hm] using h

theorem agree_close (h : Matches n l r) (up : Bool) (e : Effect) (m : AppEffect)
    (he : ∀ l : Link A, l.observe aead e = (l,[m])) :
    Agree n (l.after aead (l.bridge.finish (.ok ()),if up then [e] else []))
      (r.finish (.ok ()),if up then [m] else []) := by
  cases up with
  | false => exact agree_finish aead h _
  | true =>
    refine ⟨?_,?_⟩
    · simp [Link.after, Link.observeAll, he]
    · simpa [Link.after, Link.observeAll, he] using h.finish (.ok ())

theorem agree_data (hc : Cipher aead) (h : Matches (n+1) l r) (hrun : r.ended = none)
    (p : InPayload) (frame : Bytes)
    (henc : encodeOutbound aead (typeByte p) (payloadBytes p) l.sealing l.aad =
      .ok (frame,l.sealing.advanced))
    (hlen : frame.length = (payloadBytes p).length+minFrame) :
    Agree n ({ l with sealing := l.sealing.advanced }.after aead (l.bridge.receiveFrame aead frame))
      (r.fromClient (.message (.data p))) := by
  have hsealing := h.sealing
  have hmoved : Matches n { l with
      sealing := l.sealing.advanced
      bridge := { l.bridge with lastCounter := l.sealing.sealed+1 } } r :=
    { h.fewer with
      sent := fun _ => rfl
      sealing := by
        simp only [BoundAeadKey.advanced]
        omega }
  have hdec : decodeInbound aead frame l.bridge.inKey l.bridge.inIv l.bridge.aad
      l.bridge.lastCounter = (.ok p,l.sealing.sealed+1) := by
    rw [h.inKey, h.inIv, h.aad, h.sent hrun]
    exact decode_encode aead hc.toSealsOpen p l.sealing _ l.aad frame (by omega) henc
  rw [Bridge.receiveFrame, Relay.fromClient, hlen]
  split
  · exact ⟨rfl,{ hmoved with
      ended := rfl
      sent := by simp [Relay.finish]
      seen := by simp [Relay.finish] }⟩
  · rw [hdec]
    exact agree_sendUpstream aead hmoved (.forwarded frame (InPayload.toUpstream p))
      (InPayload.toUpstream p) .upstreamSend (fun _ => rfl)

theorem agree_pass (hc : Cipher aead) (h : Matches (n+1) l r) (hrun : r.ended = none)
    (p : InPayload) (overCap : WsError) :
    Agree n (l.after aead (l.bridge.sealFrame aead (typeByte p) (payloadBytes p) overCap))
      (r.pass p overCap) := by
  have hout := h.outKey
  obtain ⟨frame,henc,-⟩ := encode_total_one aead hc p l.bridge.outKey l.bridge.aad
  have hdec := decode_encode aead hc.toSealsOpen p l.bridge.outKey _ l.bridge.aad frame
    (by omega) henc
  rw [Bridge.sealFrame, Relay.pass]
  split
  · exact agree_finish aead h.fewer _
  · have hmoved : l.bridge.outKey.advanced.sealed+n < counters := by
      simp only [BoundAeadKey.advanced]
      omega
    simp only [henc, Bridge.sendClient, Relay.sendClient, ← h.clientUp]
    by_cases hup : l.bridge.clientUp = true
    · have hread : decodeInbound aead frame l.opening l.openingIv l.aad l.lastCounter =
          (.ok p,l.bridge.outKey.sealed+1) := by
        rw [h.opening, h.openingIv, ← h.aad, h.seen hrun, hdec]
      rw [if_pos hup, if_pos hup]
      constructor
      · simp [Link.after, Link.observeAll, Link.observe, Link.receive, hread]
      · simp only [Link.after, Link.observeAll, Link.observe, Link.receive, hread]
        exact { h.fewer with seen := fun _ => rfl, outKey := hmoved }
    · rw [if_neg hup, if_neg hup]
      exact ⟨rfl,{ h.fewer with
        ended := rfl
        sent := by simp [Relay.finish]
        seen := by simp [Relay.finish]
        outKey := hmoved }⟩

theorem wire_key (i : AppInput) :
    (l.wire aead i).2 = l.sealing ∨ (l.wire aead i).2 = l.sealing.advanced := by
  cases i with
  | client received =>
    cases received with
    | message m =>
      cases m with
      | data p =>
        rw [Link.wire]
        split
        · rename_i frame key henc
          exact Or.inr (encode_ok aead _ _ l.sealing key l.aad frame henc).1
        · exact Or.inl rfl
      | _ => exact Or.inl rfl
    | _ => exact Or.inl rfl
  | _ => exact Or.inl rfl

theorem agree_ended (h : Matches (n+1) l r) (hend : r.ended.isSome = true) (i : AppInput) :
    Agree n (l.step aead i) (r.step i) := by
  have hstep (input : Input) : l.bridge.step aead input = (l.bridge,[]) := by
    simp only [Bridge.step, h.ended, hend, if_true]
  have hsealing := h.sealing
  have hkey := wire_key aead i (l := l)
  have hrelay : r.step i = (r,[]) := by simp only [Relay.step, hend, if_true]
  rw [hrelay, Link.step]
  split
  · exact ⟨rfl,h.fewer⟩
  · rename_i input key hwire
    rw [hwire] at hkey
    rw [hstep]
    refine ⟨rfl,?_⟩
    rcases hkey with rfl|rfl
    · exact h.fewer
    · exact { h.fewer with
        sent := fun hnone => absurd hnone (Option.isSome_iff_ne_none.mp hend)
        sealing := by
          show l.sealing.sealed+1+n < counters
          omega }

theorem agree_running (hc : Cipher aead) (h : Matches (n+1) l r) (hrun : r.ended = none)
    (i : AppInput) : Agree n (l.step aead i) (r.step i) := by
  have hfewer := h.fewer
  have hrelay : r.ended.isSome = false := by simp [hrun]
  have hbridge : l.bridge.ended.isSome = false := by simp [h.ended, hrun]
  simp only [Relay.step, hrelay, Bool.false_eq_true, if_false]
  cases i with
  | stray t =>
    simp only [Link.step, Link.wire, Bridge.step, hbridge, Bool.false_eq_true, if_false]
    exact ⟨rfl,hfewer⟩
  | upstreamLost =>
    simp only [Link.step, Link.wire, Bridge.step, hbridge, Bool.false_eq_true, if_false]
    exact ⟨rfl,{ hfewer with upstreamUp := rfl }⟩
  | clientLost =>
    simp only [Link.step, Link.wire, Bridge.step, hbridge, Bool.false_eq_true, if_false]
    exact ⟨rfl,{ hfewer with clientUp := rfl }⟩
  | upstream received =>
    simp only [Link.step, Link.wire, Bridge.step, hbridge, Bool.false_eq_true, if_false]
    cases received with
    | finished => exact agree_finish aead hfewer _
    | failed => exact agree_finish aead hfewer _
    | message m =>
      cases m with
      | text t => exact agree_pass aead hc h hrun (.text t) _
      | binary data => exact agree_pass aead hc h hrun (.binary data) _
      | ping p => exact agree_sendClient aead hfewer (.ping p) _ _ (fun _ => rfl)
      | pong p => exact agree_sendClient aead hfewer (.pong p) _ _ (fun _ => rfl)
      | close =>
        simp only [Bridge.upstreamToClient, Relay.fromUpstream, h.clientUp]
        exact agree_close aead hfewer r.clientUp (.toClient .close) _ (fun _ => rfl)
      | frame f => exact ⟨rfl,hfewer⟩
  | client received =>
    cases received with
    | finished =>
      simp only [Link.step, Link.wire, Bridge.step, hbridge, Bool.false_eq_true, if_false]
      exact agree_finish aead hfewer _
    | failed =>
      simp only [Link.step, Link.wire, Bridge.step, hbridge, Bool.false_eq_true, if_false]
      exact agree_finish aead hfewer _
    | message m =>
      cases m with
      | data p =>
        obtain ⟨frame,henc,hlen⟩ := encode_total_one aead hc p l.sealing l.aad
        simp only [Link.step, Link.wire, henc, Bridge.step, hbridge, Bool.false_eq_true, if_false]
        exact agree_data aead hc h hrun p frame henc hlen
      | ping p =>
        simp only [Link.step, Link.wire, control, Option.map_some, Bridge.step, hbridge,
          Bool.false_eq_true, if_false]
        exact agree_sendUpstream aead hfewer (.toUpstream (.ping p)) _ _ (fun _ => rfl)
      | pong p =>
        simp only [Link.step, Link.wire, control, Option.map_some, Bridge.step, hbridge,
          Bool.false_eq_true, if_false]
        exact agree_sendUpstream aead hfewer (.toUpstream (.pong p)) _ _ (fun _ => rfl)
      | close =>
        simp only [Link.step, Link.wire, control, Option.map_some, Bridge.step, hbridge,
          Bool.false_eq_true, if_false, Bridge.clientToUpstream, Relay.fromClient, h.upstreamUp]
        exact agree_close aead hfewer r.upstreamUp (.toUpstream .close) _ (fun _ => rfl)

theorem agree_step (hc : Cipher aead) (h : Matches (n+1) l r) (i : AppInput) :
    Agree n (l.step aead i) (r.step i) := by
  cases hend : r.ended with
  | none => exact agree_running aead hc h hend i
  | some result => exact agree_ended aead h (by simp [hend]) i

end Simulation

section Readable
variable (r : Relay) (e : WsError)

theorem sendUpstream_readable (m : UpMessage) (lost : WsError) :
    .unreadable e ∉ (r.sendUpstream m lost).2 := by
  rw [Relay.sendUpstream]
  split <;> simp

theorem sendClient_readable (m : AppMessage) (lost : WsError) :
    .unreadable e ∉ (r.sendClient m lost).2 := by
  rw [Relay.sendClient]
  split <;> simp

theorem pass_readable (p : InPayload) (overCap : WsError) :
    .unreadable e ∉ (r.pass p overCap).2 := by
  rw [Relay.pass]
  split
  · simp
  · exact sendClient_readable r e _ _

theorem fromClient_readable (received : Received AppMessage) :
    .unreadable e ∉ (r.fromClient received).2 := by
  cases received with
  | finished | failed => simp [Relay.fromClient]
  | message m =>
    cases m with
    | data p =>
      rw [Relay.fromClient]
      split
      · simp
      · exact sendUpstream_readable r e _ _
    | ping p | pong p => exact sendUpstream_readable r e _ _
    | close => cases hup : r.upstreamUp <;> simp [Relay.fromClient, hup]

theorem fromUpstream_readable (received : Received UpMessage) :
    .unreadable e ∉ (r.fromUpstream received).2 := by
  cases received with
  | finished | failed => simp [Relay.fromUpstream]
  | message m =>
    cases m with
    | text t => exact pass_readable r e _ _
    | binary data => exact pass_readable r e _ _
    | ping p | pong p => exact sendClient_readable r e _ _
    | close => cases hup : r.clientUp <;> simp [Relay.fromUpstream, hup]
    | frame f => simp [Relay.fromUpstream]

theorem relay_readable (i : AppInput) : .unreadable e ∉ (r.step i).2 := by
  unfold Relay.step
  split
  · simp
  · cases i with
    | client m => exact fromClient_readable r e m
    | upstream m => exact fromUpstream_readable r e m
    | _ => simp

end Readable

theorem matches_open (keys : WsKeys A) (aad : Bytes) (l : Link A)
    (h : openLink aead keys aad = .ok l) (n : ℕ) (hn : n < counters) :
    Matches n l Relay.start := by
  obtain ⟨bridge,hbridge,h⟩ := except_bind_eq_ok _ _ _ h
  obtain ⟨sealing,hsealing,h⟩ := except_bind_eq_ok _ _ _ h
  obtain ⟨opening,hopening,h⟩ := except_bind_eq_ok _ _ _ h
  cases h
  obtain ⟨_,-,hsealing⟩ := except_bind_eq_ok _ _ _ ((mapError_eq_ok_iff _ _ _).mp hsealing)
  obtain ⟨_,-,hopening⟩ := except_bind_eq_ok _ _ _ ((mapError_eq_ok_iff _ _ _).mp hopening)
  cases hsealing
  cases hopening
  rw [openBridge] at hbridge
  split at hbridge
  · cases hbridge
  · rename_i outKey hout
    split at hbridge
    · cases hbridge
    · rename_i inKey hin
      cases hbridge
      obtain ⟨_,-,hout⟩ := except_bind_eq_ok _ _ _ hout
      obtain ⟨_,-,hin⟩ := except_bind_eq_ok _ _ _ hin
      cases hout
      cases hin
      exact ⟨rfl,rfl,rfl,rfl,rfl,rfl,rfl,rfl,fun _ => rfl,fun _ => rfl,by simpa using hn,
        by simpa using hn⟩

/-- Client and bridge behave as the plain relay on the same sockets, for every
order of messages of the two sides, of control messages, strays and lost
connections and for every moment of the automatic replies: both sides receive the
same messages in the same order, nothing is unreadable, and the bridge ends in
the same way. -/
theorem bridge_refines_relay (hc : Cipher aead) (keys : WsKeys A) (aad : Bytes) (l : Link A)
    (h : openLink aead keys aad = .ok l) (is : List (AppInput ⊕ Side))
    (hfew : is.length < counters) :
    outputs (sockets.step (sealedRelay aead)) (l,quiet) is =
        outputs (sockets.step plainRelay) (Relay.start,quiet) is ∧
      (∀ e, .unreadable e ∉ outputs (sockets.step (sealedRelay aead)) (l,quiet) is) ∧
      (run (fun l i => (sockets.step (sealedRelay aead) l i).1) (l,quiet) is).1.bridge.ended =
        (run (fun r i => (sockets.step plainRelay r i).1) (Relay.start,quiet) is).1.ended := by
  obtain ⟨houts,hend⟩ := sockets.simulation (sealedRelay aead) plainRelay Matches
    (fun _ _ _ i hm => agree_step aead hc hm i) (fun _ _ _ hm => hm.fewer)
    (fun _ _ _ hm => by simp [sealedRelay, plainRelay, hm.ended, hm.clientUp, hm.upstreamUp])
    l Relay.start quiet is (matches_open aead keys aad l h is.length hfew)
  refine ⟨houts,fun e => ?_,hend.ended⟩
  rw [houts]
  intro hmem
  obtain ⟨r,i,hmem⟩ := mem_outputs _ _ is _ hmem
  rcases sockets.mem_step plainRelay r i _ hmem with ⟨i,hmem⟩|⟨side,reply,hreply⟩
  · exact relay_readable r.1 e i hmem
  · cases side <;> cases reply <;> cases hreply

def sampleKeys : WsKeys Unit :=
  ⟨[1],List.Vector.replicate 12 3,[2],List.Vector.replicate 12 4,()⟩

theorem zeroTagAead_cipher : Cipher zeroTagAead :=
  { zeroTagAead_sealsOpen with total := fun _ _ _ _ _ => ⟨_,rfl⟩ }

theorem conversation_relayed :
    ∃ l, openLink zeroTagAead sampleKeys [7] = .ok l ∧
      outputs (sockets.step (sealedRelay zeroTagAead)) (l,quiet)
          [.inl (.client (.message (.data (.binary [1])))),
            .inl (.upstream (.message (.binary [5,6]))),.inl (.stray "x"),
            .inl (.client (.message (.ping [3]))),.inr .client,
            .inl (.upstream (.message (.pong [3]))),.inr .client,
            .inl (.client (.message .close)),.inl (.upstream (.message (.binary [9])))] =
        [.toUpstream (.binary [1]),.toClient (.data (.binary [5,6])),.toUpstream (.ping [3]),
          .toClient (.pong [3]),.toClient (.pong [3]),.toUpstream .close] := by
  refine ⟨_,rfl,?_⟩
  rw [(bridge_refines_relay zeroTagAead zeroTagAead_cipher sampleKeys [7] _ rfl _
    (by decide)).1]
  rfl

end ArchetypeProxy.WsRelay
