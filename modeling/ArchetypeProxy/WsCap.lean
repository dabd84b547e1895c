import ArchetypeProxy.WsBridge
import ArchetypeProxy.WsRoundTrip

/-!
# The frame cap of the two directions

A frame from the client is measured as it arrives, a message from the upstream
before it is sealed. Nonce, type byte and tag add twenty-nine bytes, so a
message close to the cap leaves as a frame over it.
-/

set_option autoImplicit false

namespace ArchetypeProxy.WsCap
open ArchetypeProxy.CounterNonce ArchetypeProxy.OpenHttpa ArchetypeProxy.WsFrames
open ArchetypeProxy.WsBridge ArchetypeProxy.WsRoundTrip

variable {A : Type}

def Tagged (aead : Aead A) : Prop :=
  ∀ a key nonce aad text sealed,
    aead.sealInPlace a key nonce aad text = .ok sealed → sealed.length = text.length+16

def sentFrames (es : List Effect) : List Bytes :=
  es.filterMap fun
    | .toClient (.binary frame) => some frame
    | _ => none

def fromUpstream (m : InPayload) : Input := .upstream (.message (InPayload.toUpstream m))

theorem decodeInbound_not_cap (aead : Aead A) (frame : Bytes) (key : AeadKey A) (iv : Nonce)
    (aad : Bytes) (last last' : ℕ) :
    decodeInbound aead frame key iv aad last ≠ (.error .inboundCap,last') := by
  intro h
  have hdecoding := decode_decoding aead frame key iv aad last
  rw [h] at hdecoding
  cases hdecoding with
  | opened nonce text _ _ _ _ _ _ _ hresult =>
    rcases decodePlaintext_error text _ hresult with ⟨-,he⟩|he|⟨b,he⟩ <;> cases he

theorem receiveFrame_cap_iff (aead : Aead A) (b : Bridge A) (frame : Bytes)
    (h : b.ended = none) :
    (b.receiveFrame aead frame).1.ended = some (.error .inboundCap) ↔
      maxWsFrame < frame.length := by
  unfold Bridge.receiveFrame
  by_cases hcap : maxWsFrame < frame.length
  · simp [hcap, Bridge.finish]
  · rw [if_neg hcap]
    refine iff_of_false ?_ hcap
    cases hd : decodeInbound aead frame b.inKey b.inIv b.aad b.lastCounter with
    | mk result last =>
      cases result with
      | error e =>
        have hne : e ≠ .inboundCap := by
          rintro rfl
          exact decodeInbound_not_cap aead frame b.inKey b.inIv b.aad b.lastCounter last hd
        simpa [Bridge.finish] using hne
      | ok payload =>
        cases hu : b.upstreamUp <;> simp [Bridge.sendUpstream, Bridge.finish, h]

theorem sealFrame_sent (aead : Aead A) (htag : Tagged aead) (b : Bridge A) (typeByte : UInt8)
    (payload : Bytes) (overCap : WsError) (hup : b.clientUp = true)
    (h : Bridge.seals.sealable aead b payload typeByte = true) :
    ∃ frame, sentFrames (b.sealFrame aead typeByte payload overCap).2 = [frame] ∧
      frame.length = payload.length+29 := by
  obtain ⟨hcap,hok⟩ := (Bool.and_eq_true _ _).mp h
  have hle : ¬ maxWsFrame < payload.length := not_lt.mpr (of_decide_eq_true hcap)
  cases henc : encodeOutbound aead typeByte payload b.outKey b.aad with
  | error e => simp [henc, Except.isOk, Except.toBool] at hok
  | ok sealing =>
    obtain ⟨frame,key⟩ := sealing
    obtain ⟨-,ciphertext,hframe,hseal⟩ := encode_ok aead typeByte payload _ key b.aad frame henc
    have hlen := htag _ _ _ _ _ _ hseal
    refine ⟨frame,?_,?_⟩
    · simp [Bridge.sealFrame, hle, henc, Bridge.sendClient, hup, sentFrames]
    · rw [hframe, List.length_append, hlen, List.Vector.toList_length, List.length_cons]
      omega

theorem upstream_message_sent (aead : Aead A) (htag : Tagged aead) (b : Bridge A) (m : InPayload)
    (hup : b.clientUp = true) (h : b.seals aead (fromUpstream m) = true) :
    ∃ frame, sentFrames (b.step aead (fromUpstream m)).2 = [frame] ∧
      frame.length = (payloadBytes m).length+29 := by
  obtain ⟨hrun,hseal⟩ := (Bool.and_eq_true _ _).mp h
  have hended : b.ended.isSome = false := by simpa using hrun
  have hstep : b.step aead (fromUpstream m) =
      b.upstreamToClient aead (.message (InPayload.toUpstream m)) := by
    simp [Bridge.step, hended, fromUpstream]
  rw [hstep]
  cases m with
  | text t => exact sealFrame_sent aead htag b msgText (utf8 t) .upstreamTextCap hup hseal
  | binary data => exact sealFrame_sent aead htag b msgBinary data .upstreamBinaryCap hup hseal

def PassesCap (aead : Aead A) (frame : Bytes) : Prop :=
  frame.length ≤ maxWsFrame ∧ ∀ r : Bridge A, r.ended = none →
    (r.receiveFrame aead frame).1.ended ≠ some (.error .inboundCap)

theorem passesCap_iff (aead : Aead A) (frame : Bytes) :
    PassesCap aead frame ↔ frame.length ≤ maxWsFrame := by
  constructor
  · intro h
    exact h.1
  · intro h
    refine ⟨h,fun r hr => ?_⟩
    rw [ne_eq, receiveFrame_cap_iff aead r frame hr]
    exact not_lt.mpr h

/-- An accepted message leaves as a frame within the cap exactly when it is at
least twenty-nine bytes shorter than the cap. -/
theorem sent_frame_passes_cap_iff (aead : Aead A) (htag : Tagged aead) (b : Bridge A)
    (m : InPayload) (hup : b.clientUp = true) (h : b.seals aead (fromUpstream m) = true) :
    (∃ frame, sentFrames (b.step aead (fromUpstream m)).2 = [frame] ∧ PassesCap aead frame) ↔
      (payloadBytes m).length+29 ≤ maxWsFrame := by
  obtain ⟨frame,hsent,hlen⟩ := upstream_message_sent aead htag b m hup h
  rw [← hlen]
  constructor
  · rintro ⟨frame',hsent',hpass⟩
    rw [hsent] at hsent'
    cases hsent'
    exact hpass.1
  · intro hle
    exact ⟨frame,hsent,(passesCap_iff aead frame).mpr hle⟩

def freshBridge : Bridge Unit :=
  ⟨⟨(),[1],List.Vector.replicate 12 3,0⟩,⟨(),[2]⟩,List.Vector.replicate 12 3,[7],0,true,true,none⟩

theorem zeroTagAead_tagged : Tagged zeroTagAead := zeroTagAead_sealsOpen.tag

theorem short_message_passes_cap :
    ∃ frame,
      sentFrames (freshBridge.step zeroTagAead (fromUpstream (.binary [1,2,3]))).2 = [frame] ∧
        PassesCap zeroTagAead frame :=
  (sent_frame_passes_cap_iff zeroTagAead zeroTagAead_tagged freshBridge (.binary [1,2,3]) rfl
    (by decide)).mpr (by decide)

theorem full_message_exceeds_cap :
    freshBridge.seals zeroTagAead (fromUpstream (.binary (List.replicate maxWsFrame 0))) = true ∧
      ¬ ∃ frame, sentFrames (freshBridge.step zeroTagAead
          (fromUpstream (.binary (List.replicate maxWsFrame 0)))).2 = [frame] ∧
        PassesCap zeroTagAead frame := by
  have hseals : freshBridge.seals zeroTagAead
      (fromUpstream (.binary (List.replicate maxWsFrame 0))) = true := by
    have hcap : (List.replicate maxWsFrame (0 : UInt8)).length ≤ maxWsFrame := by simp
    exact (Bool.and_eq_true _ _).mpr ⟨rfl,(Bool.and_eq_true _ _).mpr ⟨decide_eq_true hcap,rfl⟩⟩
  refine ⟨hseals,?_⟩
  rintro ⟨frame,hsent,hpass⟩
  obtain ⟨frame',hsent',hlen⟩ := upstream_message_sent zeroTagAead zeroTagAead_tagged freshBridge
    (.binary (List.replicate maxWsFrame 0)) rfl hseals
  rw [hsent] at hsent'
  cases hsent'
  have hle := hpass.1
  rw [hlen, payloadBytes, List.length_replicate] at hle
  omega

end ArchetypeProxy.WsCap
