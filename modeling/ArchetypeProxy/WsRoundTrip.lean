import ArchetypeProxy.WsFrames

/-!
# Round trip of a conversation

A conversation is sealed in order under a fresh bound key and decoded in order
from a last counter of zero. Frame number `k` carries the counter `k`, which
the decoder demands to exceed the one before. Sealing and opening are inputs:
opening inverts sealing, and a sealed text is sixteen bytes longer.
-/

set_option autoImplicit false

namespace ArchetypeProxy.WsRoundTrip
open ArchetypeProxy.CounterNonce ArchetypeProxy.OpenHttpa ArchetypeProxy.WsFrames

variable {A : Type}

def typeByte : InPayload → UInt8
  | .text _ => msgText
  | .binary _ => msgBinary

def payloadBytes : InPayload → Bytes
  | .text t => utf8 t
  | .binary b => b

def plaintext (m : InPayload) : Bytes := typeByte m::payloadBytes m

def encodeAll (aead : Aead A) (aad : Bytes) :
    BoundAeadKey A → List InPayload → Except WsError (List Bytes × BoundAeadKey A)
  | key, [] => .ok ([],key)
  | key, m::ms =>
    match encodeOutbound aead (typeByte m) (payloadBytes m) key aad with
    | .error e => .error e
    | .ok (frame,key') =>
      match encodeAll aead aad key' ms with
      | .error e => .error e
      | .ok (frames,last) => .ok (frame::frames,last)

def decodeAll (aead : Aead A) (key : AeadKey A) (iv : Nonce) (aad : Bytes) :
    ℕ → List Bytes → Except WsError (List InPayload) × ℕ
  | last, [] => (.ok [],last)
  | last, frame::frames =>
    match decodeInbound aead frame key iv aad last with
    | (.error e,last') => (.error e,last')
    | (.ok m,last') =>
      match decodeAll aead key iv aad last' frames with
      | (.error e,last'') => (.error e,last'')
      | (.ok ms,last'') => (.ok (m::ms),last'')

structure SealsOpen (aead : Aead A) : Prop where
  inverts : ∀ a key nonce aad text sealed,
    aead.sealInPlace a key nonce aad text = .ok sealed →
      aead.openInPlace a key nonce aad sealed = .ok text
  tag : ∀ a key nonce aad text sealed,
    aead.sealInPlace a key nonce aad text = .ok sealed → sealed.length = text.length+16

theorem decodePlaintext_plaintext (m : InPayload) : decodePlaintext (plaintext m) = .ok m := by
  cases m with
  | text t =>
    simp only [plaintext, typeByte, payloadBytes, decodePlaintext, if_true, fromUTF8_utf8]
  | binary b =>
    have hne : msgBinary ≠ msgText := by decide
    simp only [plaintext, typeByte, payloadBytes, decodePlaintext, hne, if_false, if_true]

theorem decode_encode (aead : Aead A) (h : SealsOpen aead) (m : InPayload)
    (key key' : BoundAeadKey A) (aad frame : Bytes) (hlt : key.sealed+1 < counters)
    (henc : encodeOutbound aead (typeByte m) (payloadBytes m) key aad = .ok (frame,key')) :
    decodeInbound aead frame ⟨key.algorithm,key.key⟩ key.iv aad key.sealed =
      (.ok m,key.sealed+1) := by
  obtain ⟨_,ciphertext,rfl,hseal⟩ := encode_ok aead _ _ key key' aad frame henc
  have hlen := h.tag _ _ _ _ _ _ hseal
  have hopen := h.inverts _ _ _ _ _ _ hseal
  have hnonce : key.nextNonce.toList.length = 12 := key.nextNonce.toList_length
  have htake : (key.nextNonce.toList++ciphertext).take 12 = key.nextNonce.toList := by
    rw [List.take_append_of_le_length (by omega), List.take_of_length_le (by omega)]
  have hdrop : (key.nextNonce.toList++ciphertext).drop 12 = ciphertext := by
    rw [List.drop_append_of_le_length (by omega), List.drop_eq_nil_of_le (by omega),
      List.nil_append]
  have hcounter : extractCounter key.nextNonce.toList key.iv = key.sealed+1 := by
    rw [extractCounter, BoundAeadKey.nextNonce, nonceCounter_counterNonce, Nat.mod_eq_of_lt hlt]
  have hslice : nonceFromSlice key.nextNonce.toList = .ok key.nextNonce := by
    rw [nonceFromSlice, dif_pos hnonce]
    rfl
  have hlong : ¬ (key.nextNonce.toList++ciphertext).length < minFrame := by
    simp only [List.length_append, hnonce, hlen, List.length_cons, minFrame]
    omega
  have hfresh : ¬ key.sealed+1 ≤ key.sealed := by omega
  simp only [decodeInbound, hlong, if_false, htake, hslice, hcounter, hfresh, hdrop, hopen]
  rw [← plaintext, decodePlaintext_plaintext]

theorem decode_encode_all (aead : Aead A) (h : SealsOpen aead) (aad : Bytes)
    (ms : List InPayload) (key key' : BoundAeadKey A) (frames : List Bytes)
    (hlt : key.sealed+ms.length < counters)
    (henc : encodeAll aead aad key ms = .ok (frames,key')) :
    decodeAll aead ⟨key.algorithm,key.key⟩ key.iv aad key.sealed frames =
      (.ok ms,key.sealed+ms.length) := by
  induction ms generalizing key frames with
  | nil =>
    cases henc
    rfl
  | cons m ms ih =>
    rw [List.length_cons] at hlt
    unfold encodeAll at henc
    split at henc
    · cases henc
    · rename_i frame next hm
      split at henc
      · cases henc
      · rename_i rest last hms
        cases henc
        obtain ⟨hnext,_⟩ := encode_ok aead _ _ key next aad frame hm
        have hsealed : next.sealed = key.sealed+1 := by rw [hnext]; rfl
        have hrest := ih next rest (by omega) hms
        rw [hnext] at hrest
        rw [decodeAll, decode_encode aead h m key next aad frame (by omega) hm]
        dsimp only
        rw [show key.sealed+1 = key.advanced.sealed from rfl]
        simp only [BoundAeadKey.advanced] at hrest ⊢
        rw [hrest]
        simp only [List.length_cons, Prod.mk.injEq, true_and]
        omega

theorem encode_total (aead : Aead A) (aad : Bytes) (ms : List InPayload) (key : BoundAeadKey A)
    (hseal : ∀ nonce text, ∃ sealed,
      aead.sealInPlace key.algorithm key.key nonce aad text = .ok sealed) :
    ∃ frames key', encodeAll aead aad key ms = .ok (frames,key') ∧ frames.length = ms.length := by
  induction ms generalizing key with
  | nil => exact ⟨[],key,rfl,rfl⟩
  | cons m ms ih =>
    obtain ⟨sealed,hs⟩ := hseal key.nextNonce (typeByte m::payloadBytes m)
    have hm : encodeOutbound aead (typeByte m) (payloadBytes m) key aad =
        .ok (key.nextNonce.toList++sealed,key.advanced) := by
      simp [encodeOutbound, BoundAeadKey.seal, hs, bind, Except.bind, pure, Except.pure]
    obtain ⟨frames,key',hms,hlen⟩ := ih key.advanced hseal
    exact ⟨(key.nextNonce.toList++sealed)::frames,key',by simp only [encodeAll, hm, hms],
      by simp [hlen]⟩

/-- A whole conversation comes back as it was sealed, and the last counter is
the number of its messages. A cipher that never refuses seals all of it. -/
theorem conversation_round_trip (aead : Aead A) (h : SealsOpen aead) (algorithm : A) (key : Bytes)
    (iv : Nonce) (aad : Bytes) (out : BoundAeadKey A) (inKey : AeadKey A) (ms : List InPayload)
    (hout : BoundAeadKey.new aead algorithm key iv = .ok out)
    (hin : AeadKey.new aead algorithm key = .ok inKey) (hlt : ms.length < counters) :
    (∀ frames out', encodeAll aead aad out ms = .ok (frames,out') →
      decodeAll aead inKey iv aad 0 frames = (.ok ms,ms.length)) ∧
    ((∀ nonce text, ∃ sealed, aead.sealInPlace algorithm key nonce aad text = .ok sealed) →
      ∃ frames out', encodeAll aead aad out ms = .ok (frames,out') ∧
        frames.length = ms.length) := by
  unfold BoundAeadKey.new at hout
  unfold AeadKey.new at hin
  cases hk : aead.newKey algorithm key with
  | error e => simp [hk, bind, Except.bind] at hout
  | ok _ =>
    simp only [hk, bind, Except.bind, pure, Except.pure, Except.ok.injEq] at hout hin
    subst hout
    subst hin
    constructor
    · intro frames out' henc
      have hall := decode_encode_all aead h aad ms ⟨algorithm,key,iv,0⟩ out' frames
        (by simpa using hlt) henc
      simpa using hall
    · exact encode_total aead aad ms ⟨algorithm,key,iv,0⟩

def zeroTagAead : Aead Unit where
  newKey := fun _ _ => .ok ()
  sealInPlace := fun _ _ _ _ text => .ok (text++List.replicate 16 0)
  openInPlace := fun _ _ _ _ sealed =>
    if sealed.drop (sealed.length-16) = List.replicate 16 0 then
      .ok (sealed.take (sealed.length-16))
    else .error "tag mismatch"

theorem zeroTagAead_sealsOpen : SealsOpen zeroTagAead where
  inverts := by
    intro a key nonce aad text sealed h
    cases h
    simp [zeroTagAead]
  tag := by
    intro a key nonce aad text sealed h
    cases h
    simp

theorem empty_messages_round_trip :
    ∃ frames out', encodeAll zeroTagAead [7] ⟨(),[1],List.Vector.replicate 12 3,0⟩
        [.text "",.binary [],.binary [1,2,3]] = .ok (frames,out') ∧
      decodeAll zeroTagAead ⟨(),[1]⟩ (List.Vector.replicate 12 3) [7] 0 frames =
        (.ok [.text "",.binary [],.binary [1,2,3]],3) := by
  obtain ⟨hback,htotal⟩ := conversation_round_trip zeroTagAead zeroTagAead_sealsOpen () [1]
    (List.Vector.replicate 12 3) [7] ⟨(),[1],List.Vector.replicate 12 3,0⟩ ⟨(),[1]⟩
    [.text "",.binary [],.binary [1,2,3]] rfl rfl (by decide)
  obtain ⟨frames,out',henc,_⟩ := htotal fun nonce text => ⟨_,rfl⟩
  exact ⟨frames,out',henc,hback frames out' henc⟩

end ArchetypeProxy.WsRoundTrip
