import ArchetypeProxy.OpenHttpa
import ArchetypeProxy.Library.Text

/-!
# Attested WebSocket frames

A frame is a twelve-byte nonce followed by the sealed text, whose first byte
tells text from binary. The receiver reads the counter out of the nonce and
demands that it exceed the last counter it has seen. The last counter moves
before the frame is authenticated.
-/

set_option autoImplicit false

namespace ArchetypeProxy.WsFrames
open ArchetypeProxy.CounterNonce ArchetypeProxy.OpenHttpa

def msgText : UInt8 := 0x00
def msgBinary : UInt8 := 0x01

def minFrame : ℕ := 12+1+16

def maxWsFrame : ℕ := 16*1024*1024

/-- The reasons a bridge or a frame ends with, one for each text of the source. -/
inductive WsError where
  | frameTooShort (length : ℕ)
  | badNonce (reason : String)
  | nonceReplay
  | openFailed (reason : String)
  | invalidUtf8
  | unknownType (b : UInt8)
  | emptyPlaintext
  | sealFailed (reason : String)
  | outboundKey (reason : String)
  | inboundKey (reason : String)
  | clientRecv
  | upstreamRecv
  | inboundCap
  | upstreamTextCap
  | upstreamBinaryCap
  | upstreamSend
  | upstreamPing
  | upstreamPong
  | clientSend
  | clientPing
  | clientPong
  deriving DecidableEq, Repr

inductive InPayload where
  | text (t : String)
  | binary (b : Bytes)
  deriving DecidableEq

def utf8 (s : String) : Bytes := s.toUTF8.data.toList

def extractCounter (nonce : Bytes) (iv : Nonce) : ℕ := nonceCounter nonce iv

variable {A : Type}

def encodeOutbound (aead : Aead A) (typeByte : UInt8) (payload : Bytes) (key : BoundAeadKey A)
    (aad : Bytes) : Except WsError (Bytes × BoundAeadKey A) :=
  match key.seal aead aad (typeByte::payload) with
  | .error e => .error (.sealFailed e)
  | .ok (nonce,ciphertext,key') => .ok (nonce.toList++ciphertext,key')

def decodePlaintext : Bytes → Except WsError InPayload
  | [] => .error .emptyPlaintext
  | b::rest =>
    if b = msgText then
      match String.fromUTF8? ⟨rest.toArray⟩ with
      | some t => .ok (.text t)
      | none => .error .invalidUtf8
    else if b = msgBinary then .ok (.binary rest)
    else .error (.unknownType b)

def decodeInbound (aead : Aead A) (frame : Bytes) (key : AeadKey A) (iv : Nonce) (aad : Bytes)
    (lastCounter : ℕ) : Except WsError InPayload × ℕ :=
  if frame.length < minFrame then (.error (.frameTooShort frame.length),lastCounter)
  else match nonceFromSlice (frame.take 12) with
    | .error e => (.error (.badNonce e),lastCounter)
    | .ok nonce =>
      let counter := extractCounter (frame.take 12) iv
      if counter ≤ lastCounter then (.error .nonceReplay,lastCounter)
      else
        match aead.openInPlace key.algorithm key.key nonce aad (frame.drop 12) with
        | .error e => (.error (.openFailed e),counter)
        | .ok plaintext => (decodePlaintext plaintext,counter)

theorem fromUTF8_utf8 (t : String) : String.fromUTF8? ⟨(utf8 t).toArray⟩ = some t := by
  have hbytes : (⟨(utf8 t).toArray⟩ : ByteArray) = t.toUTF8 := by simp [utf8]
  rw [hbytes]
  exact dif_pos t.isValidUTF8

theorem encode_ok (aead : Aead A) (typeByte : UInt8) (payload : Bytes) (key key' : BoundAeadKey A)
    (aad frame : Bytes) (h : encodeOutbound aead typeByte payload key aad = .ok (frame,key')) :
    key' = key.advanced ∧ ∃ ciphertext, frame = key.nextNonce.toList++ciphertext ∧
      aead.sealInPlace key.algorithm key.key key.nextNonce aad (typeByte::payload) =
        .ok ciphertext := by
  unfold encodeOutbound BoundAeadKey.seal at h
  cases hs : aead.sealInPlace key.algorithm key.key key.nextNonce aad (typeByte::payload) with
  | error e => simp [hs, bind, Except.bind] at h
  | ok ciphertext =>
    simp only [hs, bind, Except.bind, pure, Except.pure, Except.ok.injEq, Prod.mk.injEq] at h
    exact ⟨h.2.symm,ciphertext,h.1.symm,rfl⟩

theorem nonceFromSlice_ok (bs : Bytes) (nonce : Nonce) (h : nonceFromSlice bs = .ok nonce) :
    bs = nonce.toList := by
  unfold nonceFromSlice at h
  split at h
  · cases h
    rfl
  · cases h

theorem decodePlaintext_error (text : Bytes) (e : WsError)
    (h : decodePlaintext text = .error e) :
    (text = [] ∧ e = .emptyPlaintext) ∨ e = .invalidUtf8 ∨ ∃ b, e = .unknownType b := by
  cases text with
  | nil =>
    cases h
    exact Or.inl ⟨rfl,rfl⟩
  | cons b rest =>
    rw [decodePlaintext] at h
    split at h
    · split at h
      · cases h
      · cases h
        exact Or.inr (Or.inl rfl)
    · split at h
      · cases h
      · cases h
        exact Or.inr (Or.inr ⟨b,rfl⟩)

/-- The ways a frame can go: refused with the last counter kept, refused by the
cipher, or opened under the nonce it carries. -/
inductive Decoding (aead : Aead A) (frame : Bytes) (key : AeadKey A) (iv : Nonce) (aad : Bytes)
    (last : ℕ) : Except WsError InPayload × ℕ → Prop where
  | short : Decoding aead frame key iv aad last (.error (.frameTooShort frame.length),last)
  | badNonce (e : String) : Decoding aead frame key iv aad last (.error (.badNonce e),last)
  | replay : Decoding aead frame key iv aad last (.error .nonceReplay,last)
  | unopened (e : String) (counter : ℕ) (hfresh : last < counter) :
    Decoding aead frame key iv aad last (.error (.openFailed e),counter)
  | opened (nonce : Nonce) (text : Bytes) (result : Except WsError InPayload) (counter : ℕ)
    (hlen : minFrame ≤ frame.length) (hnonce : frame.take 12 = nonce.toList)
    (hcounter : counter = extractCounter (frame.take 12) iv) (hfresh : last < counter)
    (hopen : aead.openInPlace key.algorithm key.key nonce aad (frame.drop 12) = .ok text)
    (hresult : decodePlaintext text = result) :
    Decoding aead frame key iv aad last (result,counter)

theorem decode_decoding (aead : Aead A) (frame : Bytes) (key : AeadKey A) (iv : Nonce)
    (aad : Bytes) (last : ℕ) :
    Decoding aead frame key iv aad last (decodeInbound aead frame key iv aad last) := by
  unfold decodeInbound
  split
  · exact .short
  · rename_i hlen
    cases hn : nonceFromSlice (frame.take 12) with
    | error e => exact .badNonce e
    | ok nonce =>
      dsimp only
      split
      · exact .replay
      · rename_i hc
        cases ho : aead.openInPlace key.algorithm key.key nonce aad (frame.drop 12) with
        | error e => exact .unopened e _ (not_le.mp hc)
        | ok text =>
          exact .opened nonce text _ _ (not_lt.mp hlen) (nonceFromSlice_ok _ nonce hn) rfl
            (not_le.mp hc) ho rfl

theorem decode_counter_le (aead : Aead A) (frame : Bytes) (key : AeadKey A) (iv : Nonce)
    (aad : Bytes) (last : ℕ) : last ≤ (decodeInbound aead frame key iv aad last).2 := by
  have hdecoding := decode_decoding aead frame key iv aad last
  generalize decodeInbound aead frame key iv aad last = r at hdecoding ⊢
  cases hdecoding with
  | short => exact le_refl _
  | badNonce e => exact le_refl _
  | replay => exact le_refl _
  | unopened e counter hfresh => exact le_of_lt hfresh
  | opened nonce text result counter hlen hnonce hcounter hfresh => exact le_of_lt hfresh

theorem decode_ok (aead : Aead A) (frame : Bytes) (key : AeadKey A) (iv : Nonce) (aad : Bytes)
    (last last' : ℕ) (p : InPayload)
    (h : decodeInbound aead frame key iv aad last = (.ok p,last')) :
    minFrame ≤ frame.length ∧ last < last' ∧ last' = extractCounter (frame.take 12) iv := by
  have hdecoding := decode_decoding aead frame key iv aad last
  rw [h] at hdecoding
  cases hdecoding with
  | opened nonce text _ _ hlen hnonce hcounter hfresh => exact ⟨hlen,hfresh,hcounter⟩

theorem decode_opened (aead : Aead A) (frame : Bytes) (key : AeadKey A) (iv : Nonce) (aad : Bytes)
    (last last' : ℕ) (p : InPayload)
    (h : decodeInbound aead frame key iv aad last = (.ok p,last')) :
    ∃ (nonce : Nonce) (text : Bytes), frame.take 12 = nonce.toList ∧
      aead.openInPlace key.algorithm key.key nonce aad (frame.drop 12) = .ok text ∧
      decodePlaintext text = .ok p := by
  have hdecoding := decode_decoding aead frame key iv aad last
  rw [h] at hdecoding
  cases hdecoding with
  | opened nonce text _ _ _ hnonce _ _ hopen hresult => exact ⟨nonce,text,hnonce,hopen,hresult⟩

end ArchetypeProxy.WsFrames
