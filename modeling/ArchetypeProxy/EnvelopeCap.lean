import ArchetypeProxy.Library.Numerals
import ArchetypeProxy.TrustedRequest
import ArchetypeProxy.WsFrames

/-!
# The cap of the encrypted envelope

The envelope is measured before it is decrypted and the plaintext after it. The
cap of the envelope is computed in machine words, and has to allow for the tag,
for two digits a byte and for the text around them.
-/

set_option autoImplicit false

namespace ArchetypeProxy.EnvelopeCap
open ArchetypeProxy.Text ArchetypeProxy.Numerals ArchetypeProxy.CounterNonce
open ArchetypeProxy.TrustedRequest ArchetypeProxy.WsFrames

variable {S A : Type}

section Words

def overflowingAdd (a b : UInt64) : UInt64 × Bool := (a+b,decide (a+b < a))

/-- The wrapped product, and whether the upper word of the product is set. -/
def overflowingMul (a b : UInt64) : UInt64 × Bool := (a*b,decide (a.toNat*b.toNat/2^64 ≠ 0))

def saturate (r : UInt64 × Bool) : UInt64 := if r.2 then UInt64.ofNat usizeMax else r.1

theorem saturate_toNat (r : UInt64 × Bool) (value : ℕ)
    (h : r.2 = true → usizeMax ≤ value) (h' : r.2 = false → r.1.toNat = value) :
    (saturate r).toNat = min value usizeMax := by
  have hword := r.1.toNat_lt
  cases hr : r.2 with
  | true =>
    rw [saturate, hr, if_pos rfl, min_eq_right (h hr)]
    rfl
  | false =>
    rw [saturate, hr, if_neg Bool.false_ne_true, ← h' hr, min_eq_left]
    exact Nat.le_pred_of_lt hword

theorem overflowingAdd_saturates (a b : UInt64) :
    (saturate (overflowingAdd a b)).toNat = saturatingAdd a.toNat b.toNat := by
  have ha := a.toNat_lt
  have hb := b.toNat_lt
  have hsum : (a+b).toNat = (a.toNat+b.toNat)%2^64 := UInt64.toNat_add a b
  apply saturate_toNat
  · intro h
    have hlt := UInt64.lt_iff_toNat_lt.mp (of_decide_eq_true h)
    unfold usizeMax
    omega
  · intro h
    have hge := mt UInt64.lt_iff_toNat_lt.mpr (of_decide_eq_false h)
    show (a+b).toNat = a.toNat+b.toNat
    omega

theorem overflowingMul_saturates (a b : UInt64) :
    (saturate (overflowingMul a b)).toNat = saturatingMul a.toNat b.toNat := by
  have hproduct : (a*b).toNat = a.toNat*b.toNat%2^64 := UInt64.toNat_mul a b
  apply saturate_toNat
  · intro h
    have hupper := of_decide_eq_true h
    unfold usizeMax
    omega
  · intro h
    have hupper := of_decide_eq_false h
    show (a*b).toNat = a.toNat*b.toNat
    omega

def preDecryptCapWord (maxBodyBytes : UInt64) : UInt64 :=
  saturate (overflowingAdd
    (saturate (overflowingMul (saturate (overflowingAdd maxBodyBytes 16)) 2))
    (UInt64.ofNat jsonOverhead))

theorem preDecryptCapWord_toNat (maxBodyBytes : UInt64) :
    (preDecryptCapWord maxBodyBytes).toNat = preDecryptCap maxBodyBytes.toNat := by
  rw [preDecryptCapWord, overflowingAdd_saturates, overflowingMul_saturates,
    overflowingAdd_saturates]
  rfl

end Words

/-- No step of the computation loses what a later one would have kept. -/
theorem preDecryptCap_eq_min (maxBodyBytes : ℕ) :
    preDecryptCap maxBodyBytes = min (2*(maxBodyBytes+16)+jsonOverhead) usizeMax := by
  unfold preDecryptCap saturatingAdd saturatingMul jsonOverhead usizeMax
  omega

def envelopeText (ciphertext : Bytes) : String :=
  "\x7b\"ciphertext\":\""++hexEncode ciphertext++"\"\x7d"

def envelope (ciphertext : Bytes) : Bytes := utf8 (envelopeText ciphertext)

theorem utf8_length (s : String) : (utf8 s).length = s.utf8ByteSize := by
  rw [utf8, Array.length_toList]
  exact String.size_toByteArray

theorem envelope_length (ciphertext : Bytes) :
    (envelope ciphertext).length = 2*ciphertext.length+17 := by
  have htext : envelopeText ciphertext =
      "\x7b\"ciphertext\":\""++hexEncode ciphertext++"\"\x7d" := rfl
  rw [envelope, utf8_length, htext, String.utf8ByteSize_append, String.utf8ByteSize_append,
    utf8ByteSize_hexEncode]
  show 15+2*ciphertext.length+2 = 2*ciphertext.length+17
  omega

/-- A plaintext the handler accepts has an envelope within the cap, and an
envelope within the cap carries at most twenty-three bytes more. The words
compute the exact cap, or the largest word where it exceeds that. -/
theorem envelope_cap_admits_and_bounds (maxBodyBytes : UInt64) (plaintext ciphertext : Bytes)
    (htag : ciphertext.length = plaintext.length+16) :
    (plaintext.length ≤ maxBodyBytes.toNat → (envelope ciphertext).length ≤ usizeMax →
      (envelope ciphertext).length ≤ preDecryptCap maxBodyBytes.toNat) ∧
    (2*(maxBodyBytes.toNat+16)+jsonOverhead ≤ usizeMax →
      (envelope ciphertext).length ≤ preDecryptCap maxBodyBytes.toNat →
        plaintext.length ≤ maxBodyBytes.toNat+23) ∧
    (preDecryptCapWord maxBodyBytes).toNat = preDecryptCap maxBodyBytes.toNat ∧
    preDecryptCap maxBodyBytes.toNat =
      min (2*(maxBodyBytes.toNat+16)+jsonOverhead) usizeMax := by
  refine ⟨?_,?_,preDecryptCapWord_toNat maxBodyBytes,preDecryptCap_eq_min maxBodyBytes.toNat⟩
  · intro hmax hfits
    rw [envelope_length] at hfits ⊢
    rw [preDecryptCap_eq_min, le_min_iff]
    refine ⟨?_,hfits⟩
    unfold jsonOverhead
    omega
  · intro hexact hcap
    rw [envelope_length, preDecryptCap_eq_min, min_eq_left hexact] at hcap
    unfold jsonOverhead at hcap
    omega

theorem short_envelopes_within_cap :
    (envelope (List.replicate 19 0)).length ≤ preDecryptCap 3 ∧
      (List.replicate 26 (0 : UInt8)).length ≤ 3+23 :=
  ⟨(envelope_cap_admits_and_bounds 3 [1,2,3] (List.replicate 19 0) rfl).1 (by decide)
      ((envelope_length _).trans_le (by decide)),
    (envelope_cap_admits_and_bounds 3 (List.replicate 26 0) (List.replicate 42 0) rfl).2.1
      (by decide) ((envelope_length _).trans_le (by decide))⟩

end ArchetypeProxy.EnvelopeCap
