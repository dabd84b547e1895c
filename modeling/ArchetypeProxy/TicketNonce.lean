import ArchetypeProxy.TrustedRequest
import ArchetypeProxy.WsFrames

/-!
# Nonce and counter of a frame

The extractor writes the counter of a ticket into the vector byte by byte, and
the WebSocket decoder reads it out byte by byte. The two loops are inverse to
each other, so the nonces of one vector are as distinct as their counters.
-/

set_option autoImplicit false

namespace ArchetypeProxy.TicketNonce
open ArchetypeProxy.CounterNonce ArchetypeProxy.OpenHttpa ArchetypeProxy.WsFrames

/-- The loop of the extractor: byte `i` of the counter goes into byte `4+i`. -/
def nonceBytes (iv : Nonce) (nonceVal : UInt64) : Bytes :=
  (beBytes nonceVal.toNat).zipIdx.foldl
    (fun bytes e => bytes.modify (4+e.2) (· ^^^ e.1)) iv.toList

def counterBytes (nonce : Bytes) (iv : Nonce) : Bytes :=
  (((nonce.drop 4).take 8).zip ((iv.toList.drop 4).take 8)).zipIdx.foldl
    (fun counter e => counter.modify (0+e.2) (fun _ => e.1.1 ^^^ e.1.2)) (List.replicate 8 0)

def counterOf (nonce : Bytes) (iv : Nonce) : UInt64 :=
  UInt64.ofNat (ofBeBytes (counterBytes nonce iv))

theorem nonceBytes_eq (iv : Nonce) (c : UInt64) :
    nonceBytes iv c = (counterNonce iv c.toNat).toList := by
  have hloop := foldl_modify (fun k b => b ^^^ k) (iv.toList.take 4) (iv.toList.drop 4)
    (beBytes c.toNat) 4 0 (by simp) (by simp [beBytes_length])
  have hend : (iv.toList.drop 4).drop (beBytes c.toNat).length = [] :=
    List.drop_eq_nil_of_le (by simp [beBytes_length])
  rw [List.take_append_drop, hend, List.append_nil] at hloop
  exact hloop

theorem counterBytes_eq (nonce iv : Nonce) :
    counterBytes nonce.toList iv =
      xorBytes ((nonce.toList.drop 4).take 8) (iv.toList.drop 4) := by
  have hiv : (iv.toList.drop 4).take 8 = iv.toList.drop 4 := List.take_of_length_le (by simp)
  have hlength : (((nonce.toList.drop 4).take 8).zip (iv.toList.drop 4)).length = 8 := by simp
  have hloop := foldl_modify (fun p _ => p.1 ^^^ p.2) [] (List.replicate 8 (0 : UInt8))
    (((nonce.toList.drop 4).take 8).zip (iv.toList.drop 4)) 0 0 rfl (by simp)
  have hend : (List.replicate 8 (0 : UInt8)).drop 8 = [] := rfl
  rw [hlength, hend, List.append_nil, List.nil_append, List.nil_append,
    zipWith_overwrite _ _ _ (by simp), List.map_zip_eq_zipWith] at hloop
  rw [counterBytes, hiv]
  exact hloop

theorem counterOf_toNat (nonce iv : Nonce) :
    (counterOf nonce.toList iv).toNat = extractCounter nonce.toList iv := by
  rw [counterOf, UInt64.toNat_ofNat', counterBytes_eq, extractCounter, nonceCounter]
  exact Nat.mod_eq_of_lt (nonceCounter_lt nonce iv)

/-- The counter comes back from its nonce, a nonce that begins like the vector
comes back from its counter, and distinct counters have distinct nonces. -/
theorem nonce_counter_inverse (iv : Nonce) :
    (∀ c : UInt64, counterOf (nonceBytes iv c) iv = c) ∧
      (∀ nonce : Nonce, nonce.toList.take 4 = iv.toList.take 4 →
        nonceBytes iv (counterOf nonce.toList iv) = nonce.toList) ∧
      ∀ c d : UInt64, nonceBytes iv c = nonceBytes iv d → c = d := by
  have hback : ∀ c : UInt64, counterOf (nonceBytes iv c) iv = c := by
    intro c
    rw [nonceBytes_eq, ← UInt64.toNat_inj, counterOf_toNat, extractCounter,
      nonceCounter_counterNonce]
    exact Nat.mod_eq_of_lt c.toNat_lt
  refine ⟨hback,?_,?_⟩
  · intro nonce htake
    rw [nonceBytes_eq, counterOf_toNat, extractCounter, counterNonce_nonceCounter nonce iv htake]
  · intro c d h
    rw [← hback c, h, hback d]

def vector : Nonce := List.Vector.replicate 12 3

def laterNonce : Nonce := ⟨[3,3,3,3,3,3,3,3,3,3,2,1],rfl⟩

theorem later_nonce_rebuilt :
    nonceBytes vector (counterOf laterNonce.toList vector) = laterNonce.toList :=
  (nonce_counter_inverse vector).2.1 laterNonce rfl

end ArchetypeProxy.TicketNonce
