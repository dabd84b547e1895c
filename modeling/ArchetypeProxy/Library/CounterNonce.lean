import Mathlib.Data.List.Induction
import Mathlib.Data.List.Zip
import Mathlib.Data.Vector.Basic

/-!
# Nonces that carry a counter

A twelve-byte nonce is an initialisation vector whose last eight bytes are
combined by exclusive or with a big-endian 64-bit counter. The counter is
recovered from the nonce, so nonces of one vector are distinct as long as
their counters are distinct below the 64-bit bound.
-/

set_option autoImplicit false

namespace ArchetypeProxy.CounterNonce

abbrev Bytes := List UInt8

abbrev Nonce := List.Vector UInt8 12

def counters : ℕ := 2^64

/-- The eight big-endian bytes of the counter modulo the 64-bit bound. -/
def beBytes (c : ℕ) : Bytes :=
  [c/2^56, c/2^48, c/2^40, c/2^32, c/2^24, c/2^16, c/2^8, c].map UInt8.ofNat

def ofBeBytes (bs : Bytes) : ℕ := bs.foldl (fun acc b => 256*acc+b.toNat) 0

theorem beBytes_length (c : ℕ) : (beBytes c).length = 8 := rfl

def lowBytes : ℕ → ℕ → Bytes
  | 0, _ => []
  | n+1, c => lowBytes n (c/256)++[UInt8.ofNat c]

theorem beBytes_eq_lowBytes (c : ℕ) : beBytes c = lowBytes 8 c := by
  simp [beBytes, lowBytes, Nat.div_div_eq_div_mul]

theorem ofBeBytes_concat (bs : Bytes) (b : UInt8) :
    ofBeBytes (bs++[b]) = 256*ofBeBytes bs+b.toNat := by
  simp [ofBeBytes]

theorem ofBeBytes_lowBytes (n c : ℕ) : ofBeBytes (lowBytes n c) = c % 256^n := by
  induction n generalizing c with
  | zero => simp [lowBytes, ofBeBytes, Nat.mod_one]
  | succ n ih =>
    rw [lowBytes, ofBeBytes_concat, ih, UInt8.toNat_ofNat', pow_succ' 256 n, Nat.mod_mul, add_comm]

theorem ofBeBytes_beBytes (c : ℕ) : ofBeBytes (beBytes c) = c % counters := by
  rw [beBytes_eq_lowBytes, ofBeBytes_lowBytes]
  rfl

theorem ofBeBytes_lt (bs : Bytes) : ofBeBytes bs < 256^bs.length := by
  induction bs using List.reverseRecOn with
  | nil => simp [ofBeBytes]
  | append_singleton bs b ih =>
    have hb := b.toNat_lt
    rw [ofBeBytes_concat, List.length_append, List.length_singleton, pow_succ]
    omega

theorem lowBytes_ofBeBytes (bs : Bytes) : lowBytes bs.length (ofBeBytes bs) = bs := by
  induction bs using List.reverseRecOn with
  | nil => rfl
  | append_singleton bs b ih =>
    have hb := b.toNat_lt
    have hdiv : (256*ofBeBytes bs+b.toNat)/256 = ofBeBytes bs := by omega
    have hlow : UInt8.ofNat (256*ofBeBytes bs+b.toNat) = b := by
      rw [← UInt8.toNat_inj, UInt8.toNat_ofNat']
      omega
    rw [List.length_append, List.length_singleton, lowBytes, ofBeBytes_concat, hdiv, hlow, ih]

theorem foldl_modify {α β : Type} (g : β → α → α) (done bs : List α) (xs : List β) (k i : ℕ)
    (h : done.length = k+i) (hle : xs.length ≤ bs.length) :
    (xs.zipIdx i).foldl (fun acc e => acc.modify (k+e.2) (g e.1)) (done++bs) =
      done++List.zipWith (fun b x => g x b) bs xs++bs.drop xs.length := by
  induction xs generalizing done bs i with
  | nil => simp
  | cons x xs ih =>
    cases bs with
    | nil => simp at hle
    | cons b bs =>
      have hplace : (done++b::bs).modify (k+i) (g x) = done++g x b::bs := by
        rw [← h]
        exact List.modifyTailIdx_add (List.modifyHead (g x)) 0 done (b::bs)
      have hrest := ih (done++[g x b]) bs (i+1) (by simp [h, add_assoc]) (by simpa using hle)
      rw [List.zipIdx_cons, List.foldl_cons, hplace]
      simpa using hrest

theorem zipWith_overwrite {α β : Type} (f : β → α) (bs : List α) (xs : List β)
    (h : xs.length ≤ bs.length) : List.zipWith (fun _ x => f x) bs xs = xs.map f := by
  induction xs generalizing bs with
  | nil => simp
  | cons x xs ih =>
    cases bs with
    | nil => simp at h
    | cons b bs => rw [List.zipWith_cons_cons, ih bs (by simpa using h), List.map_cons]

def xorBytes (as bs : Bytes) : Bytes := List.zipWith (· ^^^ ·) as bs

theorem xorBytes_cancel (as bs : Bytes) (h : as.length = bs.length) :
    xorBytes (xorBytes as bs) as = bs := by
  induction as generalizing bs with
  | nil => simpa [xorBytes, eq_comm] using h
  | cons a as ih =>
    cases bs with
    | nil => simp at h
    | cons b bs =>
      have hab : a ^^^ b ^^^ a = b := by rw [UInt8.xor_comm a b, UInt8.xor_assoc]; simp
      have ht := ih bs (by simpa using h)
      simp only [xorBytes, List.zipWith_cons_cons] at *
      rw [hab, ht]

theorem xorBytes_cancel_right (as bs : Bytes) (h : as.length = bs.length) :
    xorBytes as (xorBytes bs as) = bs := by
  have hcomm (xs ys : Bytes) : xorBytes xs ys = xorBytes ys xs :=
    List.zipWith_comm_of_comm UInt8.xor_comm
  rw [hcomm, hcomm bs as]
  exact xorBytes_cancel as bs h

/-- The counter enters the last eight bytes of the vector. -/
def counterNonce (iv : Nonce) (c : ℕ) : Nonce :=
  ⟨iv.toList.take 4 ++ xorBytes (iv.toList.drop 4) (beBytes c),by
    simp [xorBytes, beBytes_length]⟩

def nonceCounter (nonce : Bytes) (iv : Nonce) : ℕ :=
  ofBeBytes (xorBytes ((nonce.drop 4).take 8) (iv.toList.drop 4))

theorem nonceCounter_counterNonce (iv : Nonce) (c : ℕ) :
    nonceCounter (counterNonce iv c).toList iv = c % counters := by
  have h4 : (iv.toList.take 4).length = 4 := by simp
  have h8 : (xorBytes (iv.toList.drop 4) (beBytes c)).length = 8 := by
    simp [xorBytes, beBytes_length]
  have hdrop : (counterNonce iv c).toList.drop 4 = xorBytes (iv.toList.drop 4) (beBytes c) := by
    change (iv.toList.take 4 ++ _).drop 4 = _
    rw [List.drop_append_of_le_length (by omega), List.drop_eq_nil_of_le (by omega)]
    rfl
  rw [nonceCounter, hdrop, List.take_of_length_le (by omega),
    xorBytes_cancel _ _ (by simp [beBytes_length]), ofBeBytes_beBytes]

theorem nonceCounter_lt (nonce iv : Nonce) : nonceCounter nonce.toList iv < counters := by
  have hlt := ofBeBytes_lt (xorBytes ((nonce.toList.drop 4).take 8) (iv.toList.drop 4))
  have hlength : (xorBytes ((nonce.toList.drop 4).take 8) (iv.toList.drop 4)).length = 8 := by
    simp [xorBytes]
  rw [hlength] at hlt
  exact hlt

theorem counterNonce_nonceCounter (nonce iv : Nonce)
    (h : nonce.toList.take 4 = iv.toList.take 4) :
    counterNonce iv (nonceCounter nonce.toList iv) = nonce := by
  have htake : (nonce.toList.drop 4).take 8 = nonce.toList.drop 4 :=
    List.take_of_length_le (by simp)
  have hlength : (xorBytes (nonce.toList.drop 4) (iv.toList.drop 4)).length = 8 := by
    simp [xorBytes]
  have hbytes : beBytes (nonceCounter nonce.toList iv) =
      xorBytes (nonce.toList.drop 4) (iv.toList.drop 4) := by
    rw [nonceCounter, htake, beBytes_eq_lowBytes, ← hlength, lowBytes_ofBeBytes]
  apply Subtype.ext
  change iv.toList.take 4++xorBytes (iv.toList.drop 4) (beBytes _) = nonce.toList
  rw [hbytes, xorBytes_cancel_right _ _ (by simp), ← h, List.take_append_drop]

theorem counterNonce_eq_iff (iv : Nonce) (c d : ℕ) :
    counterNonce iv c = counterNonce iv d ↔ c % counters = d % counters := by
  constructor
  · intro h
    rw [← nonceCounter_counterNonce iv c, h, nonceCounter_counterNonce]
  · intro h
    have hb : beBytes c = beBytes d := by
      have hc : ∀ n : ℕ, beBytes n = beBytes (n % counters) := by
        intro n
        simp only [beBytes, counters, List.map_cons, List.map_nil, ← UInt8.toNat_inj,
          List.cons.injEq, UInt8.toNat_ofNat']
        refine ⟨?_,?_,?_,?_,?_,?_,?_,?_,trivial⟩ <;> omega
      rw [hc c, h, ← hc d]
    apply Subtype.ext
    change _ ++ xorBytes _ (beBytes c) = _ ++ xorBytes _ (beBytes d)
    rw [hb]

end ArchetypeProxy.CounterNonce
