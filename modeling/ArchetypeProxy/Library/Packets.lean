import ArchetypeProxy.Library.CounterNonce

/-!
# Packets in a byte stream

A packet is a four-byte length, an eight-byte counter and the bytes the length
announces, both numbers big-endian. A receiver takes one packet after the
other off the stream and stops at the first that is cut short or refused.
-/

set_option autoImplicit false

namespace ArchetypeProxy.Packets
open ArchetypeProxy.CounterNonce

structure Packet where
  counter : UInt64
  payload : Bytes
  fits : payload.length < 2^32
  deriving DecidableEq

attribute [ext] Packet

def headerLength : ℕ := 12

def encode (p : Packet) : Bytes :=
  lowBytes 4 p.payload.length++lowBytes 8 p.counter.toNat++p.payload

def encodeAll (ps : List Packet) : Bytes := (ps.map encode).flatten

theorem encodeAll_cons (p : Packet) (ps : List Packet) :
    encodeAll (p::ps) = encode p++encodeAll ps := rfl

theorem encodeAll_append (ps qs : List Packet) :
    encodeAll (ps++qs) = encodeAll ps++encodeAll qs := by
  simp [encodeAll]

/-- A number of bytes of a stream covers whole packets and a part of the next. -/
theorem exists_cut (ps : List Packet) (n : ℕ) (hn : n ≤ (encodeAll ps).length) :
    ∃ done rest k, ps = done++rest ∧ n = (encodeAll done).length+k ∧
      (k = 0 ∨ ∃ p after, rest = p::after ∧ 0 < k ∧ k < (encode p).length) := by
  induction ps generalizing n with
  | nil => exact ⟨[],[],0,rfl,by simpa [encodeAll] using hn,Or.inl rfl⟩
  | cons p ps ih =>
    by_cases hlt : n < (encode p).length
    · by_cases hzero : n = 0
      · exact ⟨[],p::ps,0,rfl,by simpa [encodeAll] using hzero,Or.inl rfl⟩
      · exact ⟨[],p::ps,n,rfl,by simp [encodeAll],Or.inr ⟨p,ps,rfl,by omega,hlt⟩⟩
    · rw [encodeAll_cons, List.length_append] at hn
      obtain ⟨done,rest,k,rfl,hk,hcase⟩ := ih (n-(encode p).length) (by omega)
      have hlength : n = (encode p).length+(encodeAll done).length+k := by
        clear hcase
        omega
      exact ⟨p::done,rest,k,rfl,by rw [encodeAll_cons, List.length_append, hlength],hcase⟩

inductive Truncated where
  | header | body
  deriving DecidableEq, Repr

def announced (raw : Bytes) : ℕ := ofBeBytes (raw.take 4)

theorem announced_lt (raw : Bytes) : announced raw < 2^32 := by
  have hbytes := ofBeBytes_lt (raw.take 4)
  have hlength : (raw.take 4).length ≤ 4 := List.length_take_le 4 raw
  calc announced raw < 256^(raw.take 4).length := hbytes
    _ ≤ 256^4 := Nat.pow_le_pow_right (by decide) hlength
    _ = 2^32 := by decide

def first (raw : Bytes) : Packet :=
  ⟨UInt64.ofNat (ofBeBytes ((raw.drop 4).take 8)),(raw.drop headerLength).take (announced raw),
    lt_of_le_of_lt (List.length_take_le _ _) (announced_lt raw)⟩

def next (raw : Bytes) : Except Truncated (Packet × Bytes) :=
  if raw.length < headerLength then .error .header
  else if raw.length < headerLength+announced raw then .error .body
  else .ok (first raw,raw.drop (headerLength+announced raw))

theorem lowBytes_length (n c : ℕ) : (lowBytes n c).length = n := by
  induction n generalizing c with
  | zero => rfl
  | succ n ih => simp [lowBytes, ih]

theorem encode_length (p : Packet) : (encode p).length = headerLength+p.payload.length := by
  simp only [encode, List.length_append, lowBytes_length, headerLength]

theorem announced_encode (p : Packet) (n : ℕ) (rest : Bytes) (h : 4 ≤ n) :
    announced ((encode p++rest).take n) = p.payload.length := by
  have hfour : ((encode p++rest).take n).take 4 = lowBytes 4 p.payload.length := by
    rw [List.take_take, Nat.min_eq_left h, encode, List.append_assoc, List.append_assoc,
      List.take_left' (lowBytes_length 4 _)]
  rw [announced, hfour, ofBeBytes_lowBytes]
  exact Nat.mod_eq_of_lt p.fits

theorem next_encode (p : Packet) (rest : Bytes) : next (encode p++rest) = .ok (p,rest) := by
  have hlength : (encode p++rest).length = headerLength+p.payload.length+rest.length := by
    rw [List.length_append, encode_length]
  have hannounced : announced (encode p++rest) = p.payload.length := by
    have h := announced_encode p (encode p++rest).length rest (by rw [hlength, headerLength]; omega)
    rwa [List.take_length] at h
  have hcounter : ((encode p++rest).drop 4).take 8 = lowBytes 8 p.counter.toNat := by
    rw [encode, List.append_assoc, List.append_assoc, List.drop_left' (lowBytes_length 4 _),
      List.take_left' (lowBytes_length 8 _)]
  have hheader : (encode p++rest).drop headerLength = p.payload++rest := by
    rw [encode, List.append_assoc]
    exact List.drop_left' (by simp [lowBytes_length, headerLength])
  have hrest : (encode p++rest).drop (headerLength+p.payload.length) = rest :=
    List.drop_left' (encode_length p)
  have hvalue : UInt64.ofNat (ofBeBytes (lowBytes 8 p.counter.toNat)) = p.counter := by
    have hlt : p.counter.toNat < 256^8 := p.counter.toNat_lt
    rw [ofBeBytes_lowBytes, Nat.mod_eq_of_lt hlt, UInt64.ofNat_toNat]
  have hfirst : first (encode p++rest) = p := by
    ext1
    · exact (congrArg (fun bs => UInt64.ofNat (ofBeBytes bs)) hcounter).trans hvalue
    · simp only [first, hannounced, hheader, List.take_left']
  rw [next, hannounced, hfirst, hrest, if_neg (by omega), if_neg (by omega)]

theorem next_ok (raw rest : Bytes) (p : Packet) (h : next raw = .ok (p,rest)) :
    raw = encode p++rest := by
  rw [next] at h
  by_cases hheader : raw.length < headerLength
  · simp [hheader] at h
  by_cases hbody : raw.length < headerLength+announced raw
  · simp [hheader, hbody] at h
  rw [if_neg hheader, if_neg hbody] at h
  obtain ⟨hp,hrest⟩ := Prod.mk.inj (Except.ok.inj h)
  have htwelve : headerLength = 4+8 := rfl
  have hfour : (raw.take 4).length = 4 := by
    rw [List.length_take]
    omega
  have height : ((raw.drop 4).take 8).length = 8 := by
    rw [List.length_take, List.length_drop]
    omega
  have hpayload : ((raw.drop headerLength).take (announced raw)).length = announced raw := by
    rw [List.length_take, List.length_drop]
    omega
  have hlength : lowBytes 4 (announced raw) = raw.take 4 := by
    have hback := lowBytes_ofBeBytes (raw.take 4)
    rwa [hfour] at hback
  have hcounter : lowBytes 8 (UInt64.ofNat (ofBeBytes ((raw.drop 4).take 8))).toNat =
      (raw.drop 4).take 8 := by
    have hback := lowBytes_ofBeBytes ((raw.drop 4).take 8)
    have hlt := ofBeBytes_lt ((raw.drop 4).take 8)
    rw [height] at hback hlt
    rwa [UInt64.toNat_ofNat_of_lt' hlt]
  rw [← hp, ← hrest, encode]
  simp only [first]
  rw [hpayload, hlength, hcounter, List.append_assoc, List.append_assoc,
    ← List.drop_drop, List.take_append_drop, htwelve, ← List.drop_drop, List.take_append_drop,
    List.take_append_drop]

theorem next_cut (p : Packet) (rest : Bytes) (n : ℕ) (h : n < (encode p).length) :
    next ((encode p++rest).take n) =
      .error (if n < headerLength then .header else .body) := by
  have hn : ((encode p++rest).take n).length = n := by
    rw [List.length_take, List.length_append]
    omega
  rw [next, hn]
  by_cases hheader : n < headerLength
  · rw [if_pos hheader, if_pos hheader]
  · rw [encode_length] at h
    rw [if_neg hheader, if_neg hheader, announced_encode p n rest, if_pos h]
    have htwelve : headerLength = 12 := rfl
    omega

theorem next_length (raw rest : Bytes) (p : Packet) (h : next raw = .ok (p,rest)) :
    rest.length < raw.length := by
  rw [next_ok raw rest p h, List.length_append, encode_length, headerLength]
  omega

section Receiver
variable {σ ε : Type} (receive : σ → Packet → Except ε σ) (cut : Truncated → ε)

def receiveAll (s : σ) (raw : Bytes) : Except ε σ :=
  if raw = [] then .ok s
  else match _h : next raw with
    | .error e => .error (cut e)
    | .ok (p,rest) =>
      match receive s p with
      | .error e => .error e
      | .ok s' => receiveAll s' rest
termination_by raw.length
decreasing_by exact next_length raw rest p _h

theorem receiveAll_nil (s : σ) : receiveAll receive cut s [] = .ok s := by
  rw [receiveAll, if_pos rfl]

theorem receiveAll_error (s : σ) (raw : Bytes) (e : Truncated) (hne : raw ≠ [])
    (h : next raw = .error e) : receiveAll receive cut s raw = .error (cut e) := by
  rw [receiveAll, if_neg hne]
  split
  · rename_i e' h'
    rw [h] at h'
    cases h'
    rfl
  · rename_i p rest h'
    rw [h] at h'
    cases h'

theorem receiveAll_packet (s : σ) (raw rest : Bytes) (p : Packet) (h : next raw = .ok (p,rest)) :
    receiveAll receive cut s raw =
      receive s p >>= fun s' => receiveAll receive cut s' rest := by
  have hne : raw ≠ [] := by
    rintro rfl
    exact absurd (next_length [] rest p h) (by simp)
  rw [receiveAll, if_neg hne]
  split
  · rename_i e h'
    rw [h] at h'
    cases h'
  · rename_i p' rest' h'
    rw [h] at h'
    cases h'
    cases receive s p <;> rfl

theorem receiveAll_encodeAll_append (s : σ) (ps : List Packet) (raw : Bytes) :
    receiveAll receive cut s (encodeAll ps++raw) =
      ps.foldlM receive s >>= fun s' => receiveAll receive cut s' raw := by
  induction ps generalizing s with
  | nil => rfl
  | cons p ps ih =>
    rw [encodeAll_cons, List.append_assoc,
      receiveAll_packet receive cut s _ _ p (next_encode p _), List.foldlM_cons, bind_assoc]
    exact bind_congr ih

theorem receiveAll_encodeAll (s : σ) (ps : List Packet) :
    receiveAll receive cut s (encodeAll ps) = ps.foldlM receive s := by
  have h := receiveAll_encodeAll_append receive cut s ps []
  simp only [List.append_nil, receiveAll_nil] at h
  rw [h]
  exact bind_pure _

theorem receiveAll_ok (s s' : σ) (raw : Bytes) (h : receiveAll receive cut s raw = .ok s') :
    ∃ ps, raw = encodeAll ps ∧ ps.foldlM receive s = .ok s' := by
  induction hn : raw.length using Nat.strong_induction_on generalizing s raw with
  | _ n ih =>
    by_cases hne : raw = []
    · subst hne
      rw [receiveAll_nil] at h
      exact ⟨[],rfl,h⟩
    cases hnext : next raw with
    | error e =>
      rw [receiveAll_error receive cut s raw e hne hnext] at h
      cases h
    | ok x =>
      obtain ⟨p,rest⟩ := x
      rw [receiveAll_packet receive cut s raw rest p hnext] at h
      cases hp : receive s p with
      | error e =>
        rw [hp] at h
        cases h
      | ok t =>
        rw [hp] at h
        have hlength := next_length raw rest p hnext
        obtain ⟨ps,hrest,hps⟩ := ih rest.length (by omega) t rest h rfl
        refine ⟨p::ps,?_,?_⟩
        · rw [next_ok raw rest p hnext, hrest, encodeAll_cons]
        · rw [List.foldlM_cons, hp]
          exact hps

/-- A stream cut after any number of bytes: either whole packets are left, or the
packets before the cut are received and the cut one is missed. -/
theorem receiveAll_cut (s : σ) (ps : List Packet) (n : ℕ) (hn : n ≤ (encodeAll ps).length) :
    ∃ done rest, ps = done++rest ∧
      (n = (encodeAll done).length ∧
        receiveAll receive cut s ((encodeAll ps).take n) = done.foldlM receive s ∨
      ∃ p after, rest = p::after ∧ (encodeAll done).length < n ∧
        n < (encodeAll (done++[p])).length ∧
        receiveAll receive cut s ((encodeAll ps).take n) =
          done.foldlM receive s >>= fun _ => .error (cut
            (if n < (encodeAll done).length+headerLength then .header else .body))) := by
  obtain ⟨done,rest,k,rfl,rfl,hk⟩ := exists_cut ps n hn
  have htake : (encodeAll (done++rest)).take ((encodeAll done).length+k) =
      encodeAll done++(encodeAll rest).take k := by
    rw [encodeAll_append, List.take_length_add_append]
  refine ⟨done,rest,rfl,?_⟩
  rw [htake, receiveAll_encodeAll_append]
  rcases hk with rfl | ⟨p,after,rfl,hpos,hlt⟩
  · refine Or.inl ⟨rfl,?_⟩
    simp only [List.take_zero, receiveAll_nil]
    exact bind_pure _
  · have hne : (encodeAll (p::after)).take k ≠ [] := by
      intro hnil
      have hlen := congrArg List.length hnil
      rw [List.length_take, List.length_nil, encodeAll_cons, List.length_append] at hlen
      omega
    have hcut := next_cut p (encodeAll after) k hlt
    rw [← encodeAll_cons] at hcut
    refine Or.inr ⟨p,after,rfl,by omega,?_,?_⟩
    · rw [encodeAll_append, List.length_append, encodeAll_cons, List.length_append]
      omega
    · refine bind_congr fun s' => ?_
      rw [receiveAll_error receive cut s' _ _ hne hcut]
      simp only [Nat.add_lt_add_iff_left]

end Receiver

end ArchetypeProxy.Packets
