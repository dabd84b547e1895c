import ArchetypeProxy.Library.CounterNonce

/-!
# Codecs

A codec writes a value as bytes and reads it off the front of a text, whatever
follows. Codecs are put together from smaller ones.
-/

set_option autoImplicit false

namespace ArchetypeProxy.Codecs
open ArchetypeProxy.CounterNonce

structure Codec (α : Type) where
  write : α → Bytes
  read : Bytes → Option (α × Bytes)
  read_write : ∀ x rest, read (write x++rest) = some (x,rest)

variable {α β : Type}

def Codec.map (c : Codec α) (f : α → β) (g : β → α) (h : ∀ y, f (g y) = y) : Codec β where
  write y := c.write (g y)
  read text := (c.read text).map (fun r => (f r.1,r.2))
  read_write y rest := by simp [c.read_write, h]

def Codec.prod (c : Codec α) (d : Codec β) : Codec (α × β) where
  write x := c.write x.1++d.write x.2
  read text := (c.read text).bind (fun r => (d.read r.2).map (fun r' => ((r.1,r'.1),r'.2)))
  read_write x rest := by simp [c.read_write, d.read_write]

def Codec.sum (c : Codec α) (d : Codec β) : Codec (α ⊕ β) where
  write
    | .inl x => 0::c.write x
    | .inr y => 1::d.write y
  read
    | [] => none
    | tag::text =>
      if tag = 0 then (c.read text).map (fun r => (.inl r.1,r.2))
      else (d.read text).map (fun r => (.inr r.1,r.2))
  read_write x rest := by
    cases x with
    | inl x => simp [c.read_write]
    | inr y => simp [d.read_write]

def byteCodec : Codec UInt8 where
  write b := [b]
  read
    | [] => none
    | b::text => some (b,text)
  read_write _ _ := rfl

def charCodec : Codec Char where
  write c := lowBytes 4 c.toNat
  read text := if text.length < 4 then none
    else some (Char.ofNat (ofBeBytes (text.take 4)),text.drop 4)
  read_write c rest := by
    have hlength : (lowBytes 4 c.toNat).length = 4 := rfl
    have hsmall : c.toNat < 256^4 := c.val.toNat_lt
    rw [if_neg (by rw [List.length_append, hlength]; omega), List.take_left' hlength,
      List.drop_left' hlength, ofBeBytes_lowBytes, Nat.mod_eq_of_lt hsmall, Char.ofNat_toNat]

/-! A list has a one before each item and ends with a zero. The items are fewer
than the bytes. -/

def writeList (write : α → Bytes) : List α → Bytes
  | [] => [0]
  | x::xs => 1::(write x++writeList write xs)

def readList (read : Bytes → Option (α × Bytes)) : ℕ → Bytes → Option (List α × Bytes)
  | n+1, tag::text =>
    if tag = 0 then some ([],text)
    else (read text).bind (fun r => (readList read n r.2).map (fun r' => (r.1::r'.1,r'.2)))
  | _, _ => none

theorem readList_writeList (c : Codec α) (xs : List α) (n : ℕ) (hn : xs.length < n) (rest : Bytes) :
    readList c.read n (writeList c.write xs++rest) = some (xs,rest) := by
  induction xs generalizing n with
  | nil =>
    obtain ⟨n,rfl⟩ := Nat.exists_eq_succ_of_ne_zero (Nat.ne_of_gt hn)
    rfl
  | cons x xs ih =>
    obtain ⟨n,rfl⟩ := Nat.exists_eq_succ_of_ne_zero (Nat.ne_of_gt (Nat.zero_lt_of_lt hn))
    have hrest := ih n (by simpa using hn)
    simp [writeList, readList, c.read_write, hrest]

theorem length_lt_writeList (write : α → Bytes) (xs : List α) :
    xs.length < (writeList write xs).length := by
  induction xs with
  | nil => simp [writeList]
  | cons x xs ih =>
    simp only [writeList, List.length_cons, List.length_append]
    omega

def Codec.list (c : Codec α) : Codec (List α) where
  write := writeList c.write
  read text := readList c.read text.length text
  read_write xs rest := by
    apply readList_writeList
    have hlt := length_lt_writeList c.write xs
    rw [List.length_append]
    omega

def stringCodec : Codec String :=
  charCodec.list.map String.ofList String.toList (fun _ => String.ofList_toList)

def natCodec : Codec ℕ :=
  byteCodec.list.map ofBeBytes (fun n => lowBytes (n.log2/8+1) n) (fun n => by
    have hpow : 256^(n.log2/8+1) = 2^(8*(n.log2/8+1)) := (pow_mul 2 8 _).symm
    have hle : 2^(n.log2+1) ≤ 2^(8*(n.log2/8+1)) := Nat.pow_le_pow_right (by decide) (by omega)
    have hlt : n < 2^(n.log2+1) := Nat.lt_log2_self
    rw [ofBeBytes_lowBytes, hpow, Nat.mod_eq_of_lt (lt_of_lt_of_le hlt hle)])

end ArchetypeProxy.Codecs
