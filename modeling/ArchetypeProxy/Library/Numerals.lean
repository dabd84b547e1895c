import ArchetypeProxy.Library.Text
import Mathlib.Tactic.IntervalCases

/-!
# Numbers and bytes as text

The decimal reader of an unsigned 32-bit number with its errors, the
hexadecimal decoder with its errors, and the texts they read back: decimal
digits without leading zeros, and two hexadecimal digits a byte in either
case.
-/

set_option autoImplicit false

namespace ArchetypeProxy.Numerals
open ArchetypeProxy.Text

inductive ParseIntError where
  | empty | invalidDigit | posOverflow
  deriving DecidableEq, Repr

def ParseIntError.text : ParseIntError → String
  | .empty => "cannot parse integer from empty string"
  | .invalidDigit => "invalid digit found in string"
  | .posOverflow => "number too large to fit in target type"

/-- The digits after an accumulated value. A character is looked at before the
sum is, so a bad digit comes before an overflow at the same place. -/
def parseDigits : ℕ → List Char → Except ParseIntError ℕ
  | n, [] => .ok n
  | n, c::cs =>
    if c.isDigit then
      if 10*n+(c.toNat-48) < 2^32 then parseDigits (10*n+(c.toNat-48)) cs
      else .error .posOverflow
    else .error .invalidDigit

/-- A sign `+` is allowed before the digits and is not a number by itself. -/
def parseU32 (s : String) : Except ParseIntError UInt32 :=
  match s.toList with
  | [] => .error .empty
  | ['+'] => .error .invalidDigit
  | '+'::cs => (parseDigits 0 cs).map UInt32.ofNat
  | cs => (parseDigits 0 cs).map UInt32.ofNat

def decimal (n : UInt32) : String := toString n.toNat

theorem decimal_toList (n : UInt32) : (decimal n).toList = Nat.toDigits 10 n.toNat := by
  simp [decimal]

theorem isDigit_of_mem_decimal (n : UInt32) (c : Char) (h : c ∈ (decimal n).toList) :
    c.isDigit = true := by
  rw [decimal_toList] at h
  exact Nat.isDigit_of_mem_toDigits (by decide) (by decide) h

theorem le_ofDigitChars (cs : List Char) (n : ℕ) : n ≤ Nat.ofDigitChars 10 cs n := by
  induction cs generalizing n with
  | nil => simp
  | cons c cs ih =>
    rw [Nat.ofDigitChars_cons]
    have h := ih (10*n+(c.toNat- '0'.toNat))
    omega

theorem parseDigits_eq_ok (cs : List Char) (n : ℕ) (hdigits : ∀ c ∈ cs, c.isDigit = true)
    (hfits : Nat.ofDigitChars 10 cs n < 2^32) :
    parseDigits n cs = .ok (Nat.ofDigitChars 10 cs n) := by
  induction cs generalizing n with
  | nil => simp [parseDigits]
  | cons c cs ih =>
    rw [Nat.ofDigitChars_cons] at hfits ⊢
    have hle := le_ofDigitChars cs (10*n+(c.toNat- '0'.toNat))
    rw [parseDigits, if_pos (hdigits c (by simp)), if_pos (by simp at hle hfits ⊢; omega)]
    exact ih _ (fun d hd => hdigits d (by simp [hd])) hfits

theorem parseU32_decimal (n : UInt32) : parseU32 (decimal n) = .ok n := by
  have hdigits := isDigit_of_mem_decimal n
  have hvalue : Nat.ofDigitChars 10 (decimal n).toList 0 = n.toNat := by
    rw [decimal_toList, Nat.ofDigitChars_ten_toDigits]
  have hread := parseDigits_eq_ok (decimal n).toList 0 hdigits
    (by rw [hvalue]; exact n.toNat_lt)
  rw [hvalue] at hread
  unfold parseU32
  split
  · rename_i heq
    exact absurd (heq.symm.trans (decimal_toList n)).symm Nat.toDigits_ne_nil
  · rename_i heq
    exact absurd (hdigits '+' (by simp [heq])) (by decide)
  · rename_i heq
    exact absurd (hdigits '+' (by simp [heq])) (by decide)
  · rw [hread]
    simp [Except.map]

theorem decimal_injective : Function.Injective decimal := by
  intro n m h
  have hn := parseU32_decimal n
  rw [h, parseU32_decimal] at hn
  exact (Except.ok.inj hn).symm

inductive FromHexError where
  | invalidHexCharacter (c : Char) (index : ℕ)
  | oddLength
  deriving DecidableEq, Repr

def debugByteChar (c : Char) : String :=
  let n := c.toNat
  let body :=
    if n = 0 then "\\0" else if n = 9 then "\\t" else if n = 10 then "\\n"
    else if n = 13 then "\\r" else if n = 39 then "\\'" else if n = 92 then "\\\\"
    else if n < 32 ∨ (127 ≤ n ∧ n ≤ 160) ∨ n = 173 then
      "\\u\x7b"++String.ofList (Nat.toDigits 16 n)++"\x7d"
    else String.singleton c
  "'"++body++"'"

def FromHexError.text : FromHexError → String
  | .invalidHexCharacter c index =>
    "Invalid character "++debugByteChar c++" at position "++toString index
  | .oddLength => "Odd number of digits"

/-- Why a text is not hexadecimal: its length in bytes is odd, or its first
byte that is no digit. -/
def hexFault (s : String) : FromHexError :=
  let bytes := s.toList.flatMap String.utf8EncodeChar
  if bytes.length%2 = 1 then .oddLength
  else
    let index := bytes.findIdx (fun b => (hexDigit (Char.ofNat b.toNat)).isNone)
    .invalidHexCharacter (Char.ofNat (bytes.getD index 0).toNat) index

def decodeHex (s : String) : Except FromHexError (List UInt8) :=
  match hexDecode s with
  | some bytes => .ok bytes
  | none => .error (hexFault s)

def hexChars (bytes : List UInt8) : List Char :=
  bytes.flatMap (fun b => [Nat.digitChar (b.toNat/16),Nat.digitChar (b.toNat%16)])

def hexEncode (bytes : List UInt8) : String := String.ofList (hexChars bytes)

theorem toNat_toLower (c : Char) :
    c.toLower.toNat = if 65 ≤ c.toNat ∧ c.toNat ≤ 90 then c.toNat+32 else c.toNat := by
  by_cases hup : c.val ≥ 'A'.val ∧ c.val ≤ 'Z'.val
  · have hlower : c.toLower = _ := dif_pos hup
    have hle := UInt32.le_iff_toNat_le.mp hup.2
    rw [hlower, if_pos ⟨UInt32.le_iff_toNat_le.mp hup.1,hle⟩, Char.toNat_mk, UInt32.toNat_add]
    exact Nat.mod_eq_of_lt (by simp at hle ⊢; omega)
  · have hlower : c.toLower = c := dif_neg hup
    rw [hlower, if_neg]
    exact fun h => hup ⟨UInt32.le_iff_toNat_le.mpr h.1,UInt32.le_iff_toNat_le.mpr h.2⟩

theorem isWhiteSpace_toLower (c : Char) : isWhiteSpace c.toLower = isWhiteSpace c := by
  by_cases hup : 65 ≤ c.toNat ∧ c.toNat ≤ 90
  · rw [Bool.eq_iff_iff]
    simp [isWhiteSpace, toNat_toLower, hup]
    omega
  · simp [isWhiteSpace, toNat_toLower, hup]

theorem toAsciiLowercase_trim (s : String) :
    toAsciiLowercase (trim s) = trim (toAsciiLowercase s) := by
  have hws : isWhiteSpace ∘ Char.toLower = isWhiteSpace := funext isWhiteSpace_toLower
  simp only [toAsciiLowercase, trim, String.toList_ofList, List.rdropWhile, ← List.map_reverse,
    List.dropWhile_map, hws]

theorem hexDigit_eq (c : Char) : hexDigit c =
    if 48 ≤ c.toNat ∧ c.toNat ≤ 57 then some (UInt8.ofNat (c.toNat-48))
    else if 97 ≤ c.toNat ∧ c.toNat ≤ 102 then some (UInt8.ofNat (c.toNat-87))
    else if 65 ≤ c.toNat ∧ c.toNat ≤ 70 then some (UInt8.ofNat (c.toNat-55))
    else none := rfl

theorem hexDigit_toLower (c : Char) : hexDigit c.toLower = hexDigit c := by
  rw [hexDigit_eq, hexDigit_eq, toNat_toLower]
  by_cases hup : 65 ≤ c.toNat ∧ c.toNat ≤ 90
  · have hval : c.toNat+32-87 = c.toNat-55 := by omega
    rw [if_pos hup, hval]
    split_ifs <;> first | omega | rfl
  · rw [if_neg hup]

theorem hexPairs_toLower (cs : List Char) : hexPairs (cs.map Char.toLower) = hexPairs cs := by
  induction cs using hexPairs.induct with
  | case1 => rfl
  | case2 c => rfl
  | case3 a b cs ih => simp only [List.map_cons, hexPairs, hexDigit_toLower, ih]

theorem hexDigit_digitChar (n : ℕ) (h : n < 16) :
    hexDigit (Nat.digitChar n) = some (UInt8.ofNat n) := by
  interval_cases n <;> rfl

theorem toLower_digitChar (n : ℕ) (h : n < 16) : (Nat.digitChar n).toLower = Nat.digitChar n := by
  interval_cases n <;> rfl

theorem toAsciiLowercase_hexEncode (bytes : List UInt8) :
    toAsciiLowercase (hexEncode bytes) = hexEncode bytes := by
  have hbyte (b : UInt8) : (Nat.digitChar (b.toNat/16)).toLower = Nat.digitChar (b.toNat/16) := by
    have hb := b.toNat_lt
    exact toLower_digitChar _ (by omega)
  have hlow (b : UInt8) : (Nat.digitChar (b.toNat%16)).toLower = Nat.digitChar (b.toNat%16) :=
    toLower_digitChar _ (by omega)
  simp only [toAsciiLowercase, hexEncode, hexChars, String.toList_ofList, List.map_flatMap,
    List.map_cons, List.map_nil, hbyte, hlow]

theorem hexPairs_hexChars (bytes : List UInt8) : hexPairs (hexChars bytes) = some bytes := by
  induction bytes with
  | nil => rfl
  | cons b bytes ih =>
    have hb := b.toNat_lt
    have hbyte : 16*UInt8.ofNat (b.toNat/16)+UInt8.ofNat (b.toNat%16) = b := by
      rw [← UInt8.toNat_inj]
      simp
      omega
    rw [hexChars, List.flatMap_cons, ← hexChars, List.cons_append, List.cons_append,
      List.nil_append, hexPairs, hexDigit_digitChar _ (by omega), hexDigit_digitChar _ (by omega),
      ih]
    simp [hbyte]

theorem utf8Size_digitChar (n : ℕ) (h : n < 16) : (Nat.digitChar n).utf8Size = 1 := by
  interval_cases n <;> rfl

theorem utf8ByteSize_hexEncode (bytes : List UInt8) :
    (hexEncode bytes).utf8ByteSize = 2*bytes.length := by
  induction bytes with
  | nil => rfl
  | cons b bytes ih =>
    have hb := b.toNat_lt
    have hpair : hexEncode (b::bytes) =
        String.singleton (Nat.digitChar (b.toNat/16))++
          (String.singleton (Nat.digitChar (b.toNat%16))++hexEncode bytes) := by
      apply String.toList_injective
      simp [hexEncode, hexChars]
    rw [hpair, String.utf8ByteSize_append, String.utf8ByteSize_append,
      String.utf8ByteSize_singleton, String.utf8ByteSize_singleton,
      utf8Size_digitChar _ (by omega), utf8Size_digitChar _ (by omega), ih, List.length_cons]
    omega

theorem decodeHex_eq_ok (s : String) (bytes : List UInt8)
    (h : toAsciiLowercase s = hexEncode bytes) : decodeHex s = .ok bytes := by
  have hchars : s.toList.map Char.toLower = hexChars bytes := by
    simpa [toAsciiLowercase, hexEncode] using congrArg String.toList h
  have hread : hexDecode s = some bytes := by
    rw [hexDecode, ← hexPairs_toLower, hchars, hexPairs_hexChars]
  rw [decodeHex, hread]

theorem hexDigit_of_hexPairs (cs : List Char) (bytes : List UInt8) (h : hexPairs cs = some bytes) :
    ∀ c ∈ cs, (hexDigit c).isSome = true := by
  induction cs using hexPairs.induct generalizing bytes with
  | case1 => simp
  | case2 c => cases h
  | case3 a b cs ih =>
    simp only [hexPairs, bind, Option.bind_eq_some_iff] at h
    obtain ⟨hi,ha,lo,hb,rest,hrest,-⟩ := h
    intro c hc
    rcases List.mem_cons.mp hc with rfl|hc
    · simp [ha]
    · rcases List.mem_cons.mp hc with rfl|hc
      · simp [hb]
      · exact ih rest hrest c hc

theorem hexDigit_of_mem (s : String) (bytes : List UInt8)
    (h : toAsciiLowercase s = hexEncode bytes) (c : Char) (hc : c ∈ s.toList) :
    (hexDigit c).isSome = true := by
  have hok := decodeHex_eq_ok s bytes h
  rw [decodeHex] at hok
  split at hok
  · rename_i bytes' hread
    exact hexDigit_of_hexPairs s.toList bytes' hread c hc
  · cases hok

theorem hexDigit_of_isDigit (c : Char) (h : c.isDigit = true) : (hexDigit c).isSome = true := by
  have hrange : 48 ≤ c.toNat ∧ c.toNat ≤ 57 := Char.isDigit_iff_toNat.mp h
  rw [hexDigit_eq, if_pos hrange]
  rfl

theorem plain_of_hexDigit (c : Char) (h : (hexDigit c).isSome = true) :
    isWhiteSpace c = false ∧ c ≠ ',' ∧ c ≠ ':' := by
  have hrange : 48 ≤ c.toNat ∧ c.toNat ≤ 102 ∧ c.toNat ≠ 58 := by
    rw [hexDigit_eq] at h
    split_ifs at h <;> first | omega | cases h
  refine ⟨?_,?_,?_⟩
  · simp [isWhiteSpace]
    omega
  · rintro rfl
    exact absurd hrange.1 (by decide)
  · rintro rfl
    exact hrange.2.2 rfl

end ArchetypeProxy.Numerals
