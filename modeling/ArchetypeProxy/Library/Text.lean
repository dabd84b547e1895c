import Mathlib.Data.List.DropRight
import Mathlib.Data.String.Basic

/-!
# String operations of the standard library

The string functions the program calls, on characters. A length is counted in
UTF-8 bytes, case folding and comparison without case touch ASCII letters
only, and white space is the Unicode property.
-/

set_option autoImplicit false

namespace ArchetypeProxy.Text

/-- The characters of the Unicode property `White_Space`. -/
def isWhiteSpace (c : Char) : Bool :=
  let n := c.toNat
  (9 ≤ n && n ≤ 13) || n == 0x20 || n == 0x85 || n == 0xA0 || n == 0x1680 ||
    (0x2000 ≤ n && n ≤ 0x200A) || n == 0x2028 || n == 0x2029 || n == 0x202F ||
    n == 0x205F || n == 0x3000

def len (s : String) : ℕ := s.utf8ByteSize

def isEmpty (s : String) : Bool := s == ""

theorem isEmpty_eq_false_iff (s : String) : isEmpty s = false ↔ s ≠ "" := by
  rw [isEmpty, beq_eq_false_iff_ne]

def trim (s : String) : String :=
  String.ofList ((s.toList.dropWhile isWhiteSpace).rdropWhile isWhiteSpace)

def Blank (s : String) : Prop := ∀ c ∈ s.toList, isWhiteSpace c = true

instance (s : String) : Decidable (Blank s) :=
  List.decidableBAll (fun c => isWhiteSpace c = true) s.toList

theorem trim_eq_self (s : String) (h : ∀ c ∈ s.toList, isWhiteSpace c = false) : trim s = s := by
  have hleft : s.toList.dropWhile isWhiteSpace = s.toList := by
    rw [List.dropWhile_eq_self_iff]
    intro hl
    simp [h _ (List.getElem_mem hl)]
  rw [trim, hleft, List.rdropWhile_eq_self_iff.mpr, String.ofList_toList]
  intro hne
  simp [h _ (List.getLast_mem hne)]

section Runs
variable (p : Char → Bool) (as bs : List Char) (c : Char)

theorem dropWhile_keep (hc : p c = false) :
    (as++c::bs).dropWhile p = as.dropWhile p++c::bs := by
  rw [List.dropWhile_append]
  by_cases hnil : as.dropWhile p = []
  · simp [hnil, hc]
  · rw [if_neg (by simpa using hnil)]

theorem rdropWhile_keep (hc : p c = false) :
    (as++c::bs).rdropWhile p = as++c::bs.rdropWhile p := by
  simp only [List.rdropWhile, List.reverse_append, List.reverse_cons, List.append_assoc,
    List.singleton_append, dropWhile_keep p bs.reverse as.reverse c hc, List.reverse_reverse]

theorem rdropWhile_append :
    (as++bs).rdropWhile p =
      if bs.rdropWhile p = [] then as.rdropWhile p else as++bs.rdropWhile p := by
  rw [List.rdropWhile, List.reverse_append, List.dropWhile_append]
  by_cases h : bs.reverse.dropWhile p = []
  · simp [List.rdropWhile, h]
  · simp [List.rdropWhile, h]

end Runs

theorem trim_surrounded (l s r : String) (hl : Blank l) (hr : Blank r) :
    trim (l++s++r) = trim s := by
  have hright (cs : List Char) :
      (cs++r.toList).rdropWhile isWhiteSpace = cs.rdropWhile isWhiteSpace := by
    rw [rdropWhile_append, if_pos (List.rdropWhile_eq_nil_iff.mpr hr)]
  have hdrop : r.toList.dropWhile isWhiteSpace = [] := List.dropWhile_eq_nil_iff.mpr hr
  rw [trim, trim, String.toList_append, String.toList_append, List.append_assoc,
    List.dropWhile_append_of_pos hl, List.dropWhile_append]
  by_cases hs : s.toList.dropWhile isWhiteSpace = []
  · simp [hs, hdrop]
  · rw [if_neg (by simpa using hs), hright]

def toAsciiLowercase (s : String) : String := String.ofList (s.toList.map Char.toLower)

def eqIgnoreAsciiCase (s t : String) : Bool := toAsciiLowercase s == toAsciiLowercase t

theorem eqIgnoreAsciiCase_isEmpty (s t : String) (h : eqIgnoreAsciiCase s t = true) :
    isEmpty s = isEmpty t := by
  have hl := congrArg String.length (beq_iff_eq.mp h)
  simp only [toAsciiLowercase, String.length_ofList, List.length_map, String.length_toList] at hl
  rw [Bool.eq_iff_iff]
  simp only [isEmpty, beq_iff_eq, ← String.length_eq_zero_iff, hl]

def trimEndMatches (s : String) (c : Char) : String :=
  String.ofList (s.toList.rdropWhile (· == c))

def stripPrefix (s p : String) : Option String :=
  (p.toList.isPrefixOf? s.toList).map String.ofList

def startsWith (s p : String) : Bool := p.toList.isPrefixOf s.toList

def split (s : String) (sep : Char → Bool) : List String :=
  (s.toList.splitOnP sep).map String.ofList

section Segments
variable (c : Char)

theorem intercalate_append (as bs : List (List Char)) (ha : as ≠ []) (hb : bs ≠ []) :
    [c].intercalate (as++bs) = [c].intercalate as++c::[c].intercalate bs := by
  induction as with
  | nil => exact absurd rfl ha
  | cons a as ih =>
    by_cases has : as = []
    · rw [has, List.singleton_append, List.intercalate_cons_of_ne_nil hb,
        List.intercalate_singleton, List.append_assoc, List.singleton_append]
    · rw [List.cons_append, List.intercalate_cons_of_ne_nil (by simp [has]), ih has,
        List.intercalate_cons_of_ne_nil has]
      simp

/-- The segments of a text begin those of another exactly when the other is
the text, or continues it with a separator. -/
theorem splitOn_isPrefix_iff (xs ys : List Char) :
    xs.splitOn c <+: ys.splitOn c ↔
      ∃ rest, ys = xs++rest ∧ (rest = [] ∨ rest.head? = some c) := by
  constructor
  · rintro ⟨more,hmore⟩
    have hjoin := congrArg [c].intercalate hmore
    rw [List.intercalate_splitOn] at hjoin
    by_cases hnil : more = []
    · rw [hnil, List.append_nil, List.intercalate_splitOn] at hjoin
      exact ⟨[],by rw [List.append_nil, hjoin],Or.inl rfl⟩
    · rw [intercalate_append c _ more (List.splitOn_ne_nil c xs) hnil,
        List.intercalate_splitOn] at hjoin
      exact ⟨_,hjoin.symm,Or.inr rfl⟩
  · rintro ⟨rest,rfl,rfl|hrest⟩
    · simp
    · obtain ⟨r,rfl⟩ := List.head?_eq_some_iff.mp hrest
      rw [List.splitOn_eq_splitOnP, List.splitOn_eq_splitOnP,
        List.splitOnP_append_cons xs r (by simp)]
      exact List.prefix_append _ _

theorem split_isPrefix_iff (s t : String) :
    split s (· == c) <+: split t (· == c) ↔
      ∃ rest, t.toList = s.toList++rest ∧ (rest = [] ∨ rest.head? = some c) := by
  rw [← splitOn_isPrefix_iff, split, split,
    List.prefix_map_iff_of_injective fun a b h => String.ofList_injective h]
  rfl

end Segments

def splitOnce (s : String) (c : Char) : Option (String × String) :=
  match s.toList.dropWhile (· != c) with
  | [] => none
  | _::rest => some (String.ofList (s.toList.takeWhile (· != c)),String.ofList rest)

def rsplitOnce (s : String) (c : Char) : Option (String × String) :=
  match s.toList.reverse.dropWhile (· != c) with
  | [] => none
  | _::rest =>
    some (String.ofList rest.reverse,String.ofList (s.toList.reverse.takeWhile (· != c)).reverse)

theorem splitOnce_eq_some (cs ds : List Char) (c : Char) (h : c ∉ cs) :
    splitOnce (String.ofList (cs++c::ds)) c = some (String.ofList cs,String.ofList ds) := by
  have hne : ∀ a ∈ cs, (a != c) = true := by
    intro a ha
    rw [bne_iff_ne]
    rintro rfl
    exact h ha
  simp [splitOnce, List.dropWhile_append_of_pos hne, List.takeWhile_append_of_pos hne]

theorem splitOnce_trim (a b : String) (c : Char) (hc : isWhiteSpace c = false) (ha : c ∉ a.toList) :
    ∃ a' b', splitOnce (trim (a++String.singleton c++b)) c = some (a',b') ∧
      trim a' = trim a ∧ trim b' = trim b := by
  have htrim : trim (a++String.singleton c++b) =
      String.ofList (a.toList.dropWhile isWhiteSpace++c::b.toList.rdropWhile isWhiteSpace) := by
    rw [trim, String.toList_append, String.toList_append, String.toList_singleton,
      List.append_assoc, List.singleton_append, dropWhile_keep isWhiteSpace _ _ c hc,
      rdropWhile_keep isWhiteSpace _ _ c hc]
  refine ⟨String.ofList (a.toList.dropWhile isWhiteSpace),
    String.ofList (b.toList.rdropWhile isWhiteSpace),?_,?_,?_⟩
  · rw [htrim]
    exact splitOnce_eq_some _ _ c fun hmem => ha ((List.dropWhile_sublist _).subset hmem)
  · rw [trim, String.toList_ofList, List.dropWhile_idempotent, ← trim]
  · have hb : b = ""++String.ofList (b.toList.rdropWhile isWhiteSpace)++
        String.ofList (b.toList.rtakeWhile isWhiteSpace) := by
      apply String.toList_injective
      simp [List.rdropWhile_append_rtakeWhile]
    conv_rhs => rw [hb]
    refine (trim_surrounded "" _ _ (by simp [Blank]) ?_).symm
    intro ch hch
    rw [String.toList_ofList] at hch
    exact List.mem_rtakeWhile_imp hch

def hexDigit (c : Char) : Option UInt8 :=
  if '0' ≤ c ∧ c ≤ '9' then some (UInt8.ofNat (c.toNat-48))
  else if 'a' ≤ c ∧ c ≤ 'f' then some (UInt8.ofNat (c.toNat-87))
  else if 'A' ≤ c ∧ c ≤ 'F' then some (UInt8.ofNat (c.toNat-55))
  else none

def hexPairs : List Char → Option (List UInt8)
  | [] => some []
  | [_] => none
  | a::b::cs => do
    let hi ← hexDigit a
    let lo ← hexDigit b
    let rest ← hexPairs cs
    return (16*hi+lo)::rest

def hexDecode (s : String) : Option (List UInt8) := hexPairs s.toList

end ArchetypeProxy.Text
