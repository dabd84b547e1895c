import ArchetypeProxy.Library.Text

/-!
# Numbers behind labels

A text that gives one decimal number behind each of a list of labels, a line
each. Whoever knows the labels reads the numbers back, whatever follows.
-/

set_option autoImplicit false

namespace ArchetypeProxy.Samples
open ArchetypeProxy.Text

def sample (label : String) (v : ℕ) : String := label++toString v++"\n"

def sampled (samples : List (String × ℕ)) : String :=
  String.join (samples.map (fun x => sample x.1 x.2))

def headed (text : String) : List (String × ℕ) → List (String × ℕ)
  | [] => []
  | x::samples => (text++x.1,x.2)::samples

theorem map_snd_headed (text : String) (samples : List (String × ℕ)) :
    (headed text samples).map Prod.snd = samples.map Prod.snd := by
  cases samples <;> rfl

theorem map_fst_headed (text : String) (samples : List (String × ℕ)) :
    (headed text samples).map Prod.fst = (samples.map Prod.fst).modifyHead (text++ ·) := by
  cases samples <;> rfl

theorem digits_of_line (v v' : ℕ) (rest rest' : List Char)
    (h : (toString v).toList ++ '\n'::rest = (toString v').toList ++ '\n'::rest') :
    v = v' ∧ rest = rest' := by
  have hdigits (n : ℕ) : '\n' ∉ (toString n).toList := by
    intro hmem
    have hmem' : '\n' ∈ Nat.toDigits 10 n := by simpa using hmem
    have hdigit := Nat.isDigit_of_mem_toDigits (by decide) (by decide) hmem'
    revert hdigit
    decide
  have hsplit := congrArg (fun cs => splitOnce (String.ofList cs) '\n') h
  simp only [splitOnce_eq_some _ _ _ (hdigits v), splitOnce_eq_some _ _ _ (hdigits v'),
    Option.some.injEq, Prod.mk.injEq] at hsplit
  constructor
  · have hchars : Nat.toDigits 10 v = Nat.toDigits 10 v' := by
      simpa using congrArg String.toList hsplit.1
    rw [← Nat.ofDigitChars_ten_toDigits (n := v), hchars, Nat.ofDigitChars_ten_toDigits]
  · simpa using congrArg String.toList hsplit.2

theorem sampled_cons (label : String) (v : ℕ) (samples : List (String × ℕ)) :
    (sampled ((label,v)::samples)).toList =
      label.toList ++ ((toString v).toList ++ '\n'::(sampled samples).toList) := by
  simp [sampled, sample, String.join_cons]

theorem sampled_injective (xs ys : List (String × ℕ)) (rest rest' : String)
    (hlabels : xs.map Prod.fst = ys.map Prod.fst)
    (h : sampled xs++rest = sampled ys++rest') : xs = ys := by
  have hchars : (sampled xs).toList++rest.toList = (sampled ys).toList++rest'.toList := by
    simpa using congrArg String.toList h
  clear h
  induction xs generalizing ys with
  | nil => exact (List.map_eq_nil_iff.mp hlabels.symm).symm
  | cons x xs ih =>
    obtain ⟨y,ys,rfl,hlabel,hrest⟩ := List.map_eq_cons_iff.mp hlabels.symm
    obtain ⟨label,v⟩ := x
    obtain ⟨label',v'⟩ := y
    obtain rfl : label' = label := hlabel
    rw [sampled_cons, sampled_cons] at hchars
    simp only [List.append_assoc, List.append_cancel_left_eq, List.cons_append] at hchars
    obtain ⟨rfl,htail⟩ := digits_of_line v v' _ _ hchars
    rw [ih ys hrest.symm htail]

end ArchetypeProxy.Samples
