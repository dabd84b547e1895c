import Mathlib.Data.List.Nodup

/-!
# Tallies

Increments are pairs of a cell and an amount. The total of a cell over a list
of increments, and sums over the members of a pool in which one member at a
time is replaced.
-/

set_option autoImplicit false

namespace ArchetypeProxy.Tally

section Sums
variable {α : Type*}

def sumOver (f : α → ℕ) : List α → ℕ
  | [] => 0
  | x::xs => f x+sumOver f xs

theorem sumOver_append (f : α → ℕ) (xs ys : List α) :
    sumOver f (xs++ys) = sumOver f xs+sumOver f ys := by
  induction xs with
  | nil => simp [sumOver]
  | cons x xs ih => simp [sumOver, ih, Nat.add_assoc]

theorem sumOver_set (f : α → ℕ) (xs : List α) (i : ℕ) (x y : α) (h : xs[i]? = some x) :
    sumOver f (xs.set i y)+f x = sumOver f xs+f y := by
  induction xs generalizing i with
  | nil => simp at h
  | cons z xs ih =>
    cases i with
    | zero =>
      obtain rfl : z = x := by simpa using h
      simp only [List.set_cons_zero, sumOver]
      omega
    | succ i =>
      have hrest := ih i (by simpa using h)
      simp only [List.set_cons_succ, sumOver]
      omega

theorem sumOver_le (f g : α → ℕ) (xs : List α) (h : ∀ x ∈ xs, f x ≤ g x) :
    sumOver f xs ≤ sumOver g xs := by
  induction xs with
  | nil => simp [sumOver]
  | cons x xs ih =>
    have hx := h x (by simp)
    have hxs := ih (fun y hy => h y (by simp [hy]))
    simp only [sumOver]
    omega

theorem sumOver_congr (f g : α → ℕ) (xs : List α) (h : ∀ x ∈ xs, f x = g x) :
    sumOver f xs = sumOver g xs :=
  Nat.le_antisymm (sumOver_le f g xs (fun x hx => Nat.le_of_eq (h x hx)))
    (sumOver_le g f xs (fun x hx => Nat.le_of_eq (h x hx).symm))

theorem sumOver_add (f g : α → ℕ) (xs : List α) :
    sumOver (fun x => f x+g x) xs = sumOver f xs+sumOver g xs := by
  induction xs with
  | nil => rfl
  | cons x xs ih =>
    simp only [sumOver, ih]
    omega

end Sums

variable {κ ι : Type*} [DecidableEq κ]

def total (c : κ) (adds : List (κ × ℕ)) : ℕ := sumOver (fun a => if a.1 = c then a.2 else 0) adds

theorem total_append (c : κ) (adds more : List (κ × ℕ)) :
    total c (adds++more) = total c adds+total c more :=
  sumOver_append _ adds more

theorem total_eq_zero (c : κ) (adds : List (κ × ℕ)) (h : ∀ a ∈ adds, a.1 ≠ c) :
    total c adds = 0 := by
  induction adds with
  | nil => rfl
  | cons a adds ih =>
    have hrest := ih (fun b hb => h b (by simp [hb]))
    rw [total] at hrest ⊢
    rw [sumOver, hrest, if_neg (h a (by simp))]

theorem total_map_eq_zero (cell : ι → κ) (hcell : Function.Injective cell) (is : List ι) (i : ι)
    (hi : i ∉ is) : total (cell i) (is.map (fun j => (cell j,1))) = 0 := by
  refine total_eq_zero _ _ ?_
  intro a ha
  obtain ⟨j,hj,rfl⟩ := List.mem_map.mp ha
  intro heq
  exact hi (hcell heq ▸ hj)

theorem total_filter_map (cell : ι → κ) (hcell : Function.Injective cell) (p : ι → Bool)
    (is : List ι) (his : is.Nodup) (i : ι) (hi : i ∈ is) :
    total (cell i) ((is.filter p).map (fun j => (cell j,1))) = if p i then 1 else 0 := by
  cases hp : p i with
  | false =>
    rw [total_map_eq_zero cell hcell _ i (by simp [hp])]
    rfl
  | true =>
    obtain ⟨before,after,hsplit⟩ := List.append_of_mem (List.mem_filter.mpr ⟨hi,hp⟩)
    have hnodup : (before++i::after).Nodup := hsplit ▸ his.filter p
    obtain ⟨_,hafter,hdisj⟩ := List.nodup_append.mp hnodup
    have hbefore : i ∉ before := fun h => hdisj i h i (by simp) rfl
    rw [hsplit, List.map_append, total_append, total_map_eq_zero cell hcell before i hbefore,
      List.map_cons, ← List.singleton_append, total_append,
      total_map_eq_zero cell hcell after i (List.nodup_cons.mp hafter).1]
    simp [total, sumOver]

end ArchetypeProxy.Tally
