import Mathlib.Data.List.MinMax
import Mathlib.Data.List.Sort

/-!
# First match in a stable descending sort

A table is sorted once by a key, largest key first, and queried many times
for its first accepted entry. The sort is stable, so the answer is determined
by the unsorted list: the earliest accepted entry of maximal key. Positions
are those of the unsorted list, which keeps duplicates apart.
-/

set_option autoImplicit false

namespace ArchetypeProxy.StableSelection

variable {α κ : Type*} [LinearOrder κ]

/-- Stable: an element enters before every later element of an equal key. -/
def sortDescending (key : α → κ) (l : List α) : List α :=
  l.insertionSort (fun a b => key b ≤ key a)

theorem sorted_descending (key : α → κ) (l : List α) :
    (sortDescending key l).Pairwise (fun a b => key b ≤ key a) := by
  have ht : IsTrans α (fun a b => key b ≤ key a) := ⟨fun _ _ _ h h' => le_trans h' h⟩
  have hd : Std.Total (fun a b : α => key b ≤ key a) := ⟨fun a b => le_total (key b) (key a)⟩
  exact List.pairwise_insertionSort _ l

theorem sort_perm (key : α → κ) (l : List α) : (sortDescending key l).Perm l :=
  List.perm_insertionSort _ l

theorem find_insert (key : α → κ) (p : α → Bool) (a : α) (l : List α)
    (hl : l.Pairwise (fun a b => key b ≤ key a)) :
    (l.orderedInsert (fun a b => key b ≤ key a) a).find? p =
      if p a then some ((l.find? p).elim a (fun b => if key a < key b then b else a))
      else l.find? p := by
  induction l with
  | nil => by_cases ha : p a <;> simp [ha]
  | cons b l ih =>
    obtain ⟨hb,hl'⟩ := List.pairwise_cons.mp hl
    by_cases hab : key b ≤ key a
    · rw [List.orderedInsert_cons, if_pos hab]
      by_cases ha : p a
      · have hle : ∀ c, (b::l).find? p = some c → ¬ key a < key c := by
          intro c hc
          rcases List.mem_cons.mp (List.mem_of_find?_eq_some hc) with rfl | hm
          · exact not_lt.mpr hab
          · exact not_lt.mpr (le_trans (hb c hm) hab)
        rw [List.find?_cons_of_pos ha, if_pos ha]
        cases hf : (b::l).find? p with
        | none => rfl
        | some c => simp [hle c hf]
      · rw [List.find?_cons_of_neg ha, if_neg ha]
    · rw [List.orderedInsert_cons, if_neg hab]
      by_cases hp : p b
      · by_cases ha : p a <;> simp [hp, ha, not_le.mp hab]
      · rw [List.find?_cons_of_neg hp, List.find?_cons_of_neg hp, ih hl']

/-- The first accepted entry of the sorted list is the first accepted entry of
maximal key of the list as given. -/
theorem find_sorted_argmax (key : α → κ) (p : α → Bool) (l : List α) :
    (sortDescending key l).find? p = (l.filter p).argmax key := by
  induction l with
  | nil => rfl
  | cons a l ih =>
    change ((sortDescending key l).orderedInsert _ a).find? p = _
    rw [find_insert key p a _ (sorted_descending key l), ih]
    by_cases ha : p a
    · rw [if_pos ha, List.filter_cons_of_pos ha, List.argmax_cons]
      cases (l.filter p).argmax key with
      | none => rfl
      | some b => by_cases h : key a < key b <;> simp [h]
    · rw [if_neg ha, List.filter_cons_of_neg ha]

/-- The entry at position `i` is accepted and precedes every accepted entry:
its key is larger, or equal with an earlier position. -/
structure Leads (key : α → κ) (p : α → Bool) (l : List α) (i : ℕ) (a : α) : Prop where
  entry : l[i]? = some a
  accepted : p a = true
  precedes : ∀ j b, l[j]? = some b → p b = true → key b < key a ∨ key b = key a ∧ i ≤ j

theorem leads_unique (key : α → κ) (p : α → Bool) (l : List α) (i j : ℕ) (a b : α)
    (ha : Leads key p l i a) (hb : Leads key p l j b) : i = j ∧ a = b := by
  have hij : i = j := by
    rcases ha.precedes j b hb.entry hb.accepted with h | ⟨_,h⟩ <;>
      rcases hb.precedes i a ha.entry ha.accepted with h' | ⟨_,h'⟩
    · exact absurd h (lt_asymm h')
    · simp_all
    · simp_all
    · omega
  subst hij
  exact ⟨rfl,by simpa [ha.entry] using hb.entry⟩

theorem Leads.le {key : α → κ} {p : α → Bool} {l : List α} {i : ℕ} {a : α}
    (h : Leads key p l i a) (b : α) (hb : b ∈ l) (hp : p b = true) : key b ≤ key a := by
  obtain ⟨j,hj⟩ := List.getElem?_of_mem hb
  rcases h.precedes j b hj hp with hk | ⟨hk,_⟩
  · exact le_of_lt hk
  · exact le_of_eq hk

theorem leads_head (key : α → κ) (p : α → Bool) (c : α) (l : List α) (hc : p c = true)
    (hle : ∀ b ∈ l, p b = true → key b ≤ key c) : Leads key p (c::l) 0 c := by
  refine ⟨rfl,hc,?_⟩
  intro j b hb hp
  have hbc : key b ≤ key c := by
    rcases List.mem_cons.mp (List.mem_of_getElem? hb) with rfl | hm
    · exact le_rfl
    · exact hle b hm hp
  rcases lt_or_eq_of_le hbc with hk | hk
  · exact Or.inl hk
  · exact Or.inr ⟨hk,Nat.zero_le _⟩

theorem leads_tail (key : α → κ) (p : α → Bool) (c : α) (l : List α) (i : ℕ) (a : α)
    (h : Leads key p l i a) (hc : p c = true → key c < key a) : Leads key p (c::l) (i+1) a := by
  refine ⟨h.entry,h.accepted,?_⟩
  rintro (_ | j) b hb hp
  · have hcb : c = b := by simpa using hb
    exact Or.inl (hcb ▸ hc (hcb ▸ hp))
  · rcases h.precedes j b hb hp with hk | ⟨hk,hj⟩
    · exact Or.inl hk
    · exact Or.inr ⟨hk,by omega⟩

theorem leads_of_argmax (key : α → κ) (p : α → Bool) (l : List α) (a : α)
    (h : (l.filter p).argmax key = some a) : ∃ i, Leads key p l i a := by
  induction l generalizing a with
  | nil => simp at h
  | cons c l ih =>
    by_cases hc : p c
    · rw [List.filter_cons_of_pos hc, List.argmax_cons] at h
      cases hm : (l.filter p).argmax key with
      | none =>
        have hnone : ∀ b ∈ l, ¬ p b := by simpa using List.argmax_eq_none.mp hm
        simp only [hm, Option.some.injEq] at h
        subst h
        exact ⟨0,leads_head key p c l hc fun b hb hp => absurd hp (hnone b hb)⟩
      | some m =>
        obtain ⟨i,hi⟩ := ih m hm
        simp only [hm] at h
        by_cases hlt : key c < key m
        · simp only [hlt, if_true, Option.some.injEq] at h
          subst h
          exact ⟨i+1,leads_tail key p c l i m hi fun _ => hlt⟩
        · simp only [hlt, if_false, Option.some.injEq] at h
          subst h
          exact ⟨0,leads_head key p c l hc fun b hb hp =>
            le_trans (hi.le b hb hp) (not_lt.mp hlt)⟩
    · rw [List.filter_cons_of_neg hc] at h
      obtain ⟨i,hi⟩ := ih a h
      exact ⟨i+1,leads_tail key p c l i a hi fun hp => absurd hp hc⟩

theorem find_sorted_none_iff (key : α → κ) (p : α → Bool) (l : List α) :
    (sortDescending key l).find? p = none ↔ ∀ b ∈ l, ¬ p b := by
  rw [find_sorted_argmax, List.argmax_eq_none, List.filter_eq_nil_iff]

theorem find_sorted_iff (key : α → κ) (p : α → Bool) (l : List α) (a : α) :
    (sortDescending key l).find? p = some a ↔ ∃ i, Leads key p l i a := by
  constructor
  · intro h
    exact leads_of_argmax key p l a (by rw [← find_sorted_argmax, h])
  · rintro ⟨i,hi⟩
    cases hf : (sortDescending key l).find? p with
    | none =>
      exact absurd hi.accepted ((find_sorted_none_iff key p l).mp hf a
        (List.mem_of_getElem? hi.entry))
    | some b =>
      obtain ⟨j,hj⟩ := leads_of_argmax key p l b (by rw [← find_sorted_argmax, hf])
      rw [(leads_unique key p l i j a b hi hj).2]

theorem argmax_last_resort (key : α → κ) (before after : List α) (d : α)
    (hbefore : ∀ b ∈ before, key d ≤ key b) (hafter : ∀ a ∈ after, key d < key a) :
    (before++d::after).argmax key = ((before++after).argmax key).or (some d) := by
  induction before with
  | nil =>
    rw [List.nil_append, List.nil_append, List.argmax_cons]
    cases h : after.argmax key with
    | none => rfl
    | some c => simp [hafter c (List.argmax_mem h)]
  | cons b before ih =>
    have hrest := ih fun x hx => hbefore x (List.mem_cons_of_mem b hx)
    rw [List.cons_append, List.cons_append, List.argmax_cons, List.argmax_cons, hrest]
    cases (before++after).argmax key with
    | none => simp [not_lt.mpr (hbefore b List.mem_cons_self)]
    | some c => by_cases h : key b < key c <;> simp [h]

theorem find_sorted_last_resort (key : α → κ) (p : α → Bool) (before after : List α) (d : α)
    (hbefore : ∀ b ∈ before, key d ≤ key b) (hafter : ∀ a ∈ after, key d < key a) :
    (sortDescending key (before++d::after)).find? p =
      ((sortDescending key (before++after)).find? p).or (if p d then some d else none) := by
  rw [find_sorted_argmax, find_sorted_argmax, List.filter_append, List.filter_append]
  by_cases hd : p d
  · rw [List.filter_cons_of_pos hd, if_pos hd]
    exact argmax_last_resort key _ _ d (fun b hb => hbefore b (List.mem_filter.mp hb).1)
      (fun a ha => hafter a (List.mem_filter.mp ha).1)
  · rw [List.filter_cons_of_neg hd, if_neg hd, Option.or_none]

end ArchetypeProxy.StableSelection
