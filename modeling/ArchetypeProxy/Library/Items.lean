import ArchetypeProxy.Library.Text
import Mathlib.Data.List.Forall2

/-!
# Lists of items in a text

A text holds items between separators. The reader cuts at the separators,
takes the white space off each piece and drops the empty ones. A text lists
values when it is written from them: blanks may stand where an item could,
and any separator may stand between two such texts.
-/

set_option autoImplicit false

namespace ArchetypeProxy.Items
open ArchetypeProxy.Text

variable {α β γ : Type}

section Related
variable (R : α → β → Prop) (xs : List α) (ys : List β)

theorem forall₂_exists_right (h : List.Forall₂ R xs ys) (x : α) (hx : x ∈ xs) :
    ∃ y ∈ ys, R x y := by
  induction h with
  | nil => cases hx
  | cons hr _ ih =>
    rcases List.mem_cons.mp hx with rfl|hx
    · exact ⟨_,by simp,hr⟩
    · obtain ⟨y,hy,hxy⟩ := ih hx
      exact ⟨y,by simp [hy],hxy⟩

theorem forall₂_exists_left (h : List.Forall₂ R xs ys) (y : β) (hy : y ∈ ys) :
    ∃ x ∈ xs, R x y :=
  forall₂_exists_right (fun y x => R x y) ys xs h.flip y hy

theorem exists_forall₂ (h : ∀ x ∈ xs, ∃ y, R x y) : ∃ ys, List.Forall₂ R xs ys := by
  induction xs with
  | nil => exact ⟨[],.nil⟩
  | cons x xs ih =>
    obtain ⟨y,hy⟩ := h x (by simp)
    obtain ⟨ys,hys⟩ := ih fun x hx => h x (by simp [hx])
    exact ⟨y::ys,.cons hy hys⟩

theorem forall₂_filterMap (f : α → Option γ) (R : γ → β → Prop)
    (h : List.Forall₂ (fun x y => ∃ z, f x = some z ∧ R z y) xs ys) :
    List.Forall₂ R (xs.filterMap f) ys := by
  induction h with
  | nil => exact .nil
  | cons hx _ ih =>
    obtain ⟨z,hz,hr⟩ := hx
    rw [List.filterMap_cons_some hz]
    exact .cons hr ih

end Related

def items (s : String) (sep : Char → Bool) : List String :=
  ((split s sep).map trim).filter (fun t => !isEmpty t)

def Padded (s t : String) : Prop := ∃ l r, Blank l ∧ Blank r ∧ t = l++s++r

theorem padded_self (s : String) : Padded s s :=
  ⟨"","",by simp [Blank],by simp [Blank],by simp⟩

theorem Padded.trim_eq {s t : String} (h : Padded s t) : trim t = trim s := by
  obtain ⟨l,r,hl,hr,rfl⟩ := h
  exact trim_surrounded l s r hl hr

theorem Padded.mem {s t : String} (h : Padded s t) (c : Char) (hc : c ∈ t.toList) :
    isWhiteSpace c = true ∨ c ∈ s.toList := by
  obtain ⟨l,r,hl,hr,rfl⟩ := h
  rw [String.toList_append, String.toList_append, List.mem_append, List.mem_append] at hc
  rcases hc with (hc|hc)|hc
  · exact Or.inl (hl c hc)
  · exact Or.inr hc
  · exact Or.inl (hr c hc)

/-- The text lists the values, each as one of the texts written for it. -/
inductive Listing (sep : Char → Bool) (Written : α → String → Prop) : List α → String → Prop where
  | blank (t : String) (h : Blank t) : Listing sep Written [] t
  | item (a : α) (t : String) (h : Written a t) : Listing sep Written [a] t
  | join (xs ys : List α) (s t : String) (c : Char) (hc : sep c = true)
      (hs : Listing sep Written xs s) (ht : Listing sep Written ys t) :
      Listing sep Written (xs++ys) (s++String.singleton c++t)

section Reading
variable (sep : Char → Bool)

theorem items_join (s t : String) (c : Char) (hc : sep c = true) :
    items (s++String.singleton c++t) sep = items s sep++items t sep := by
  rw [items, split, String.toList_append, String.toList_append, String.toList_singleton,
    List.append_assoc, List.singleton_append, List.splitOnP_append_cons _ _ hc, List.map_append,
    List.map_append, List.filter_append]
  rfl

theorem items_single (t : String) (h : ∀ c ∈ t.toList, sep c = false) :
    items t sep = if isEmpty (trim t) then [] else [trim t] := by
  rw [items, split, List.splitOnP_eq_singleton h, List.map_singleton, String.ofList_toList,
    List.map_singleton]
  cases hempty : isEmpty (trim t) <;> simp [hempty]

def Single (t : String) : Prop := (∀ c ∈ t.toList, sep c = false) ∧ isEmpty (trim t) = false

theorem single_padded (hsep : ∀ c, isWhiteSpace c = true → sep c = false) (s t : String)
    (hpad : Padded s t) (htrim : trim s = s) (hne : s ≠ "") (hs : ∀ c ∈ s.toList, sep c = false) :
    Single sep t ∧ trim t = s := by
  have ht : trim t = s := hpad.trim_eq.trans htrim
  refine ⟨⟨?_,by simpa [ht, isEmpty] using hne⟩,ht⟩
  intro c hc
  rcases hpad.mem c hc with hw|hc
  · exact hsep c hw
  · exact hs c hc

/-- A text that lists values is read as one item for each of them. -/
theorem items_listing (Written R : α → String → Prop) (xs : List α) (t : String)
    (hsep : ∀ c, isWhiteSpace c = true → sep c = false)
    (hitem : ∀ a ∈ xs, ∀ t, Written a t → Single sep t ∧ R a (trim t))
    (h : Listing sep Written xs t) : List.Forall₂ R xs (items t sep) := by
  induction h with
  | blank t hblank =>
    have hempty : isEmpty (trim t) = true := by
      simp [isEmpty, trim, List.dropWhile_eq_nil_iff.mpr hblank]
    rw [items_single sep t fun c hc => hsep c (hblank c hc), if_pos hempty]
    exact .nil
  | item a t hw =>
    obtain ⟨⟨hwhole,hne⟩,hr⟩ := hitem a (by simp) t hw
    rw [items_single sep t hwhole, hne]
    exact .cons hr .nil
  | join xs ys s t c hc _ _ ihs iht =>
    rw [items_join sep s t c hc]
    refine List.rel_append (ihs fun a ha => hitem a ?_) (iht fun a ha => hitem a ?_)
    · exact List.mem_append_left _ ha
    · exact List.mem_append_right _ ha

theorem not_isEmpty_of_items (R : α → String → Prop) (xs : List α) (t : String)
    (h : List.Forall₂ R xs (items t sep)) (hne : xs ≠ []) : isEmpty t = false := by
  rw [isEmpty_eq_false_iff]
  rintro rfl
  exact hne (List.length_eq_zero_iff.mp h.length_eq)

end Reading

def joinWith (sep : String) : List String → String
  | [] => ""
  | [s] => s
  | s::t::ts => s++sep++joinWith sep (t::ts)

theorem listing_joinWith (sep : Char → Bool) (Written : α → String → Prop) (c : Char)
    (hc : sep c = true) (f : α → String) (xs : List α) (h : ∀ a ∈ xs, Written a (f a)) :
    Listing sep Written xs (joinWith (String.singleton c) (xs.map f)) := by
  induction xs with
  | nil => exact .blank "" (by simp [Blank])
  | cons a xs ih =>
    have ha : Listing sep Written [a] (f a) := .item a (f a) (h a (by simp))
    cases xs with
    | nil => exact ha
    | cons b xs => exact .join [a] (b::xs) _ _ c hc ha (ih fun x hx => h x (by simp [hx]))

end ArchetypeProxy.Items
