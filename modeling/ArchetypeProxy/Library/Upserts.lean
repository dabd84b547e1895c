import Std.Data.ExtTreeMap
import Mathlib.Data.List.Induction
import Mathlib.Data.List.Nodup

/-!
# Maps filled from a list

Entries are applied to an ordered map one after another: a value is stored
under its key, an absent value removes the key. A lookup afterwards is decided
by the last entry of the key. Grouping stores each entry in the map of its
group, and the last entry of group and key decides there as well.
-/

set_option autoImplicit false

namespace ArchetypeProxy.Upserts

variable {κ φ β : Type} [DecidableEq κ]

def lastOf (es : List (κ × β)) (k : κ) : Option β :=
  (es.filterMap (fun e => if e.1 = k then some e.2 else none)).getLast?

theorem lastOf_concat (es : List (κ × β)) (e : κ × β) (k : κ) :
    lastOf (es++[e]) k = if e.1 = k then some e.2 else lastOf es k := by
  rw [lastOf, List.filterMap_append]
  by_cases h : e.1 = k
  · simp [h]
  · simp [h, lastOf]

theorem lastOf_append (es fs : List (κ × β)) (k : κ) :
    lastOf (es++fs) k = (lastOf fs k).or (lastOf es k) := by
  simp only [lastOf, List.filterMap_append, List.getLast?_append]

theorem lastOf_map_const (ks : List κ) (v : β) (k : κ) :
    lastOf (ks.map (fun k => (k,v))) k = if k ∈ ks then some v else none := by
  induction ks using List.reverseRecOn with
  | nil => rfl
  | append_singleton ks k' ih =>
    rw [List.map_append, List.map_cons, List.map_nil, lastOf_concat, ih]
    by_cases hk : k' = k
    · simp [hk]
    · simp [hk, Ne.symm hk]

theorem lastOf_eq_some_iff (es : List (κ × β)) (k : κ) (v : β) :
    lastOf es k = some v ↔
      ∃ before after, es = before++(k,v)::after ∧ ∀ e ∈ after, e.1 ≠ k := by
  constructor
  · intro h
    induction es using List.reverseRecOn with
    | nil => simp [lastOf] at h
    | append_singleton es e ih =>
      rw [lastOf_concat] at h
      by_cases hk : e.1 = k
      · rw [if_pos hk] at h
        cases h
        exact ⟨es,[],by rw [← hk],by simp⟩
      · rw [if_neg hk] at h
        obtain ⟨before,after,rfl,hafter⟩ := ih h
        refine ⟨before,after++[e],by simp,fun e' he => ?_⟩
        rcases List.mem_append.mp he with he|he
        · exact hafter e' he
        · rwa [List.mem_singleton.mp he]
  · rintro ⟨before,after,rfl,hafter⟩
    have hnone : after.filterMap (fun e => if e.1 = k then some e.2 else none) = [] := by
      rw [List.filterMap_eq_nil_iff]
      intro e he
      rw [if_neg (hafter e he)]
    simp [lastOf, hnone]

theorem mem_of_lastOf (es : List (κ × β)) (k : κ) (v : β) (h : lastOf es k = some v) :
    (k,v) ∈ es := by
  obtain ⟨before,after,rfl,-⟩ := (lastOf_eq_some_iff es k v).mp h
  simp

theorem lastOf_eq_none_iff (es : List (κ × β)) (k : κ) :
    lastOf es k = none ↔ ∀ e ∈ es, e.1 ≠ k := by
  simp [lastOf]

/-- Every entry is the last of its key exactly when no two entries of one key
differ. -/
theorem lastOf_all_iff (es : List (κ × β)) :
    (∀ e ∈ es, lastOf es e.1 = some e.2) ↔ ∀ e ∈ es, ∀ e' ∈ es, e.1 = e'.1 → e.2 = e'.2 := by
  constructor
  · intro h e he e' he' hk
    have hlast := h e he
    rw [hk, h e' he'] at hlast
    exact (Option.some.inj hlast).symm
  · intro h e he
    cases hlast : lastOf es e.1 with
    | none => exact absurd rfl ((lastOf_eq_none_iff es e.1).mp hlast e he)
    | some v => rw [h e he (e.1,v) (mem_of_lastOf es e.1 v hlast) rfl]

section Maps
variable [Ord κ] [Std.TransOrd κ] [Std.LawfulEqOrd κ]

theorem getElem?_insert_key (m : Std.ExtTreeMap κ β) (key k : κ) (v : β) :
    (m.insert key v)[k]? = if key = k then some v else m[k]? := by
  rw [Std.ExtTreeMap.getElem?_insert]
  simp only [Std.LawfulEqCmp.compare_eq_iff_eq]

theorem getElem?_erase_key (m : Std.ExtTreeMap κ β) (key k : κ) :
    (m.erase key)[k]? = if key = k then none else m[k]? := by
  rw [Std.ExtTreeMap.getElem?_erase]
  simp only [Std.LawfulEqCmp.compare_eq_iff_eq]

def upsert (m : Std.ExtTreeMap κ β) (k : κ) : Option β → Std.ExtTreeMap κ β
  | some v => m.insert k v
  | none => m.erase k

theorem getElem?_upsert (m : Std.ExtTreeMap κ β) (key k : κ) (v : Option β) :
    (upsert m key v)[k]? = if key = k then v else m[k]? := by
  cases v with
  | none => exact getElem?_erase_key m key k
  | some v => exact getElem?_insert_key m key k v

def upserts (m : Std.ExtTreeMap κ β) (es : List (κ × Option β)) : Std.ExtTreeMap κ β :=
  es.foldl (fun m e => upsert m e.1 e.2) m

theorem getElem?_upserts (m : Std.ExtTreeMap κ β) (es : List (κ × Option β)) (k : κ) :
    (upserts m es)[k]? = (lastOf es k).getD m[k]? := by
  induction es using List.reverseRecOn with
  | nil => rfl
  | append_singleton es e ih =>
    rw [upserts, List.foldl_append, List.foldl_cons, List.foldl_nil, ← upserts,
      getElem?_upsert, ih, lastOf_concat]
    by_cases h : e.1 = k
    · rw [if_pos h, if_pos h]
      rfl
    · rw [if_neg h, if_neg h]

def insertAll (m : Std.ExtTreeMap κ β) (es : List (κ × β)) : Std.ExtTreeMap κ β :=
  es.foldl (fun m e => m.insert e.1 e.2) m

theorem getElem?_insertAll (m : Std.ExtTreeMap κ β) (es : List (κ × β)) (k : κ) :
    (insertAll m es)[k]? = (lastOf es k).or m[k]? := by
  induction es using List.reverseRecOn with
  | nil => rfl
  | append_singleton es e ih =>
    rw [insertAll, List.foldl_append, List.foldl_cons, List.foldl_nil, ← insertAll,
      getElem?_insert_key, ih, lastOf_concat]
    by_cases h : e.1 = k
    · rw [if_pos h, if_pos h]
      rfl
    · rw [if_neg h, if_neg h]

theorem insertAll_keeps_iff (es : List (κ × β)) :
    (∀ e ∈ es, (insertAll (∅ : Std.ExtTreeMap κ β) es)[e.1]? = some e.2) ↔
      ∀ e ∈ es, ∀ e' ∈ es, e.1 = e'.1 → e.2 = e'.2 := by
  rw [← lastOf_all_iff]
  simp only [getElem?_insertAll, Std.ExtTreeMap.getElem?_empty, Option.or_none]

theorem mem_toList_insertAll_iff (es : List (κ × β))
    (h : ∀ e ∈ es, ∀ e' ∈ es, e.1 = e'.1 → e.2 = e'.2) (e : κ × β) :
    e ∈ (insertAll (∅ : Std.ExtTreeMap κ β) es).toList ↔ e ∈ es := by
  rw [Std.ExtTreeMap.mem_toList_iff_getElem?_eq_some, getElem?_insertAll,
    Std.ExtTreeMap.getElem?_empty, Option.or_none]
  exact ⟨mem_of_lastOf es e.1 e.2,(lastOf_all_iff es).mpr h e⟩

/-- The entries of a map in any order give the map back. -/
theorem insertAll_eq_of_mem_iff (m : Std.ExtTreeMap κ β) (es : List (κ × β))
    (h : ∀ e, e ∈ es ↔ m[e.1]? = some e.2) : insertAll ∅ es = m := by
  refine Std.ExtTreeMap.ext_getElem? fun k => ?_
  rw [getElem?_insertAll, Std.ExtTreeMap.getElem?_empty, Option.or_none]
  cases hlast : lastOf es k with
  | some v => exact ((h (k,v)).mp (mem_of_lastOf es k v hlast)).symm
  | none =>
    cases hm : m[k]? with
    | none => rfl
    | some v => exact absurd rfl ((lastOf_eq_none_iff es k).mp hlast (k,v) ((h (k,v)).mpr hm))

omit [DecidableEq κ] [Std.LawfulEqOrd κ] in
theorem nodup_of_ascending {α : Type} (key : α → κ) (xs : List α)
    (h : xs.Pairwise (fun a b => compare (key a) (key b) = .lt)) : xs.Nodup := by
  refine h.imp fun {a b} hlt => ?_
  rintro rfl
  simp [Std.ReflCmp.compare_self] at hlt

omit [DecidableEq κ] in
theorem toList_filter_eq (p : κ → Bool) (m m' : Std.ExtTreeMap κ β)
    (h : ∀ k, p k = true → m[k]? = m'[k]?) :
    m.toList.filter (fun e => p e.1) = m'.toList.filter (fun e => p e.1) := by
  have hsorted (m : Std.ExtTreeMap κ β) :
      (m.toList.filter (fun e => p e.1)).Pairwise (fun a b => compare a.1 b.1 = .lt) :=
    Std.ExtTreeMap.ordered_keys_toList.sublist List.filter_sublist
  have hnodup (m : Std.ExtTreeMap κ β) : (m.toList.filter (fun e => p e.1)).Nodup :=
    nodup_of_ascending Prod.fst _ (hsorted m)
  refine List.Perm.eq_of_pairwise (fun a b _ _ hab hba => ?_) (hsorted m) (hsorted m') ?_
  · exact absurd hba (Std.OrientedCmp.not_lt_of_lt hab)
  · rw [List.perm_ext_iff_of_nodup (hnodup m) (hnodup m')]
    rintro ⟨k,v⟩
    simp only [List.mem_filter, Std.ExtTreeMap.mem_toList_iff_getElem?_eq_some]
    constructor
    · rintro ⟨hv,hp⟩
      exact ⟨h k hp ▸ hv,hp⟩
    · rintro ⟨hv,hp⟩
      exact ⟨(h k hp).symm ▸ hv,hp⟩

end Maps

section Groups
variable [DecidableEq φ] [Ord κ] [Std.TransOrd κ] [Std.LawfulEqOrd κ]
variable [Ord φ] [Std.TransOrd φ] [Std.LawfulEqOrd φ]

def putIn (m : Std.ExtTreeMap κ (Std.ExtTreeMap φ β)) (g : κ) (k : φ) (v : β) :
    Std.ExtTreeMap κ (Std.ExtTreeMap φ β) :=
  m.insert g ((m.getD g ∅).insert k v)

def lookupIn (m : Std.ExtTreeMap κ (Std.ExtTreeMap φ β)) (g : κ) (k : φ) : Option β :=
  (m[g]?).bind (fun group => group[k]?)

theorem lookupIn_putIn (m : Std.ExtTreeMap κ (Std.ExtTreeMap φ β)) (g g' : κ) (k k' : φ) (v : β) :
    lookupIn (putIn m g k v) g' k' = if (g,k) = (g',k') then some v else lookupIn m g' k' := by
  rw [lookupIn, putIn, getElem?_insert_key]
  by_cases hg : g = g'
  · subst hg
    rw [if_pos rfl, Option.bind_some, getElem?_insert_key]
    by_cases hk : k = k'
    · simp [hk]
    · rw [if_neg hk, if_neg (by simp [hk]), lookupIn, Std.ExtTreeMap.getD_eq_getD_getElem?]
      cases m[g]? <;> simp
  · rw [if_neg hg, if_neg (by simp [hg]), lookupIn]

def groupAll (m : Std.ExtTreeMap κ (Std.ExtTreeMap φ β)) (es : List ((κ × φ) × β)) :
    Std.ExtTreeMap κ (Std.ExtTreeMap φ β) :=
  es.foldl (fun m e => putIn m e.1.1 e.1.2 e.2) m

theorem lookupIn_groupAll (m : Std.ExtTreeMap κ (Std.ExtTreeMap φ β)) (es : List ((κ × φ) × β))
    (g : κ) (k : φ) : lookupIn (groupAll m es) g k = (lastOf es (g,k)).or (lookupIn m g k) := by
  induction es using List.reverseRecOn with
  | nil => rfl
  | append_singleton es e ih =>
    rw [groupAll, List.foldl_append, List.foldl_cons, List.foldl_nil, ← groupAll,
      lookupIn_putIn, ih, lastOf_concat]
    by_cases h : e.1 = (g,k)
    · rw [if_pos h, if_pos h]
      rfl
    · rw [if_neg h, if_neg h]

end Groups

omit [DecidableEq κ] in
theorem mem_values_iff {cmp : κ → κ → Ordering} [Std.TransCmp cmp] [Std.LawfulEqCmp cmp]
    (m : Std.ExtTreeMap κ β cmp) (v : β) : v ∈ m.values ↔ ∃ k : κ, m[k]? = some v := by
  have hvalues : m.values = m.toList.map Prod.snd := by
    obtain ⟨⟨q⟩⟩ := m
    induction q using Quotient.ind with
    | _ t =>
      show Std.DTreeMap.Internal.Impl.values t.inner =
        (Std.DTreeMap.Internal.Impl.Const.toList t.inner).map Prod.snd
      rw [Std.DTreeMap.Internal.Impl.values_eq_map_snd,
        Std.DTreeMap.Internal.Impl.Const.toList_eq_toListModel_map]
      simp
  rw [hvalues, List.mem_map]
  constructor
  · rintro ⟨⟨k,w⟩,hmem,rfl⟩
    exact ⟨k,Std.ExtTreeMap.mem_toList_iff_getElem?_eq_some.mp hmem⟩
  · rintro ⟨k,hk⟩
    exact ⟨(k,v),Std.ExtTreeMap.mem_toList_iff_getElem?_eq_some.mpr hk,rfl⟩

end ArchetypeProxy.Upserts
