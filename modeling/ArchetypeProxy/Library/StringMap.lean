import Std.Data.ExtTreeMap
import Mathlib.Data.List.Basic

/-!
# Maps keyed by strings

Membership after an update, with equality of keys instead of the comparison.
-/

set_option autoImplicit false

namespace ArchetypeProxy.StringMap

variable {β : Type}

theorem mem_insert_string_iff (m : Std.ExtTreeMap String β) (key k : String) (v : β) :
    k ∈ m.insert key v ↔ k ∈ m ∨ k = key := by
  rw [Std.ExtTreeMap.mem_insert, Std.LawfulEqCmp.compare_eq_iff_eq, or_comm, eq_comm]

def eraseAll (m : Std.ExtTreeMap String β) (keys : List String) : Std.ExtTreeMap String β :=
  keys.foldl (fun m key => m.erase key) m

theorem mem_eraseAll_iff (m : Std.ExtTreeMap String β) (keys : List String) (k : String) :
    k ∈ eraseAll m keys ↔ k ∈ m ∧ k ∉ keys := by
  induction keys generalizing m with
  | nil => simp [eraseAll]
  | cons key keys ih =>
    rw [eraseAll, List.foldl_cons, ← eraseAll, ih]
    simp only [Std.ExtTreeMap.mem_erase, ne_eq, Std.LawfulEqCmp.compare_eq_iff_eq,
      @eq_comm _ key k, List.mem_cons, not_or]
    tauto

end ArchetypeProxy.StringMap
