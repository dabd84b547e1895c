import Mathlib.Data.List.Pairwise

/-!
# Tagged histories

A history is an append-only list of tagged effects. A view keeps the tags a
test selects and reads one kind of value off the effects. Steps append all
their effects under one tag, so a view grows by the values of the step or not
at all.
-/

set_option autoImplicit false

namespace ArchetypeProxy.History

variable {τ φ β : Type*}

def view (q : τ → Bool) (f : φ → Option β) (log : List (τ × φ)) : List β :=
  log.filterMap (fun e => if q e.1 then f e.2 else none)

theorem mem_view (q : τ → Bool) (f : φ → Option β) (log : List (τ × φ)) (x : β) :
    x ∈ view q f log ↔ ∃ e ∈ log, q e.1 = true ∧ f e.2 = some x := by
  simp only [view, List.mem_filterMap]
  refine exists_congr fun e => and_congr_right fun _ => ?_
  by_cases h : q e.1 <;> simp [h]

theorem view_tagged (q : τ → Bool) (f : φ → Option β) (log : List (τ × φ)) (t : τ)
    (es : List φ) :
    view q f (log++es.map (Prod.mk t)) = view q f log ++ (if q t then es.filterMap f else []) := by
  rw [view, List.filterMap_append, List.filterMap_map]
  by_cases h : q t
  · simp only [h, if_true, Function.comp_def]
    rfl
  · simp [view, h]

theorem view_nodup_unique (q : τ → Bool) (f : φ → Option β) (log : List (τ × φ))
    (hn : (view q f log).Nodup) (d e : τ × φ) (x : β) (hd : d ∈ log) (he : e ∈ log)
    (hqd : q d.1 = true) (hqe : q e.1 = true) (hfd : f d.2 = some x) (hfe : f e.2 = some x) :
    d = e := by
  by_contra hne
  have hp := List.pairwise_filterMap.mp hn
  have hs : Std.Symm (fun a b : τ × φ =>
      ∀ u, (if q a.1 then f a.2 else none) = some u →
        ∀ v, (if q b.1 then f b.2 else none) = some v → u ≠ v) :=
    ⟨fun a b h u hu v hv => (h v hv u hu).symm⟩
  exact hp.forall hd he hne x (by simp [hqd, hfd]) x (by simp [hqe, hfe]) rfl

end ArchetypeProxy.History
