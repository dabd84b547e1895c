import ArchetypeProxy.Library.Runs
import Mathlib.Logic.Function.Basic

/-!
# Replies made below a machine

What carries the inputs of a machine may answer some of them by itself. A
reply is owed from the moment its input is taken. A later one for the same
place replaces it, and it is made at some later moment or never. Two machines
that cannot be told apart remain so on the same carrier.
-/

set_option autoImplicit false

namespace ArchetypeProxy.Replies
open ArchetypeProxy.Runs

variable {σ τ ι ο κ β : Type} [DecidableEq κ]

structure Carrier (ι ο κ β : Type) where
  asks : ι → Option (κ × β)
  reply : κ → β → ο

/-- A machine as its carrier sees it: whether it takes inputs, and the places it
still reaches. -/
structure Machine (σ ι ο κ : Type) where
  step : σ → ι → σ × List ο
  takes : σ → Bool
  reaches : σ → κ → Bool

variable (c : Carrier ι ο κ β)

def Carrier.owe (owed : κ → Option β) (i : ι) : κ → Option β :=
  match c.asks i with
  | none => owed
  | some (k,b) => Function.update owed k (some b)

def Carrier.step (m : Machine σ ι ο κ) (s : σ × (κ → Option β)) :
    ι ⊕ κ → (σ × (κ → Option β)) × List ο
  | .inl i =>
    (((m.step s.1 i).1,if m.takes s.1 then c.owe s.2 i else s.2),(m.step s.1 i).2)
  | .inr k => match s.2 k with
    | none => (s,[])
    | some b =>
      if m.reaches s.1 k then ((s.1,Function.update s.2 k none),[c.reply k b]) else (s,[])

theorem Carrier.mem_step (m : Machine σ ι ο κ) (s : σ × (κ → Option β)) (x : ι ⊕ κ) (o : ο)
    (h : o ∈ (c.step m s x).2) : (∃ i, o ∈ (m.step s.1 i).2) ∨ ∃ k b, o = c.reply k b := by
  cases x with
  | inl i => exact Or.inl ⟨i,h⟩
  | inr k =>
    simp only [Carrier.step] at h
    split at h
    · cases h
    · rename_i b _
      split at h
      · exact Or.inr ⟨k,b,List.mem_singleton.mp h⟩
      · cases h

theorem Carrier.simulation (m : Machine σ ι ο κ) (m' : Machine τ ι ο κ) (R : ℕ → σ → τ → Prop)
    (hstep : ∀ n s t i, R (n+1) s t →
      (m.step s i).2 = (m'.step t i).2 ∧ R n (m.step s i).1 (m'.step t i).1)
    (hfewer : ∀ n s t, R (n+1) s t → R n s t)
    (hseen : ∀ n s t, R n s t → m.takes s = m'.takes t ∧ m.reaches s = m'.reaches t)
    (s : σ) (t : τ) (owed : κ → Option β) (xs : List (ι ⊕ κ)) (h : R xs.length s t) :
    outputs (c.step m) (s,owed) xs = outputs (c.step m') (t,owed) xs ∧
      R 0 (run (fun s x => (c.step m s x).1) (s,owed) xs).1
        (run (fun t x => (c.step m' t x).1) (t,owed) xs).1 := by
  have hlift := outputs_simulation (c.step m) (c.step m')
    (fun n s t => R n s.1 t.1 ∧ s.2 = t.2) ?_ (s,owed) (t,owed) xs ⟨h,rfl⟩
  · exact ⟨hlift.1,hlift.2.1⟩
  rintro n ⟨s,owed⟩ ⟨t,_⟩ x ⟨hR,rfl⟩
  obtain ⟨htakes,hreaches⟩ := hseen _ _ _ hR
  cases x with
  | inl i =>
    obtain ⟨hout,hnext⟩ := hstep n s t i hR
    refine ⟨hout,hnext,?_⟩
    simp only [Carrier.step, htakes]
  | inr k =>
    have hkept := hfewer n s t hR
    simp only [Carrier.step, hreaches]
    split
    · exact ⟨rfl,hkept,rfl⟩
    · split
      · exact ⟨rfl,hkept,rfl⟩
      · exact ⟨rfl,hkept,rfl⟩

end ArchetypeProxy.Replies
