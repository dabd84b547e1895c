import ArchetypeProxy.Library.Runs
import Mathlib.Data.Set.Basic

/-!
# Hash chains

A chain absorbs one item after the other into a state. A link is an item with
the state it meets. When no two of the links that were ever made lead to one
state and none leads back to the start, a state determines all items before
it, and items that each stand at a place with the right state form the
beginning of one stream.
-/

set_option autoImplicit false

namespace ArchetypeProxy.HashChain
open ArchetypeProxy.Runs

variable {η γ ε : Type*} (absorb : η → γ → η) (start : η)

def links : η → List γ → List (η × γ)
  | _, [] => []
  | h, c::cs => (h,c)::links (absorb h c) cs

theorem links_append (h : η) (cs ds : List γ) :
    links absorb h (cs++ds) = links absorb h cs++links absorb (run absorb h cs) ds := by
  induction cs generalizing h with
  | nil => rfl
  | cons c cs ih => exact congrArg (List.cons (h,c)) (ih (absorb h c))

theorem mem_links (h : η) (cs : List γ) (l : η × γ) (hl : l ∈ links absorb h cs) :
    ∃ before after, cs = before++l.2::after ∧ l.1 = run absorb h before := by
  induction cs generalizing h with
  | nil => cases hl
  | cons c cs ih =>
    rcases List.mem_cons.mp hl with rfl | hl
    · exact ⟨[],cs,rfl,rfl⟩
    · obtain ⟨before,after,rfl,hstate⟩ := ih (absorb h c) hl
      exact ⟨c::before,after,rfl,hstate⟩

/-- No two links of the set lead to one state, and none leads to the start. -/
structure Unforked (S : Set (η × γ)) : Prop where
  inj : ∀ l ∈ S, ∀ l' ∈ S, absorb l.1 l.2 = absorb l'.1 l'.2 → l = l'
  ne_start : ∀ l ∈ S, absorb l.1 l.2 ≠ start

variable {absorb start}

theorem run_inj {S : Set (η × γ)} (hS : Unforked absorb start S) (cs ds : List γ)
    (hcs : ∀ l ∈ links absorb start cs, l ∈ S) (hds : ∀ l ∈ links absorb start ds, l ∈ S)
    (h : run absorb start cs = run absorb start ds) : cs = ds := by
  have hlast (xs : List γ) (x : γ) (hxs : ∀ l ∈ links absorb start (xs++[x]), l ∈ S) :
      (∀ l ∈ links absorb start xs, l ∈ S) ∧ (run absorb start xs,x) ∈ S := by
    rw [links_append] at hxs
    exact ⟨fun l hl => hxs l (List.mem_append_left _ hl),hxs _ (by simp [links])⟩
  induction cs using List.reverseRecOn generalizing ds with
  | nil =>
    rcases List.eq_nil_or_concat ds with rfl | ⟨ds,d,rfl⟩
    · rfl
    · rw [List.concat_eq_append] at hds h
      rw [run_concat] at h
      exact absurd h.symm (hS.ne_start _ (hlast ds d hds).2)
  | append_singleton cs c ih =>
    rw [run_concat] at h
    rcases List.eq_nil_or_concat ds with rfl | ⟨ds,d,rfl⟩
    · exact absurd h (hS.ne_start _ (hlast cs c hcs).2)
    · rw [List.concat_eq_append] at hds h ⊢
      rw [run_concat] at h
      obtain ⟨hstate,rfl⟩ := Prod.mk.inj (hS.inj _ (hlast cs c hcs).2 _ (hlast ds d hds).2 h)
      rw [ih ds (hlast cs c hcs).1 (hlast ds _ hds).1 hstate]

theorem eq_of_map_eq {item : ε → γ} (xs ys : List ε)
    (h : ∀ x ∈ xs, ∀ y ∈ ys, item x = item y → x = y) (hmap : xs.map item = ys.map item) :
    xs = ys := by
  induction xs generalizing ys with
  | nil => simpa [eq_comm] using hmap
  | cons x xs ih =>
    cases ys with
    | nil => simp at hmap
    | cons y ys =>
      rw [List.map_cons, List.map_cons, List.cons.injEq] at hmap
      have hhead := h x (by simp) y (by simp) hmap.1
      have htail := ih ys (fun a ha b hb => h a (by simp [ha]) b (by simp [hb])) hmap.2
      rw [hhead, htail]

def linksOf (absorb : η → γ → η) (start : η) (item : ε → γ) (streams : Set (List ε)) :
    Set (η × γ) :=
  {l | ∃ s ∈ streams, l ∈ links absorb start (s.map item)}

/-- Elements that each stand in some stream behind the state they are met with
are the beginning of one stream. -/
theorem prefix_of_places {item : ε → γ} {streams : Set (List ε)}
    (hS : Unforked absorb start (linksOf absorb start item streams))
    (hitem : ∀ s ∈ streams, ∀ s' ∈ streams, ∀ e ∈ s, ∀ e' ∈ s', item e = item e' → e = e')
    (es : List ε)
    (hes : ∀ before e after, es = before++e::after → ∃ s ∈ streams, ∃ b a, s = b++e::a ∧
      run absorb start (b.map item) = run absorb start (before.map item)) :
    es = [] ∨ ∃ s ∈ streams, es <+: s := by
  rcases List.eq_nil_or_concat es with rfl | ⟨init,e,rfl⟩
  · exact Or.inl rfl
  rw [List.concat_eq_append] at hes ⊢
  obtain ⟨s,hs,b,a,rfl,hrun⟩ := hes init e [] rfl
  have hinit : ∀ l ∈ links absorb start (init.map item), l ∈ linksOf absorb start item streams := by
    intro l hl
    obtain ⟨before,after,hsplit,hstate⟩ := mem_links absorb start _ l hl
    obtain ⟨xs,ys,rfl,rfl,hys⟩ := List.map_eq_append_iff.mp hsplit
    obtain ⟨x,ys,rfl,hx,rfl⟩ := List.map_eq_cons_iff.mp hys
    obtain ⟨s',hs',b',a',rfl,hrun'⟩ := hes xs x (ys++[e]) (by simp)
    refine ⟨_,hs',?_⟩
    have hlink : l = (run absorb start (b'.map item),item x) :=
      Prod.ext (by rw [hstate, hrun']) hx.symm
    rw [hlink, List.map_append, links_append]
    exact List.mem_append_right _ (by simp [links])
  have hb : ∀ l ∈ links absorb start (b.map item), l ∈ linksOf absorb start item streams := by
    intro l hl
    refine ⟨_,hs,?_⟩
    rw [List.map_append, links_append]
    exact List.mem_append_left _ hl
  have hitems := run_inj hS _ _ hb hinit hrun
  have heq : b = init := by
    apply eq_of_map_eq b init _ hitems
    intro x hx y hy
    obtain ⟨xs,ys,rfl⟩ := List.append_of_mem hy
    obtain ⟨s',hs',b',a',rfl,_⟩ := hes xs y (ys++[e]) (by simp)
    exact hitem _ hs _ hs' x (by simp [hx]) y (by simp)
  subst heq
  exact Or.inr ⟨_,hs,a,by simp⟩

end ArchetypeProxy.HashChain
