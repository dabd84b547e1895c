import Mathlib.Data.List.Induction

/-!
# Runs of a deterministic machine

A machine consumes a list of events, one step each. Interleavings of several
parties are event lists, so a statement about every list covers every order
of steps. A property that one step keeps exactly when the step is admissible
holds after a run exactly when every step of the run was admissible.
-/

set_option autoImplicit false

namespace ArchetypeProxy.Runs

variable {σ ε : Type*}

def run (step : σ → ε → σ) (s : σ) (es : List ε) : σ := es.foldl step s

theorem run_append (step : σ → ε → σ) (s : σ) (es fs : List ε) :
    run step s (es++fs) = run step (run step s es) fs :=
  List.foldl_append

theorem run_concat (step : σ → ε → σ) (s : σ) (es : List ε) (e : ε) :
    run step s (es++[e]) = step (run step s es) e := by
  rw [run_append]
  rfl

theorem run_invariant (step : σ → ε → σ) (Inv : σ → Prop)
    (hstep : ∀ s e, Inv s → Inv (step s e)) (s : σ) (hs : Inv s) (es : List ε) :
    Inv (run step s es) := by
  induction es generalizing s with
  | nil => exact hs
  | cons e es ih => exact ih (step s e) (hstep s e hs)

/-- Every event of the list is admissible in the state it meets. -/
def Throughout (step : σ → ε → σ) (Ok : σ → ε → Prop) (s : σ) (es : List ε) : Prop :=
  ∀ before e after, es = before++e::after → Ok (run step s before) e

theorem throughout_nil (step : σ → ε → σ) (Ok : σ → ε → Prop) (s : σ) :
    Throughout step Ok s [] := by
  intro before e after h
  simp at h

theorem throughout_cons (step : σ → ε → σ) (Ok : σ → ε → Prop) (s : σ) (e : ε) (es : List ε) :
    Throughout step Ok s (e::es) ↔ Ok s e ∧ Throughout step Ok (step s e) es := by
  constructor
  · intro h
    refine ⟨h [] e es rfl,?_⟩
    intro before f after hes
    exact h (e::before) f after (by simp [hes])
  · rintro ⟨he,h⟩ before f after hes
    cases before with
    | nil =>
      rw [List.nil_append, List.cons.injEq] at hes
      exact hes.1 ▸ he
    | cons g before =>
      rw [List.cons_append, List.cons.injEq] at hes
      rw [← hes.1]
      exact h before f after hes.2

theorem throughout_concat (step : σ → ε → σ) (Ok : σ → ε → Prop) (s : σ)
    (es : List ε) (e : ε) :
    Throughout step Ok s (es++[e]) ↔
      Throughout step Ok s es ∧ Ok (run step s es) e := by
  constructor
  · intro h
    refine ⟨?_,h es e [] rfl⟩
    intro before f after hes
    exact h before f (after++[e]) (by simp [hes])
  · rintro ⟨h,he⟩ before f after hes
    rcases List.eq_nil_or_concat after with rfl | ⟨rest,g,rfl⟩
    · obtain ⟨rfl,hf⟩ := List.append_inj' hes rfl
      rw [List.cons.injEq] at hf
      exact hf.1 ▸ he
    · rw [List.concat_eq_append, ← List.cons_append, ← List.append_assoc] at hes
      exact h before f rest (List.append_inj' hes rfl).1

theorem run_iff_throughout (step : σ → ε → σ) (Inv P : σ → Prop) (Ok : σ → ε → Prop)
    (hinv : ∀ s e, Inv s → Inv (step s e))
    (hstep : ∀ s e, Inv s → (P (step s e) ↔ P s ∧ Ok s e))
    (s : σ) (hs : Inv s) (hp : P s) (es : List ε) :
    P (run step s es) ↔ Throughout step Ok s es := by
  induction es using List.reverseRecOn with
  | nil => exact iff_of_true hp (throughout_nil step Ok s)
  | append_singleton es e ih =>
    rw [run_concat, throughout_concat, ← ih]
    exact hstep _ e (run_invariant step Inv hinv s hs es)

theorem throughout_of_append (step : σ → ε → σ) (Ok : σ → ε → Prop) (s : σ) (es fs : List ε)
    (h : Throughout step Ok s (es++fs)) : Throughout step Ok s es := by
  intro before e after hes
  exact h before e (after++fs) (by simp [hes])

theorem throughout_mono (step : σ → ε → σ) (Inv : σ → Prop) (Ok Ok' : σ → ε → Prop)
    (hinv : ∀ s e, Inv s → Inv (step s e)) (hok : ∀ s e, Inv s → Ok s e → Ok' s e)
    (s : σ) (hs : Inv s) (es : List ε) (h : Throughout step Ok s es) :
    Throughout step Ok' s es := by
  intro before e after hes
  exact hok _ e (run_invariant step Inv hinv s hs before) (h before e after hes)

theorem run_invariant_of_throughout (step : σ → ε → σ) (Inv : σ → Prop) (Ok : σ → ε → Prop)
    (hstep : ∀ s e, Inv s → Ok s e → Inv (step s e)) (s : σ) (hs : Inv s) (es : List ε)
    (h : Throughout step Ok s es) : Inv (run step s es) := by
  induction es generalizing s with
  | nil => exact hs
  | cons e es ih =>
    obtain ⟨he,hes⟩ := (throughout_cons step Ok s e es).mp h
    exact ih (step s e) (hstep s e hs he) hes

/-- A property that one step keeps exactly when it is admissible holds in every
state of a run exactly when all its steps are. -/
theorem prefixes_iff_throughout (step : σ → ε → σ) (P : σ → Prop) (Ok : σ → ε → Prop)
    (hstep : ∀ s e, P s → (P (step s e) ↔ Ok s e)) (s : σ) (hs : P s) (es : List ε) :
    (∀ before, before <+: es → P (run step s before)) ↔ Throughout step Ok s es := by
  constructor
  · rintro h before e after rfl
    refine (hstep _ e (h before (List.prefix_append _ _))).mp ?_
    rw [← run_concat step s before e]
    exact h (before++[e]) ⟨after,by simp⟩
  · rintro h before ⟨after,rfl⟩
    exact run_invariant_of_throughout step P Ok (fun s e hp he => (hstep s e hp).mpr he) s hs before
      (throughout_of_append step Ok s before after h)

theorem run_provenance {ρ : Type*} (step : σ → ε → σ) (Has : σ → ρ → Prop) (Brings : ε → ρ → Prop)
    (hstep : ∀ s e r, Has (step s e) r → Has s r ∨ Brings e r) (s : σ) (es : List ε) (r : ρ)
    (h : Has (run step s es) r) : Has s r ∨ ∃ e ∈ es, Brings e r := by
  induction es generalizing s with
  | nil => exact Or.inl h
  | cons e es ih =>
    rcases ih (step s e) h with hhas|⟨e',he',hbrings⟩
    · exact (hstep s e r hhas).imp_right fun hbrings => ⟨e,by simp,hbrings⟩
    · exact Or.inr ⟨e',by simp [he'],hbrings⟩

theorem throughout_of_invariant (step : σ → ε → σ) (Inv : σ → Prop) (Ok P : σ → ε → Prop)
    (hstep : ∀ s e, Inv s → Ok s e → Inv (step s e)) (hP : ∀ s e, Inv s → Ok s e → P s e)
    (s : σ) (hs : Inv s) (es : List ε) (h : Throughout step Ok s es) :
    Throughout step P s es := by
  intro before e after hes
  have hbefore := throughout_of_append step Ok s before (e::after) (hes ▸ h)
  exact hP _ e (run_invariant_of_throughout step Inv Ok hstep s hs before hbefore)
    (h before e after hes)

theorem run_simulation {τ : Type*} (step : σ → ε → σ) (step' : τ → ε → τ) (R : σ → τ → Prop)
    (Ok : τ → ε → Prop)
    (hstep : ∀ s t e, R s t → Ok t e → R (step s e) (step' t e))
    (s : σ) (t : τ) (h : R s t) (es : List ε) (hes : Throughout step' Ok t es) :
    R (run step s es) (run step' t es) := by
  induction es using List.reverseRecOn with
  | nil => exact h
  | append_singleton es e ih =>
    obtain ⟨hpre,he⟩ := (throughout_concat step' Ok t es e).mp hes
    rw [run_concat, run_concat]
    exact hstep _ _ e (ih hpre) he

section Outputs
variable {ι ο β : Type*}

def outputs (step : σ → ι → σ × List ο) : σ → List ι → List ο
  | _, [] => []
  | s, i::is => (step s i).2 ++ outputs step (step s i).1 is

theorem outputs_of_mute (step : σ → ι → σ × List ο) (f : ο → Option β) (Mute : σ → Prop)
    (hmute : ∀ s i, Mute s → (step s i).2.filterMap f = [] ∧ Mute (step s i).1)
    (s : σ) (hs : Mute s) (is : List ι) : (outputs step s is).filterMap f = [] := by
  induction is generalizing s with
  | nil => rfl
  | cons i is ih =>
    rw [outputs, List.filterMap_append, (hmute s i hs).1, ih _ (hmute s i hs).2]
    rfl

/-- Inputs that change nothing, unless the observed outputs have ceased for
good, can be removed without a difference to the observer. -/
theorem outputs_purge (step : σ → ι → σ × List ο) (f : ο → Option β) (keep : ι → Bool)
    (Mute : σ → Prop)
    (hmute : ∀ s i, Mute s → (step s i).2.filterMap f = [] ∧ Mute (step s i).1)
    (hdrop : ∀ s i, keep i = false → Mute s ∨ ((step s i).1 = s ∧ (step s i).2.filterMap f = []))
    (s : σ) (is : List ι) :
    (outputs step s is).filterMap f = (outputs step s (is.filter keep)).filterMap f := by
  induction is generalizing s with
  | nil => rfl
  | cons i is ih =>
    cases hk : keep i with
    | true => simp only [List.filter_cons_of_pos hk, outputs, List.filterMap_append, ih]
    | false =>
      rw [List.filter_cons_of_neg (by simp [hk])]
      rcases hdrop s i hk with hm | ⟨hsame,hnone⟩
      · rw [outputs_of_mute step f Mute hmute s hm, outputs_of_mute step f Mute hmute s hm]
      · rw [outputs, List.filterMap_append, hnone, hsame, List.nil_append, ih]

theorem mem_outputs (step : σ → ι → σ × List ο) (s : σ) (is : List ι) (o : ο)
    (h : o ∈ outputs step s is) : ∃ s' i, o ∈ (step s' i).2 := by
  induction is generalizing s with
  | nil => cases h
  | cons i is ih =>
    rcases List.mem_append.mp h with h|h
    · exact ⟨s,i,h⟩
    · exact ih _ h

/-- Two machines whose related states give the same outputs and stay related.
The relation may hold for a bounded number of further inputs only. -/
theorem outputs_simulation {τ : Type*} (step : σ → ι → σ × List ο) (step' : τ → ι → τ × List ο)
    (R : ℕ → σ → τ → Prop)
    (hstep : ∀ n s t i, R (n+1) s t →
      (step s i).2 = (step' t i).2 ∧ R n (step s i).1 (step' t i).1)
    (s : σ) (t : τ) (is : List ι) (h : R is.length s t) :
    outputs step s is = outputs step' t is ∧
      R 0 (run (fun s i => (step s i).1) s is) (run (fun t i => (step' t i).1) t is) := by
  induction is generalizing s t with
  | nil => exact ⟨rfl,h⟩
  | cons i is ih =>
    obtain ⟨hout,hnext⟩ := hstep is.length s t i h
    obtain ⟨houts,hend⟩ := ih _ _ hnext
    exact ⟨by rw [outputs, outputs, hout, houts],hend⟩

end Outputs

section Scan
variable {ι ο : Type*}

def scan (step : σ → ι → σ × ο) : σ → List ι → List ο
  | _, [] => []
  | s, i::is => (step s i).2::scan step (step s i).1 is

def scanState (step : σ → ι → σ × ο) : σ → List ι → σ := run (fun s i => (step s i).1)

theorem scan_append (step : σ → ι → σ × ο) (s : σ) (is js : List ι) :
    scan step s (is++js) = scan step s is++scan step (scanState step s is) js := by
  induction is generalizing s with
  | nil => rfl
  | cons i is ih => exact congrArg (List.cons _) (ih (step s i).1)

theorem scan_eq_append_cons (step : σ → ι → σ × ο) (s : σ) (is : List ι) (os ps : List ο) (o : ο)
    (h : scan step s is = os++o::ps) :
    ∃ js i ks, is = js++i::ks ∧ o = (step (scanState step s js) i).2 ∧
      ps = scan step (step (scanState step s js) i).1 ks := by
  induction os generalizing s is with
  | nil =>
    rcases is with _|⟨i,is⟩
    · simp [scan] at h
    · obtain ⟨ho,hps⟩ := List.cons.inj h
      exact ⟨[],i,is,rfl,ho.symm,hps.symm⟩
  | cons o' os ih =>
    rcases is with _|⟨i,is⟩
    · simp [scan] at h
    · obtain ⟨js,k,ks,rfl,ho,hps⟩ := ih (step s i).1 is (List.cons.inj h).2
      exact ⟨i::js,k,ks,rfl,ho,hps⟩

end Scan

end ArchetypeProxy.Runs
