import Mathlib.Data.List.Forall2
import Mathlib.Order.Basic

/-!
# Computations that fail and keep their effects

A computation reads and writes a state and may stop with an error. What it
did before the error stays done, so a statement about the state after a
computation covers every way it ends.
-/

set_option autoImplicit false

namespace ArchetypeProxy.Fallible

def Comp (σ ε α : Type) : Type := σ → Except ε α × σ

variable {σ ε α β : Type}

instance : Monad (Comp σ ε) where
  pure a := fun s => (.ok a,s)
  bind c f := fun s => match c s with
    | (.ok a,s') => f a s'
    | (.error e,s') => (.error e,s')

def ask (reply : Except ε α) : Comp σ ε α := fun s => (reply,s)

def look (f : σ → α) : Comp σ ε α := fun s => (.ok (f s),s)

def update (f : σ → σ) : Comp σ ε Unit := fun s => (.ok (),f s)

def caught (c : Comp σ ε α) : Comp σ ε (Except ε α) := fun s => (.ok (c s).1,(c s).2)

@[simp] theorem pure_apply (a : α) (s : σ) : (pure a : Comp σ ε α) s = (.ok a,s) := rfl
@[simp] theorem ask_apply (reply : Except ε α) (s : σ) : ask reply s = (reply,s) := rfl
@[simp] theorem update_apply (f : σ → σ) (s : σ) :
    (update f : Comp σ ε Unit) s = (.ok (),f s) := rfl

section Sequences
variable (f : α → Comp σ ε β) (s : σ)

@[simp] theorem ask_ok_bind (a : α) : (ask (.ok a) >>= f) s = f a s := rfl
@[simp] theorem ask_error_bind (e : ε) : (ask (.error e) >>= f) s = (.error e,s) := rfl
@[simp] theorem look_bind (g : σ → α) : (look g >>= f) s = f (g s) s := rfl
@[simp] theorem update_bind (g : σ → σ) (f : Unit → Comp σ ε β) :
    (update g >>= f) s = f () (g s) := rfl
@[simp] theorem caught_bind (c : Comp σ ε α) (f : Except ε α → Comp σ ε β) :
    (caught c >>= f) s = f (c s).1 (c s).2 := rfl

end Sequences

theorem bind_of_ok (c : Comp σ ε α) (f : α → Comp σ ε β) (s s' : σ) (a : α)
    (h : c s = (.ok a,s')) : (c >>= f) s = f a s' := by
  simp only [bind, h]

theorem bind_of_error (c : Comp σ ε α) (f : α → Comp σ ε β) (s s' : σ) (e : ε)
    (h : c s = (.error e,s')) : (c >>= f) s = (.error e,s') := by
  simp only [bind, h]

theorem bind_pure_apply (c : Comp σ ε α) (f : α → β) (s : σ) :
    (c >>= fun a => pure (f a)) s = ((c s).1.map f,(c s).2) := by
  rcases h : c s with ⟨e|a,s'⟩
  · exact bind_of_error c _ s s' e h
  · exact bind_of_ok c _ s s' a h

/-- Where a sequence ends: in its first part with an error, or in the rest. -/
theorem bind_cases (c : Comp σ ε α) (f : α → Comp σ ε β) (s : σ) :
    (∃ e s', c s = (.error e,s') ∧ (c >>= f) s = (.error e,s')) ∨
      ∃ a s', c s = (.ok a,s') ∧ (c >>= f) s = f a s' := by
  rcases h : c s with ⟨_|a,s'⟩
  · exact Or.inl ⟨_,_,rfl,bind_of_error c f s s' _ h⟩
  · exact Or.inr ⟨_,_,rfl,bind_of_ok c f s s' _ h⟩

theorem bind_eq_ok_iff (c : Comp σ ε α) (f : α → Comp σ ε β) (s s'' : σ) (b : β) :
    (c >>= f) s = (.ok b,s'') ↔ ∃ a s', c s = (.ok a,s') ∧ f a s' = (.ok b,s'') := by
  rcases bind_cases c f s with ⟨e,s',h,hseq⟩|⟨a,s',h,hseq⟩
  · simp [hseq, h]
  · rw [hseq]
    constructor
    · intro hf
      exact ⟨a,s',h,hf⟩
    · rintro ⟨a',s₁,h',hf⟩
      cases h.symm.trans h'
      exact hf

theorem ask_bind_eq_ok_iff (reply : Except ε α) (f : α → Comp σ ε β) (s s'' : σ) (b : β) :
    (ask reply >>= f) s = (.ok b,s'') ↔ ∃ a, reply = .ok a ∧ f a s = (.ok b,s'') := by
  cases reply with
  | error e => simp
  | ok a => simp

def Succeeds (c : Comp σ ε α) (s : σ) : Prop := ∃ a s', c s = (.ok a,s')

theorem succeeds_bind_iff (c : Comp σ ε α) (f : α → Comp σ ε β) (s : σ) :
    Succeeds (c >>= f) s ↔ ∃ a s', c s = (.ok a,s') ∧ Succeeds (f a) s' := by
  simp only [Succeeds, bind_eq_ok_iff]
  constructor
  · rintro ⟨b,s'',a,s',hc,hf⟩
    exact ⟨a,s',hc,b,s'',hf⟩
  · rintro ⟨a,s',hc,b,s'',hf⟩
    exact ⟨b,s'',a,s',hc,hf⟩

@[simp] theorem succeeds_pure (a : α) (s : σ) : Succeeds (pure a : Comp σ ε α) s := ⟨a,s,rfl⟩

@[simp] theorem succeeds_ask_iff (reply : Except ε α) (s : σ) :
    Succeeds (ask reply : Comp σ ε α) s ↔ ∃ a, reply = .ok a := by
  simp [Succeeds]

@[simp] theorem succeeds_ask_bind_iff (reply : Except ε α) (f : α → Comp σ ε β) (s : σ) :
    Succeeds (ask reply >>= f) s ↔ ∃ a, reply = .ok a ∧ Succeeds (f a) s := by
  rw [succeeds_bind_iff]
  cases reply with
  | error e => simp
  | ok a =>
    constructor
    · rintro ⟨_,_,h,hf⟩
      cases h
      exact ⟨a,rfl,hf⟩
    · rintro ⟨_,h,hf⟩
      cases h
      exact ⟨a,s,rfl,hf⟩

@[simp] theorem succeeds_look_bind_iff (g : σ → α) (f : α → Comp σ ε β) (s : σ) :
    Succeeds (look g >>= f) s ↔ Succeeds (f (g s)) s := Iff.rfl

@[simp] theorem succeeds_update_bind_iff (g : σ → σ) (f : Unit → Comp σ ε β) (s : σ) :
    Succeeds (update g >>= f) s ↔ Succeeds (f ()) (g s) := Iff.rfl

theorem succeeds_bind_pure_iff (c : Comp σ ε α) (f : α → β) (s : σ) :
    Succeeds (c >>= fun a => pure (f a)) s ↔ Succeeds c s := by
  rw [succeeds_bind_iff]
  constructor
  · rintro ⟨a,s',h,-⟩
    exact ⟨a,s',h⟩
  · rintro ⟨a,s',h⟩
    exact ⟨a,s',h,succeeds_pure _ _⟩

theorem except_bind_eq_ok_iff (x : Except ε α) (f : α → Except ε β) (b : β) :
    (x >>= f) = .ok b ↔ ∃ a, x = .ok a ∧ f a = .ok b := by
  cases x with
  | error e => simp [bind, Except.bind]
  | ok a => simp [bind, Except.bind]

theorem except_bind_eq_ok (x : Except ε α) (f : α → Except ε β) (b : β)
    (h : (x >>= f) = .ok b) : ∃ a, x = .ok a ∧ f a = .ok b :=
  (except_bind_eq_ok_iff x f b).mp h

theorem except_bind_eq_error_iff (x : Except ε α) (f : α → Except ε β) (e : ε) :
    (x >>= f) = .error e ↔ x = .error e ∨ ∃ a, x = .ok a ∧ f a = .error e := by
  cases x with
  | error e => simp [bind, Except.bind]
  | ok a => simp [bind, Except.bind]

theorem mapM_eq_ok_iff (f : α → Except ε β) (xs : List α) (ys : List β) :
    xs.mapM f = .ok ys ↔ List.Forall₂ (fun x y => f x = .ok y) xs ys := by
  induction xs generalizing ys with
  | nil => simp [pure, Except.pure, eq_comm]
  | cons x xs ih =>
    rw [List.mapM_cons, except_bind_eq_ok_iff, List.forall₂_cons_left_iff]
    simp only [except_bind_eq_ok_iff, ih, pure, Except.pure, Except.ok.injEq]
    constructor
    · rintro ⟨y,hy,ys,hys,rfl⟩
      exact ⟨y,ys,hy,hys,rfl⟩
    · rintro ⟨y,ys,hy,hys,rfl⟩
      exact ⟨y,hy,ys,hys,rfl⟩

theorem mapM_eq_error (f : α → Except ε β) (xs : List α) (e : ε) (h : xs.mapM f = .error e) :
    ∃ x ∈ xs, f x = .error e := by
  induction xs with
  | nil => cases h
  | cons x xs ih =>
    rw [List.mapM_cons, except_bind_eq_error_iff] at h
    rcases h with hx|⟨y,-,h⟩
    · exact ⟨x,by simp,hx⟩
    · rcases (except_bind_eq_error_iff _ _ _).mp h with hxs|⟨ys,-,h⟩
      · obtain ⟨x',hx',he⟩ := ih hxs
        exact ⟨x',by simp [hx'],he⟩
      · cases h

theorem mapError_eq_ok_iff {ε' : Type} (x : Except ε α) (f : ε → ε') (a : α) :
    x.mapError f = .ok a ↔ x = .ok a := by
  cases x <;> simp [Except.mapError]

theorem mapError_eq_error_iff {ε' : Type} (x : Except ε α) (f : ε → ε') (e' : ε') :
    x.mapError f = .error e' ↔ ∃ e, x = .error e ∧ f e = e' := by
  cases x <;> simp [Except.mapError]

theorem except_map_eq_error_iff (x : Except ε α) (f : α → β) (e : ε) :
    x.map f = .error e ↔ x = .error e := by
  cases x <;> simp [Except.map]

theorem except_map_bind {γ : Type} (x : Except ε α) (f : α → Except ε β) (g : β → γ) :
    (x >>= f).map g = x >>= fun a => (f a).map g := by
  cases x <;> rfl

theorem except_bind_map {γ : Type} (x : Except ε α) (g : α → β) (f : β → Except ε γ) :
    x.map g >>= f = x >>= fun a => f (g a) := by
  cases x <;> rfl

def okOr (o : Option α) (e : ε) : Except ε α :=
  match o with
  | some a => .ok a
  | none => .error e

theorem okOr_eq_ok_iff (o : Option α) (e : ε) (a : α) : okOr o e = .ok a ↔ o = some a := by
  cases o <;> simp [okOr]

section Checks
variable (check : α → Except ε Unit)

def checkAll : List α → Except ε Unit
  | [] => .ok ()
  | x::xs => do
    check x
    checkAll xs

theorem checkAll_eq_ok_iff (xs : List α) :
    checkAll check xs = .ok () ↔ ∀ x ∈ xs, check x = .ok () := by
  induction xs with
  | nil => simp [checkAll]
  | cons x xs ih =>
    rw [checkAll, except_bind_eq_ok_iff, List.forall_mem_cons, ih]
    exact ⟨fun ⟨_,hx,hxs⟩ => ⟨hx,hxs⟩,fun ⟨hx,hxs⟩ => ⟨(),hx,hxs⟩⟩

theorem checkAll_eq_error_iff (xs : List α) (e : ε) :
    checkAll check xs = .error e ↔
      ∃ before x after, xs = before++x::after ∧ (∀ y ∈ before, check y = .ok ()) ∧
        check x = .error e := by
  induction xs with
  | nil => simp [checkAll]
  | cons x xs ih =>
    rw [checkAll]
    constructor
    · intro h
      cases hx : check x with
      | error e' =>
        rw [hx] at h
        cases h
        exact ⟨[],x,xs,rfl,by simp,hx⟩
      | ok u =>
        rw [hx] at h
        obtain ⟨before,y,after,rfl,hok,hy⟩ := ih.mp h
        exact ⟨x::before,y,after,rfl,List.forall_mem_cons.mpr ⟨hx,hok⟩,hy⟩
    · rintro ⟨before,y,after,hxs,hok,hy⟩
      cases before with
      | nil =>
        cases hxs
        rw [hy]
        rfl
      | cons z before =>
        cases hxs
        rw [hok x (by simp)]
        exact ih.mpr ⟨before,y,after,rfl,fun w hw => hok w (by simp [hw]),hy⟩

end Checks

/-- The states before and after a computation are related, however it ends. -/
def Moves (R : σ → σ → Prop) (c : Comp σ ε α) : Prop := ∀ s, R s (c s).2

section Moves
variable (R : σ → σ → Prop)

theorem moves_pure [Std.Refl R] (a : α) : Moves R (pure a : Comp σ ε α) := fun s => refl s

theorem moves_ask [Std.Refl R] (reply : Except ε α) : Moves R (ask reply : Comp σ ε α) :=
  fun s => refl s

theorem moves_update (f : σ → σ) (h : ∀ s, R s (f s)) : Moves R (update f : Comp σ ε Unit) := h

theorem moves_bind [IsTrans σ R] (c : Comp σ ε α) (f : α → Comp σ ε β) (hc : Moves R c)
    (hf : ∀ a, Moves R (f a)) : Moves R (c >>= f) := by
  intro s
  have hfirst := hc s
  rcases bind_cases c f s with ⟨e,s',h,hseq⟩|⟨a,s',h,hseq⟩
  · rw [hseq]
    rwa [h] at hfirst
  · rw [hseq]
    rw [h] at hfirst
    exact IsTrans.trans _ _ _ hfirst (hf a s')

end Moves

end ArchetypeProxy.Fallible
