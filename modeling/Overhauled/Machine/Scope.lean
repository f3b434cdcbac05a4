/-
  Overhauled.Machine.Scope — computations over a state that answer or throw. What such a
  computation did to the state stays, whichever way it ends, so a destructor that runs at
  the end of a scope finds what was built until then.

  `Leaves m s Q E`: started in `s`, `m` answers with `Q` or throws with `E`, both said of
  the state it leaves as well. As for `Ends`, there is one rule for each way a computation
  is put together; `leaves_plain` takes over what `Ends` says of a computation that does
  not look at the state.

  `Follows m s x R`: from `s`, `m` ends as `x` does, a computation without a state, and an
  answer leaves the state in `R`. It is how a model with a state refines one without.
-/

import Overhauled.Machine.Ends

namespace Overhauled.Machine

variable {σ ε α β : Type} {s : σ} {m : ExceptT ε (StateM σ) α} {Q Q' : α → σ → Prop} {E E' : ε → σ → Prop}

/-- How `m` ends from `s`, and the state it leaves. -/
def leave (m : ExceptT ε (StateM σ) α) (s : σ) : Except ε α × σ := m.run.run s

def Leaves (m : ExceptT ε (StateM σ) α) (s : σ) (Q : α → σ → Prop) (E : ε → σ → Prop) : Prop :=
  Ends (leave m s).1 (fun a => Q a (leave m s).2) fun e => E e (leave m s).2

/-- A computation that does not look at the state. -/
def plain (x : Except ε α) : ExceptT ε (StateM σ) α := ExceptT.mk (pure x)

@[simp] theorem leave_pure (a : α) : leave (pure a : ExceptT ε (StateM σ) α) s = (.ok a, s) := rfl

@[simp] theorem leave_plain (x : Except ε α) : leave (plain x : ExceptT ε (StateM σ) α) s = (x, s) := rfl

theorem leave_bind (f : α → ExceptT ε (StateM σ) β) :
    leave (m >>= f) s = match leave m s with
      | (.ok a, s') => leave (f a) s'
      | (.error e, s') => (.error e, s') := by
  show leave (ExceptT.mk (ExceptT.bindCont f (leave m s).1)) (leave m s).2 = _
  cases leave m s with
  | mk x s' => cases x <;> rfl

theorem leaves_pure {a : α} (h : Q a s) : Leaves (pure a) s Q E := h

theorem leaves_bind {f : α → ExceptT ε (StateM σ) β} {R : β → σ → Prop} (hm : Leaves m s Q E)
    (hf : ∀ a s', Q a s' → Leaves (f a) s' R E) : Leaves (m >>= f) s R E := by
  unfold Leaves at hm ⊢
  rw [leave_bind]
  cases hl : leave m s with
  | mk x s' =>
    rw [hl] at hm
    cases x with
    | ok a => exact hf a s' hm
    | error e => exact hm

theorem leaves_plain {x : Except ε α} {P : α → Prop} {F : ε → Prop} (h : Ends x P F) :
    Leaves (plain x) s (fun a s' => P a ∧ s' = s) fun e s' => F e ∧ s' = s := by
  cases x with
  | ok a => exact ⟨h, rfl⟩
  | error e => exact ⟨h, rfl⟩

theorem Leaves.mono (h : Leaves m s Q E) (hQ : ∀ a s', Q a s' → Q' a s') (hE : ∀ e s', E e s' → E' e s') :
    Leaves m s Q' E' :=
  Ends.mono h (fun a => hQ a _) fun e => hE e _

/-! ## Refinement of a computation without a state -/

def Follows (m : ExceptT ε (StateM σ) α) (s : σ) (x : Except ε α) (R : α → σ → Prop) : Prop :=
  Leaves m s (fun a s' => x = .ok a ∧ R a s') fun e _ => x = .error e

variable {x : Except ε α} {R : α → σ → Prop}

theorem follows_pure {a : α} (h : R a s) : Follows (pure a) s (pure a : Except ε α) R := ⟨rfl, h⟩

theorem follows_plain (x : Except ε α) : Follows (plain x) s x fun _ s' => s' = s := by
  cases x with
  | ok a => exact ⟨rfl, rfl⟩
  | error e => exact rfl

theorem follows_bind {f : α → ExceptT ε (StateM σ) β} {y : α → Except ε β} {R' : β → σ → Prop}
    (hm : Follows m s x R) (hf : ∀ a s', R a s' → Follows (f a) s' (y a) R') : Follows (m >>= f) s (x >>= y) R' := by
  refine leaves_bind (Q := fun a s' => x = .ok a ∧ R a s') (hm.mono (fun _ _ h => h) ?_) ?_
  · intro e _ he
    rw [he]
    rfl
  · rintro a s' ⟨rfl, hr⟩
    exact hf a s' hr

/-- A step that only touches the state. -/
theorem follows_skip {f : α → ExceptT ε (StateM σ) β} {y : Except ε β} {R' : β → σ → Prop}
    (hm : Leaves m s R fun _ _ => False) (hf : ∀ a s', R a s' → Follows (f a) s' y R') : Follows (m >>= f) s y R' :=
  leaves_bind (hm.mono (fun _ _ h => h) fun _ _ => False.elim) hf

/-- The state an answer leaves is the one that was left. -/
theorem Follows.left (h : Follows m s x R) : Follows m s x fun a s' => s' = (leave m s).2 ∧ R a s' := by
  unfold Follows Leaves at h ⊢
  exact Ends.mono h (fun a ha => ⟨ha.1, rfl, ha.2⟩) fun _ he => he

theorem Follows.result (h : Follows m s x R) : (leave m s).1 = x := by
  unfold Follows Leaves at h
  cases hl : (leave m s).1 with
  | ok a =>
    rw [hl] at h
    exact h.1.symm
  | error e =>
    rw [hl] at h
    exact h.symm

end Overhauled.Machine
