/-
  Overhauled.Machine.Ends — computations that answer or stop, and what holds at their end.

  `Ends m Q E`: `m` answers something that satisfies `Q`, or stops in a way that satisfies
  `E`. There is one rule for each way a computation is put together, so that what holds of
  a loop is an induction over it with `ends_bind` at each turn. A computation that cannot
  stop answers (`Ends.answers`).
-/

import Mathlib

namespace Overhauled.Machine

variable {ε α β : Type} {m : Except ε α} {Q Q' : α → Prop} {E E' : ε → Prop}

def Ends (m : Except ε α) (Q : α → Prop) (E : ε → Prop) : Prop :=
  match m with
  | .ok a => Q a
  | .error e => E e

/-- `if (c) stop;` -/
def stopIf (c : Prop) [Decidable c] (e : ε) : Except ε Unit := if c then .error e else .ok ()

theorem ends_pure {a : α} (h : Q a) : Ends (pure a : Except ε α) Q E := h

theorem ends_bind {f : α → Except ε β} {R : β → Prop} (hm : Ends m Q E) (hf : ∀ a, Q a → Ends (f a) R E) :
    Ends (m >>= f) R E := by
  cases m with
  | ok a => exact hf a hm
  | error e => exact hm

theorem ends_stopIf {c : Prop} [Decidable c] {e : ε} (h : c → E e) : Ends (stopIf c e) (fun _ => ¬ c) E := by
  unfold stopIf
  split
  · exact h ‹c›
  · exact ‹¬ c›

theorem Ends.mono (h : Ends m Q E) (hQ : ∀ a, Q a → Q' a) (hE : ∀ e, E e → E' e) : Ends m Q' E' := by
  cases m with
  | ok a => exact hQ a h
  | error e => exact hE e h

theorem Ends.answers (h : Ends m Q fun _ => False) : ∃ a, m = .ok a ∧ Q a := by
  cases m with
  | ok a => exact ⟨a, rfl, h⟩
  | error e => exact h.elim

theorem Ends.of_error {e : ε} (h : Ends m Q E) (he : m = .error e) : E e := by
  subst he
  exact h

end Overhauled.Machine
