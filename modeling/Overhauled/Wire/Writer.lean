/-
  Overhauled.Wire.Writer — encoders that append to a frame and may fail with a text
  (a thrown `std::runtime_error`, or false with `*error` set). As for the readers, one
  equivalence per step says when it succeeds and what it then appended.
-/

import Overhauled.Wire.Bytes

namespace Overhauled.Wire

theorem except_bind_ok {ε α β : Type} {x : Except ε α} {f : α → Except ε β} {b : β} :
    (x >>= f) = .ok b ↔ ∃ a, x = .ok a ∧ f a = .ok b := by
  cases x with
  | error e =>
    refine ⟨?_, ?_⟩
    · intro h; cases h
    · intro h
      obtain ⟨a, h, _⟩ := h
      cases h
  | ok a =>
    refine ⟨?_, ?_⟩
    · intro h; exact ⟨a, rfl, h⟩
    · intro h
      obtain ⟨a', h, h'⟩ := h
      cases h
      exact h'

theorem except_pure_ok {ε α : Type} {a b : α} : (pure a : Except ε α) = .ok b ↔ b = a := by
  show Except.ok a = Except.ok b ↔ _
  rw [Except.ok.injEq, eq_comm]

def failIf (c : Prop) [Decidable c] (msg : Bytes) : Except Bytes Unit := if c then .error msg else .ok ()

theorem failIf_ok {c : Prop} [Decidable c] {msg : Bytes} {u : Unit} : failIf c msg = .ok u ↔ ¬ c := by
  unfold failIf
  split <;> simp [*]

/-- Append `value` behind its length in `k` bytes, unless it is longer than `max` or than
    `k` bytes can say. -/
def appendPre (k max : Nat) (exceeds out value : Bytes) : Except Bytes Bytes :=
  if value.length > max ∨ value.length > 256 ^ k - 1 then .error exceeds else .ok (out ++ pre k value)

theorem appendPre_ok {k max : Nat} {exceeds out value o : Bytes} :
    appendPre k max exceeds out value = .ok o ↔
      (value.length ≤ max ∧ value.length < 256 ^ k) ∧ o = out ++ pre k value := by
  have hpos : 0 < 256 ^ k := Nat.pow_pos (by omega)
  unfold appendPre
  split
  · rename_i h
    simp only [reduceCtorEq, false_iff, not_and]
    intro h' _
    omega
  · rename_i h
    rw [Except.ok.injEq, eq_comm]
    exact ⟨fun h' => ⟨by omega, h'⟩, fun h' => h'.2⟩

/-- A loop of appends succeeds exactly when each of them does, and appends their bytes in order. -/
theorem foldlM_append_ok {α : Type} {f : Bytes → α → Except Bytes Bytes} {P : α → Prop} {enc : α → Bytes}
    (hf : ∀ {out a o}, f out a = .ok o ↔ P a ∧ o = out ++ enc a) {xs : List α} {out o : Bytes} :
    xs.foldlM f out = .ok o ↔ (∀ x ∈ xs, P x) ∧ o = out ++ xs.flatMap enc := by
  induction xs generalizing out with
  | nil =>
    show (pure out : Except Bytes Bytes) = .ok o ↔ _
    simp [except_pure_ok]
  | cons a xs ih =>
    rw [List.foldlM_cons, except_bind_ok]
    simp only [hf, ih, List.forall_mem_cons, List.flatMap_cons]
    refine ⟨?_, ?_⟩
    · intro h
      obtain ⟨_, ⟨hp, rfl⟩, hps, rfl⟩ := h
      exact ⟨⟨hp, hps⟩, by rw [List.append_assoc]⟩
    · intro h
      obtain ⟨⟨hp, hps⟩, rfl⟩ := h
      exact ⟨_, ⟨hp, rfl⟩, hps, by rw [List.append_assoc]⟩

/-! ## The texts an encoder fails with -/

/-- Every text `x` may fail with satisfies `P`. -/
def Fails {α : Type} (P : Bytes → Prop) (x : Except Bytes α) : Prop := ∀ e, x = .error e → P e

section
variable {α β : Type} {P : Bytes → Prop}

theorem fails_bind {x : Except Bytes α} {f : α → Except Bytes β} (hx : Fails P x) (hf : ∀ a, Fails P (f a)) :
    Fails P (x >>= f) := by
  intro e h
  cases x with
  | error e' =>
    cases h
    exact hx _ rfl
  | ok a => exact hf a e h

theorem fails_pure (a : α) : Fails P (pure a) := by
  intro e h
  cases h

theorem fails_failIf {c : Prop} [Decidable c] {msg : Bytes} (h : P msg) : Fails P (failIf c msg) := by
  intro e he
  unfold failIf at he
  split at he <;> cases he
  exact h

theorem fails_appendPre {k max : Nat} {exceeds out value : Bytes} (h : P exceeds) :
    Fails P (appendPre k max exceeds out value) := by
  intro e he
  unfold appendPre at he
  split at he <;> cases he
  exact h

theorem fails_foldlM {f : β → α → Except Bytes β} (hf : ∀ b a, Fails P (f b a)) (xs : List α) (b : β) :
    Fails P (xs.foldlM f b) := by
  induction xs generalizing b with
  | nil => exact fails_pure b
  | cons a xs ih =>
    rw [List.foldlM_cons]
    exact fails_bind (hf b a) fun b' => ih b'

end

end Overhauled.Wire
