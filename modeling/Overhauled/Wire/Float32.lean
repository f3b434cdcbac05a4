/-
  Overhauled.Wire.Float32 — binary32 numbers as their bit patterns: whether one is finite,
  the comparison `x <= 0`, and the rational number a finite one stands for. For a finite
  number the comparison is that of the numbers (`leZero32_eq_false_iff`).
-/

import Mathlib

namespace Overhauled.Wire

def exponent32 (bits : UInt32) : Nat := bits.toNat / 2 ^ 23 % 256

def fraction32 (bits : UInt32) : Nat := bits.toNat % 2 ^ 23

/-- `std::isfinite` -/
def isFinite32 (bits : UInt32) : Bool := exponent32 bits ≠ 255

/-- `x <= 0`, which is false for a NaN. -/
def leZero32 (bits : UInt32) : Bool :=
  if exponent32 bits = 255 ∧ fraction32 bits ≠ 0 then false else bits.toNat ≥ 2 ^ 31 ∨ bits.toNat = 0

/-- What a finite number is without its sign; the exponent 0 is that of the subnormals. -/
def magnitude32 (bits : UInt32) : ℚ :=
  if exponent32 bits = 0 then fraction32 bits * 2 ^ (-149 : ℤ)
  else (2 ^ 23 + fraction32 bits) * 2 ^ ((exponent32 bits : ℤ) - 150)

def value32 (bits : UInt32) : ℚ := if bits.toNat ≥ 2 ^ 31 then -magnitude32 bits else magnitude32 bits

theorem magnitude32_nonneg (bits : UInt32) : 0 ≤ magnitude32 bits := by
  unfold magnitude32
  split <;> positivity

theorem magnitude32_pos (bits : UInt32) (h : bits.toNat % 2 ^ 31 ≠ 0) : 0 < magnitude32 bits := by
  unfold magnitude32
  split
  · rename_i hexp
    -- without exponent and sign, what is left is the fraction
    have hfraction : 0 < fraction32 bits := by
      unfold exponent32 at hexp
      unfold fraction32
      omega
    positivity
  · positivity

theorem leZero32_eq_false_iff {bits : UInt32} (h : isFinite32 bits = true) : leZero32 bits = false ↔ 0 < value32 bits := by
  have hexp : exponent32 bits ≠ 255 := by simpa [isFinite32] using h
  have hzero : bits.toNat = 0 → magnitude32 bits = 0 := by
    intro hbits
    simp [magnitude32, exponent32, fraction32, hbits]
  unfold leZero32 value32
  rw [if_neg fun h' => hexp h'.1]
  split
  · rename_i hsign
    have hnonneg := magnitude32_nonneg bits
    simp only [ge_iff_le, hsign, true_or, decide_true, Bool.true_eq_false, false_iff, not_lt]
    linarith
  · rename_i hsign
    simp only [hsign, false_or, decide_eq_false_iff_not]
    constructor
    · exact fun hbits => magnitude32_pos bits (by omega)
    · intro hpos hbits
      rw [hzero hbits] at hpos
      exact lt_irrefl 0 hpos

-- one, the smallest subnormal and minus one
example : value32 0x3f800000 = 1 ∧ value32 1 = 2 ^ (-149 : ℤ) ∧ value32 0xbf800000 = -1 := by decide +kernel

end Overhauled.Wire
