/-
  Overhauled.Wire.Float64 — what a binary64 number stands for, and that `twice` doubles it.

  A finite number is a rational (`value64`), from its sign, exponent and fraction. `Doubled`
  says of two bit patterns what `y = x * 2.0` says of the numbers: exactly twice the value
  where that is below 2^1024, an infinity of the same sign where it is not, and infinities
  and NaNs stay what they are. No rounding takes place, so the rounding mode does not
  matter.
-/

import Mathlib
import Overhauled.Wire.Host

namespace Overhauled.Wire

def fraction64 (bits : UInt64) : Nat := bits.toNat % 2 ^ 52

def negative64 (bits : UInt64) : Bool := bits.toNat ≥ 2 ^ 63

/-- What a finite number is without its sign; the exponent 0 is that of the subnormals. -/
def magnitude64 (bits : UInt64) : ℚ :=
  if exponent bits = 0 then fraction64 bits * 2 ^ (-1074 : ℤ)
  else (2 ^ 52 + fraction64 bits) * 2 ^ ((exponent bits : ℤ) - 1075)

def value64 (bits : UInt64) : ℚ := if negative64 bits then -magnitude64 bits else magnitude64 bits

structure Doubled (x y : UInt64) : Prop where
  sign : negative64 y = negative64 x
  exact : isFinite x = true → 2 * magnitude64 x < 2 ^ (1024 : ℤ) → isFinite y = true ∧ value64 y = 2 * value64 x
  overflow : isFinite x = true → 2 ^ (1024 : ℤ) ≤ 2 * magnitude64 x → exponent y = 2047 ∧ fraction64 y = 0
  special : isFinite x = false → exponent y = 2047 ∧ (fraction64 y = 0 ↔ fraction64 x = 0)

/-! ## Fields -/

/-- A number from its fields. -/
def ofFields (s e f : Nat) : UInt64 := UInt64.ofNat (s * 2 ^ 63 + e * 2 ^ 52 + f)

def sign64 (bits : UInt64) : Nat := bits.toNat / 2 ^ 63

theorem exponent_lt (bits : UInt64) : exponent bits < 2048 := Nat.mod_lt _ (by decide)

theorem fraction64_lt (bits : UInt64) : fraction64 bits < 2 ^ 52 := Nat.mod_lt _ (by decide)

theorem sign64_lt (bits : UInt64) : sign64 bits < 2 := by
  have := bits.toNat_lt
  unfold sign64
  omega

theorem toNat_fields (bits : UInt64) : bits.toNat = sign64 bits * 2 ^ 63 + exponent bits * 2 ^ 52 + fraction64 bits := by
  unfold sign64 exponent fraction64
  omega

theorem negative64_eq (bits : UInt64) : negative64 bits = decide (sign64 bits = 1) := by
  have := bits.toNat_lt
  unfold negative64 sign64
  rw [decide_eq_decide]
  omega

section
variable {s e f : Nat}

theorem toNat_ofFields (hs : s < 2) (he : e < 2048) (hf : f < 2 ^ 52) :
    (ofFields s e f).toNat = s * 2 ^ 63 + e * 2 ^ 52 + f := by
  rw [ofFields, UInt64.toNat_ofNat_of_lt']
  show _ < 2 ^ 64
  omega

theorem sign64_ofFields (hs : s < 2) (he : e < 2048) (hf : f < 2 ^ 52) : sign64 (ofFields s e f) = s := by
  rw [sign64, toNat_ofFields hs he hf]
  omega

theorem exponent_ofFields (hs : s < 2) (he : e < 2048) (hf : f < 2 ^ 52) : exponent (ofFields s e f) = e := by
  rw [exponent, toNat_ofFields hs he hf]
  omega

theorem fraction64_ofFields (hs : s < 2) (he : e < 2048) (hf : f < 2 ^ 52) : fraction64 (ofFields s e f) = f := by
  rw [fraction64, toNat_ofFields hs he hf]
  omega

end

theorem negative64_of_sign {x y : UInt64} (h : sign64 y = sign64 x) : negative64 y = negative64 x := by
  rw [negative64_eq, negative64_eq, h]

/-- Twice the magnitude and the same sign is twice the value. -/
theorem value64_of_magnitude {x y : UInt64} (hs : sign64 y = sign64 x) (hm : magnitude64 y = 2 * magnitude64 x) :
    value64 y = 2 * value64 x := by
  unfold value64
  rw [negative64_of_sign hs, hm]
  split
  · ring
  · rfl

/-! ## Doubling -/

theorem isFinite_iff {bits : UInt64} : isFinite bits = true ↔ exponent bits ≠ 2047 := by
  rw [isFinite, decide_eq_true_iff]

theorem isFinite_eq_false_iff {bits : UInt64} : isFinite bits = false ↔ exponent bits = 2047 := by
  rw [isFinite, decide_eq_false_iff_not, not_not]

theorem two_zpow_mul (a b : ℤ) : (2 : ℚ) ^ a * 2 ^ b = 2 ^ (a + b) := (zpow_add₀ two_ne_zero a b).symm

theorem two_mul_zpow (a : ℤ) : 2 * (2 : ℚ) ^ a = 2 ^ (a + 1) := by
  rw [← two_zpow_mul, zpow_one, mul_comm]

/-- A number is below the next power of two after its exponent's. -/
theorem magnitude64_lt (bits : UInt64) : magnitude64 bits < 2 ^ ((exponent bits : ℤ) - 1022) := by
  have hf : (fraction64 bits : ℚ) < 2 ^ (52 : ℤ) := by exact_mod_cast fraction64_lt bits
  unfold magnitude64
  split
  · next hzero =>
    calc (fraction64 bits : ℚ) * 2 ^ (-1074 : ℤ) < 2 ^ (52 : ℤ) * 2 ^ (-1074 : ℤ) := by gcongr
      _ = 2 ^ ((exponent bits : ℤ) - 1022) := by rw [two_zpow_mul, hzero]; rfl
  · calc (2 ^ 52 + (fraction64 bits : ℚ)) * 2 ^ ((exponent bits : ℤ) - 1075)
        < (2 ^ 52 + 2 ^ (52 : ℤ)) * 2 ^ ((exponent bits : ℤ) - 1075) := by gcongr
      _ = 2 ^ (53 : ℤ) * 2 ^ ((exponent bits : ℤ) - 1075) := by norm_num
      _ = 2 ^ ((exponent bits : ℤ) - 1022) := by rw [two_zpow_mul]; ring_nf

theorem le_magnitude64 {bits : UInt64} (h : exponent bits ≠ 0) : 2 ^ ((exponent bits : ℤ) - 1023) ≤ magnitude64 bits := by
  have hf : (0 : ℚ) ≤ fraction64 bits := Nat.cast_nonneg _
  unfold magnitude64
  rw [if_neg h]
  calc (2 : ℚ) ^ ((exponent bits : ℤ) - 1023) = 2 ^ (52 : ℤ) * 2 ^ ((exponent bits : ℤ) - 1075) := by
        rw [two_zpow_mul]
        ring_nf
    _ ≤ (2 ^ (52 : ℤ) + (fraction64 bits : ℚ)) * 2 ^ ((exponent bits : ℤ) - 1075) := by
        gcongr
        linarith
    _ = (2 ^ 52 + (fraction64 bits : ℚ)) * 2 ^ ((exponent bits : ℤ) - 1075) := by norm_num

/-- The numbers whose double is still a number are those below the largest exponent. -/
theorem two_mul_magnitude64_lt_iff {bits : UInt64} (h : isFinite bits = true) :
    2 * magnitude64 bits < 2 ^ (1024 : ℤ) ↔ exponent bits ≠ 2046 := by
  have hlt := exponent_lt bits
  have hne := isFinite_iff.mp h
  constructor
  · intro hsmall htop
    have hnormal : exponent bits ≠ 0 := by omega
    have hle := le_magnitude64 hnormal
    rw [htop] at hle
    have hbig : (2 : ℚ) ^ (1024 : ℤ) ≤ 2 * magnitude64 bits := by
      calc (2 : ℚ) ^ (1024 : ℤ) = 2 * 2 ^ (((2046 : ℕ) : ℤ) - 1023) := by
            rw [two_mul_zpow]
            rfl
        _ ≤ 2 * magnitude64 bits := by gcongr
    exact absurd hsmall (not_lt.mpr hbig)
  · intro htop
    calc 2 * magnitude64 bits < 2 * 2 ^ ((exponent bits : ℤ) - 1022) := by
          have := magnitude64_lt bits
          gcongr
      _ = 2 ^ ((exponent bits : ℤ) - 1021) := by
          rw [two_mul_zpow]
          ring_nf
      _ ≤ 2 ^ (1024 : ℤ) := zpow_le_zpow_right₀ one_le_two (by omega)

/-- Where the exponent has room, it is raised. -/
theorem magnitude64_raised {s e f : Nat} (hs : s < 2) (he : e + 1 < 2048) (hpos : e ≠ 0) (hf : f < 2 ^ 52) :
    magnitude64 (ofFields s (e + 1) f) = 2 * magnitude64 (ofFields s e f) := by
  unfold magnitude64
  rw [exponent_ofFields hs he hf, fraction64_ofFields hs he hf, exponent_ofFields hs (by omega) hf,
    fraction64_ofFields hs (by omega) hf, if_neg (by omega), if_neg hpos]
  have hexp : (((e + 1 : ℕ) : ℤ) - 1075) = ((e : ℤ) - 1075) + 1 := by
    push_cast
    ring
  rw [hexp, ← two_mul_zpow]
  ring

/-- A subnormal's fraction is shifted, past the step to the smallest normal or not. -/
theorem magnitude64_shifted {s f : Nat} (hs : s < 2) (hf : f < 2 ^ 52) :
    magnitude64 (ofFields s (2 * f / 2 ^ 52) (2 * f % 2 ^ 52)) = 2 * magnitude64 (ofFields s 0 f) := by
  have hmod : 2 * f % 2 ^ 52 < 2 ^ 52 := Nat.mod_lt _ (by decide)
  unfold magnitude64
  rw [exponent_ofFields hs (by omega) hmod, fraction64_ofFields hs (by omega) hmod, exponent_ofFields hs (by omega) hf,
    fraction64_ofFields hs (by omega) hf, if_pos rfl]
  by_cases hsmall : 2 * f < 2 ^ 52
  · rw [Nat.div_eq_of_lt hsmall, Nat.mod_eq_of_lt hsmall, if_pos rfl, Nat.cast_mul, Nat.cast_ofNat, mul_assoc]
  · have hone : 2 * f / 2 ^ 52 = 1 := by omega
    have hrest : 2 * f = 2 ^ 52 + 2 * f % 2 ^ 52 := by omega
    have hcast : (2 : ℚ) * f = 2 ^ 52 + ((2 * f % 2 ^ 52 : ℕ) : ℚ) := by exact_mod_cast hrest
    have hexp : ((1 : ℕ) : ℤ) - 1075 = -1074 := rfl
    rw [hone, if_neg one_ne_zero, ← hcast, hexp, mul_assoc]

/-- What `twice` gives, by the exponent. -/
theorem twice_fields (bits : UInt64) (h : isFinite bits = true) :
    twice bits =
      if exponent bits = 0 then ofFields (sign64 bits) (2 * fraction64 bits / 2 ^ 52) (2 * fraction64 bits % 2 ^ 52)
      else if exponent bits = 2046 then ofFields (sign64 bits) 2047 0
      else ofFields (sign64 bits) (exponent bits + 1) (fraction64 bits) := by
  have hfields := toNat_fields bits
  unfold twice
  rw [if_neg (isFinite_iff.mp h)]
  split
  · refine congrArg UInt64.ofNat ?_
    show sign64 bits * 2 ^ 63 + fraction64 bits * 2 = _
    omega
  split
  · exact congrArg UInt64.ofNat (Nat.add_zero _).symm
  · refine congrArg UInt64.ofNat ?_
    omega

/-- A NaN is made quiet, which keeps its exponent and leaves it a NaN. -/
theorem quiet_fields (bits : UInt64) :
    sign64 (bits ||| 0x0008000000000000) = sign64 bits ∧ exponent (bits ||| 0x0008000000000000) = exponent bits ∧
      fraction64 (bits ||| 0x0008000000000000) ≠ 0 := by
  have hor : (bits ||| 0x0008000000000000).toNat = bits.toNat ||| 2 ^ 51 := UInt64.toNat_or _ _
  have hdiv : ∀ k, 52 ≤ k → (bits.toNat ||| 2 ^ 51) / 2 ^ k = bits.toNat / 2 ^ k := by
    intro k hk
    rw [Nat.or_div_two_pow, Nat.div_eq_of_lt (Nat.pow_lt_pow_right (by decide) (by omega)), Nat.or_zero]
  refine ⟨?_, ?_, ?_⟩
  · rw [sign64, hor, hdiv 63 (by decide), sign64]
  · rw [exponent, hor, hdiv 52 (by decide), exponent]
  · rw [fraction64, hor, Nat.or_mod_two_pow]
    intro hzero
    have := (Nat.or_eq_zero_iff.mp hzero).2
    exact absurd this (by decide)

theorem twice_special {bits : UInt64} (h : isFinite bits = false) :
    twice bits = if fraction64 bits = 0 then bits else bits ||| 0x0008000000000000 := by
  unfold twice
  rw [if_pos (isFinite_eq_false_iff.mp h)]
  rfl

/-- Below the largest exponent of the numbers: the same sign, a number, and twice as much. -/
theorem twice_exact {bits : UInt64} (h : isFinite bits = true) (htop : exponent bits ≠ 2046) :
    sign64 (twice bits) = sign64 bits ∧ exponent (twice bits) ≠ 2047 ∧
      magnitude64 (twice bits) = 2 * magnitude64 bits := by
  have hs := sign64_lt bits
  have he := exponent_lt bits
  have hf := fraction64_lt bits
  have hfinite := isFinite_iff.mp h
  have hself : ofFields (sign64 bits) (exponent bits) (fraction64 bits) = bits := by
    rw [ofFields, ← toNat_fields, UInt64.ofNat_toNat]
  rw [twice_fields bits h]
  split
  · next hzero =>
    have hmod : 2 * fraction64 bits % 2 ^ 52 < 2 ^ 52 := Nat.mod_lt _ (by decide)
    have hcarry : 2 * fraction64 bits / 2 ^ 52 < 2 := by omega
    rw [hzero] at hself
    refine ⟨sign64_ofFields hs (by omega) hmod, ?_, ?_⟩
    · rw [exponent_ofFields hs (by omega) hmod]
      omega
    · rw [magnitude64_shifted hs hf, hself]
  · next hpos =>
    refine ⟨sign64_ofFields hs (by omega) hf, ?_, ?_⟩
    · rw [exponent_ofFields hs (by omega) hf]
      omega
    · rw [magnitude64_raised hs (by omega) hpos hf, hself]

theorem doubled_twice (bits : UInt64) : Doubled bits (twice bits) := by
  have hs := sign64_lt bits
  cases hfin : isFinite bits with
  | false =>
    have htop := isFinite_eq_false_iff.mp hfin
    have hnot : ∀ {P : Prop}, isFinite bits = true → P := by
      intro P h
      rw [hfin] at h
      cases h
    obtain ⟨hqs, hqe, hqf⟩ := quiet_fields bits
    rw [twice_special hfin]
    split
    · exact ⟨rfl, hnot, hnot, fun _ => ⟨htop, Iff.rfl⟩⟩
    · next hnan =>
      exact ⟨negative64_of_sign hqs, hnot, hnot, fun _ => ⟨hqe.trans htop, iff_of_false hqf hnan⟩⟩
  | true =>
    have hiff := two_mul_magnitude64_lt_iff hfin
    have hnot : ∀ {P : Prop}, isFinite bits = false → P := by
      intro P h
      rw [hfin] at h
      cases h
    by_cases htop : exponent bits = 2046
    · have htwice : twice bits = ofFields (sign64 bits) 2047 0 := by
        rw [twice_fields bits hfin, if_neg (by omega), if_pos htop]
      rw [htwice]
      refine ⟨?_, fun _ hsmall => absurd htop (hiff.mp hsmall), fun _ _ => ⟨?_, ?_⟩, hnot⟩
      · exact negative64_of_sign (sign64_ofFields hs (by decide) (by decide))
      · exact exponent_ofFields hs (by decide) (by decide)
      · exact fraction64_ofFields hs (by decide) (by decide)
    · obtain ⟨hsign, hexp, hmag⟩ := twice_exact hfin htop
      refine ⟨negative64_of_sign hsign, fun _ _ => ⟨isFinite_iff.mpr hexp, value64_of_magnitude hsign hmag⟩, ?_, hnot⟩
      intro _ hbig
      exact absurd (hiff.mpr htop) (not_lt.mpr hbig)

end Overhauled.Wire
