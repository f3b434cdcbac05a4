/-
  Overhauled.Wire.Words — a word taken apart and put together with masks and shifts, and a
  byte string as the words it is made of.

  A mask of one byte cuts that byte out (`and_mask`); shifted up or down it stays one byte
  of a word (`toNat_and_shiftLeft`, `toNat_and_shiftRight`); an `or` puts a byte below
  those already there (`shift_or_byte`). A loop that swaps the bytes of a word one mask at
  a time is computed with these.
-/

import Overhauled.Wire.Bytes

namespace Overhauled.Wire

/-- The `k`-th byte of a word, the least significant first. -/
def byteOf (n k : Nat) : Nat := n / 2 ^ (8 * k) % 256

theorem byteOf_lt (n k : Nat) : byteOf n k < 256 := Nat.mod_lt _ (by omega)

theorem testBit_byteOf (n k i : Nat) : (byteOf n k).testBit i = (decide (i < 8) && n.testBit (8 * k + i)) := by
  rw [byteOf, show 256 = 2 ^ 8 from rfl, Nat.testBit_mod_two_pow, Nat.testBit_div_two_pow, Nat.add_comm]

theorem and_mask (n k : Nat) : n &&& 255 <<< (8 * k) = byteOf n k <<< (8 * k) := by
  have hmask : ∀ i, Nat.testBit 255 i = decide (i < 8) := by
    intro i
    rw [show 255 = 2 ^ 8 - 1 from rfl, Nat.testBit_two_pow_sub_one]
  apply Nat.eq_of_testBit_eq
  intro i
  rw [Nat.testBit_and, Nat.testBit_shiftLeft, Nat.testBit_shiftLeft, testBit_byteOf, hmask]
  by_cases hi : 8 * k ≤ i
  · rw [Nat.add_sub_cancel' hi]
    cases n.testBit i <;> simp [hi]
  · simp [hi]

theorem shift_or_byte {a b j : Nat} (k : Nat) (hj : j = k + 8) (hb : b < 256) :
    a <<< j ||| b <<< k = (a * 256 + b) <<< k := by
  subst hj
  have hword : a * 256 ||| b = a * 256 + b := by
    have h := Nat.two_pow_add_eq_or_of_lt (i := 8) hb a
    rw [Nat.mul_comm] at h
    exact h.symm
  rw [← hword, Nat.shiftLeft_or_distrib, Nat.add_comm k 8, Nat.shiftLeft_add, Nat.shiftLeft_eq a 8]

theorem toNat_and_shiftLeft (n m s : UInt64) {k d : Nat} (hm : m.toNat = 255 <<< (8 * k)) (hs : s.toNat = d)
    (hfits : 8 * k + d + 8 ≤ 64) : ((n &&& m) <<< s).toNat = byteOf n.toNat k <<< (8 * k + d) := by
  have hlt : byteOf n.toNat k <<< (8 * k + d) < 2 ^ 64 := by
    rw [Nat.shiftLeft_eq]
    calc byteOf n.toNat k * 2 ^ (8 * k + d) < 2 ^ 8 * 2 ^ (8 * k + d) :=
          Nat.mul_lt_mul_of_pos_right (byteOf_lt _ _) (Nat.two_pow_pos _)
      _ = 2 ^ (8 + (8 * k + d)) := (Nat.pow_add ..).symm
      _ ≤ 2 ^ 64 := Nat.pow_le_pow_right (by omega) (by omega)
  rw [UInt64.toNat_shiftLeft, UInt64.toNat_and, hm, hs, and_mask, Nat.mod_eq_of_lt (show d < 64 by omega),
    ← Nat.shiftLeft_add, Nat.mod_eq_of_lt hlt]

theorem toNat_and_shiftRight (n m s : UInt64) {k d : Nat} (hm : m.toNat = 255 <<< (8 * k)) (hs : s.toNat = d)
    (hfits : d ≤ 8 * k) (hd : d < 64) : ((n &&& m) >>> s).toNat = byteOf n.toNat k <<< (8 * k - d) := by
  have hsplit : byteOf n.toNat k <<< (8 * k) = byteOf n.toNat k <<< (8 * k - d) <<< d := by
    rw [← Nat.shiftLeft_add, Nat.sub_add_cancel hfits]
  rw [UInt64.toNat_shiftRight, UInt64.toNat_and, hm, hs, and_mask, Nat.mod_eq_of_lt hd, hsplit,
    Nat.shiftLeft_shiftRight]

/-- The words of `n` bytes a byte string begins with, one after the other. -/
theorem flatMap_words (n k : Nat) (w : Bytes) :
    (List.range k).flatMap (fun i => (w.drop (n * i)).take n) = w.take (n * k) := by
  induction k with
  | zero => simp
  | succ k ih => rw [List.range_succ, List.flatMap_append, ih, List.flatMap_singleton, Nat.mul_succ, List.take_add]

/-- And back: the `i`-th of the words that were written one after the other. -/
theorem take_drop_flatMap {α : Type} {enc : α → Bytes} {n : Nat} (henc : ∀ a, (enc a).length = n) {as : List α} {i : Nat}
    {a : α} (h : as[i]? = some a) : ((as.flatMap enc).drop (n * i)).take n = enc a := by
  induction as generalizing i with
  | nil => cases h
  | cons b as ih =>
    rw [List.flatMap_cons]
    cases i with
    | zero =>
      cases h
      rw [Nat.mul_zero, List.drop_zero, List.take_left' (henc _)]
    | succ i =>
      rw [Nat.mul_succ, Nat.add_comm, ← List.drop_drop, List.drop_left' (henc b)]
      exact ih h

/-- A word of eight bytes read and written again. -/
theorem be_ofNat_ofBe {w : Bytes} (h : w.length = 8) : be 8 (UInt64.ofNat (ofBe w)).toNat = w := by
  have hlt := ofBe_lt w
  rw [h] at hlt
  have hword := be_ofBe w
  rw [h] at hword
  rw [UInt64.toNat_ofNat_of_lt' hlt, hword]

end Overhauled.Wire
