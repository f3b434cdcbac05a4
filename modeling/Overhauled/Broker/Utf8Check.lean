/-
  Overhauled.Broker.Utf8Check — `valid_utf8` (`src/brk2_protocol.cpp`), the check BRK2
  applies to the strings a peer sends. `nextScalar` is the body of its loop: one lead
  byte, the continuation bytes it announces, and the tests on the code point. The
  validator accepts exactly the well-formed strings (`validUtf8_iff`), that is the
  concatenations of shortest forms (`validUtf8_shortest_forms`).
-/

import Overhauled.Wire.Utf8

namespace Overhauled.Broker

open Wire

/-- The bits of the code point in a lead byte above 0x7f, and how many bytes follow it. -/
def leadByte (c : Nat) : Option (Nat × Nat) :=
  if 0xc2 ≤ c ∧ c ≤ 0xdf then some (c &&& 0x1f, 1)
  else if 0xe0 ≤ c ∧ c ≤ 0xef then some (c &&& 0x0f, 2)
  else if 0xf0 ≤ c ∧ c ≤ 0xf4 then some (c &&& 0x07, 3)
  else none

/-- The inner loop: `extra` continuation bytes shifted into `cp`. -/
def continuation : Nat → Nat → Bytes → Option (Nat × Bytes)
  | 0, cp, rest => some (cp, rest)
  | _ + 1, _, [] => none
  | extra + 1, cp, d :: rest =>
    if d.toNat &&& 0xc0 ≠ 0x80 then none else continuation extra (cp <<< 6 ||| (d.toNat &&& 0x3f)) rest

def nextScalar : Bytes → Option (Nat × Bytes)
  | [] => none
  | c :: rest =>
    if c.toNat ≤ 0x7f then some (c.toNat, rest)
    else
      match leadByte c.toNat with
      | none => none
      | some (cp, extra) =>
        if extra > rest.length then none
        else
          match continuation extra cp rest with
          | none => none
          | some (cp, rest) =>
            if (extra = 1 ∧ cp < 0x80) ∨ (extra = 2 ∧ cp < 0x800) ∨ (extra = 3 ∧ cp < 0x10000) ∨
                cp > 0x10ffff ∨ (cp ≥ 0xd800 ∧ cp ≤ 0xdfff) then none
            else some (cp, rest)

/-- The outer loop; every turn consumes a byte, so the length of the string bounds it. -/
def validUtf8From : Nat → Bytes → Bool
  | _, [] => true
  | 0, _ :: _ => false
  | fuel + 1, c :: w =>
    match nextScalar (c :: w) with
    | none => false
    | some (_, rest) => validUtf8From fuel rest

def validUtf8 (w : Bytes) : Bool := validUtf8From w.length w

/-! ## The bit tests as ranges -/

theorem tail_bits (n : Nat) (h : n < 256) : n &&& 0xc0 = 0x80 ↔ 0x80 ≤ n ∧ n < 0xc0 := by
  revert n
  decide +kernel

theorem shift_in (cp d : Nat) : cp <<< 6 ||| (d &&& 0x3f) = cp * 64 + d % 64 := by
  rw [Nat.and_two_pow_sub_one_eq_mod d 6, ← Nat.shiftLeft_add_eq_or_of_lt (Nat.mod_lt _ (by omega)), Nat.shiftLeft_eq]

theorem continuation_cons (extra cp : Nat) (d : UInt8) (rest : Bytes) :
    continuation (extra + 1) cp (d :: rest) =
      if 0x80 ≤ d.toNat ∧ d.toNat < 0xc0 then continuation extra (cp * 64 + d.toNat % 64) rest else none := by
  have hd := tail_bits d.toNat d.toNat_lt
  by_cases h : 0x80 ≤ d.toNat ∧ d.toNat < 0xc0
  · rw [continuation, if_neg (by simpa using hd.mpr h), if_pos h, shift_in]
  · rw [continuation, if_pos (fun e => h (hd.mp e)), if_neg h]

theorem leadByte_eq (c : Nat) :
    leadByte c =
      if 0xc2 ≤ c ∧ c ≤ 0xdf then some (c % 32, 1)
      else if 0xe0 ≤ c ∧ c ≤ 0xef then some (c % 16, 2)
      else if 0xf0 ≤ c ∧ c ≤ 0xf4 then some (c % 8, 3) else none := by
  rw [leadByte, Nat.and_two_pow_sub_one_eq_mod c 5, Nat.and_two_pow_sub_one_eq_mod c 4,
    Nat.and_two_pow_sub_one_eq_mod c 3]

/-! ## One turn of the loop decodes one scalar value -/

theorem continuation_tail {n : Nat} (h : n < 64) (extra cp : Nat) (rest : Bytes) :
    continuation (extra + 1) cp (UInt8.ofNat (0x80 + n) :: rest) = continuation extra (cp * 64 + n) rest := by
  rw [continuation_cons, toNat_byte (by omega), if_pos (by omega), show (0x80 + n) % 64 = n by omega]

theorem nextScalar_lead {n cp : Nat} {w rest : Bytes} (cp0 extra : Nat) (h7 : 0x7f < n) (hn : n < 256)
    (hl : leadByte n = some (cp0, extra)) (hlen : extra ≤ w.length) (hc : continuation extra cp0 w = some (cp, rest))
    (ht : ¬ ((extra = 1 ∧ cp < 0x80) ∨ (extra = 2 ∧ cp < 0x800) ∨ (extra = 3 ∧ cp < 0x10000) ∨
      cp > 0x10ffff ∨ (cp ≥ 0xd800 ∧ cp ≤ 0xdfff))) : nextScalar (UInt8.ofNat n :: w) = some (cp, rest) := by
  simp only [nextScalar, toNat_byte hn]
  rw [if_neg (by omega), hl]
  simp only
  rw [if_neg (by omega), hc]
  simp only
  rw [if_neg ht]

theorem nextScalar_utf8 {c : Nat} (hc : Scalar c) (rest : Bytes) : nextScalar (utf8 c ++ rest) = some (c, rest) := by
  obtain ⟨hmax, hsur⟩ := hc
  unfold utf8
  split
  · rw [List.cons_append, List.nil_append, nextScalar, toNat_byte (by omega), if_pos (by omega)]
  split
  · simp only [List.cons_append, List.nil_append]
    apply nextScalar_lead (c / 64) 1 (by omega) (by omega)
    · rw [leadByte_eq, if_pos (by omega), show (0xc0 + c / 64) % 32 = c / 64 by omega]
    · simp
    · rw [continuation_tail (by omega), continuation, show c / 64 * 64 + c % 64 = c by omega]
    · omega
  split
  · simp only [List.cons_append, List.nil_append]
    apply nextScalar_lead (c / 4096) 2 (by omega) (by omega)
    · rw [leadByte_eq, if_neg (by omega), if_pos (by omega), show (0xe0 + c / 4096) % 16 = c / 4096 by omega]
    · simp
    · rw [continuation_tail (by omega), continuation_tail (by omega), continuation,
        show (c / 4096 * 64 + c / 64 % 64) * 64 + c % 64 = c by omega]
    · omega
  · simp only [List.cons_append, List.nil_append]
    apply nextScalar_lead (c / 262144) 3 (by omega) (by omega)
    · rw [leadByte_eq, if_neg (by omega), if_neg (by omega), if_pos (by omega),
        show (0xf0 + c / 262144) % 8 = c / 262144 by omega]
    · simp
    · rw [continuation_tail (by omega), continuation_tail (by omega), continuation_tail (by omega), continuation,
        show ((c / 262144 * 64 + c / 4096 % 64) * 64 + c / 64 % 64) * 64 + c % 64 = c by omega]
    · omega

/-- A continuation that is found begins with a tail byte. -/
theorem continuation_some {extra cp : Nat} {w : Bytes} {r : Nat × Bytes} (h : continuation (extra + 1) cp w = some r) :
    ∃ d w', w = d :: w' ∧ Tail d ∧ continuation extra (cp * 64 + d.toNat % 64) w' = some r := by
  cases w with
  | nil => cases h
  | cons d w' =>
    rw [continuation_cons] at h
    split at h
    · rename_i hd
      exact ⟨d, w', rfl, hd, h⟩
    · cases h

theorem nextScalar_some {w rest : Bytes} {c : Nat} (h : nextScalar w = some (c, rest)) :
    Scalar c ∧ w = utf8 c ++ rest := by
  cases w with
  | nil => cases h
  | cons b w =>
    have hb := b.toNat_lt
    simp only [nextScalar] at h
    split at h
    · rename_i h7
      cases h
      exact ⟨⟨by omega, by omega⟩, by rw [utf8_byte (by omega)]; rfl⟩
    rename_i h7
    rw [leadByte_eq] at h
    split at h
    · cases h
    rename_i cp extra hl
    split at h
    · cases h
    split at h
    · cases h
    rename_i cp' rest' hcont
    split at h
    · cases h
    rename_i htest
    cases h
    -- the lead byte fixes how many continuation bytes there are, and the tests that there
    -- are no more of them than the code point needs
    split at hl
    · cases hl
      obtain ⟨d1, w, rfl, h1, hcont⟩ := continuation_some hcont
      cases hcont
      have hform := @Form.two b d1 (by omega) (by omega) h1
      have he := hform.eq_utf8 (by rw [length_utf8, if_neg (by omega), if_pos (by omega)]; rfl)
      exact ⟨⟨by omega, by omega⟩, by rw [← he]; rfl⟩
    split at hl
    · cases hl
      obtain ⟨d1, w, rfl, h1, hcont⟩ := continuation_some hcont
      obtain ⟨d2, w, rfl, h2, hcont⟩ := continuation_some hcont
      cases hcont
      have hform := @Form.three b d1 d2 (by omega) (by omega) h1 h2
      have he := hform.eq_utf8 (by rw [length_utf8, if_neg (by omega), if_neg (by omega), if_pos (by omega)]; rfl)
      exact ⟨⟨by omega, by omega⟩, by rw [← he]; rfl⟩
    split at hl
    · cases hl
      obtain ⟨d1, w, rfl, h1, hcont⟩ := continuation_some hcont
      obtain ⟨d2, w, rfl, h2, hcont⟩ := continuation_some hcont
      obtain ⟨d3, w, rfl, h3, hcont⟩ := continuation_some hcont
      cases hcont
      have hform := @Form.four b d1 d2 d3 (by omega) (by omega) h1 h2 h3
      have he := hform.eq_utf8 (by rw [length_utf8, if_neg (by omega), if_neg (by omega), if_neg (by omega)]; rfl)
      exact ⟨⟨by omega, by omega⟩, by rw [← he]; rfl⟩
    · cases hl

/-! ## The validator is exact -/

theorem validUtf8From_iff (fuel : Nat) (w : Bytes) (h : w.length ≤ fuel) : validUtf8From fuel w = true ↔ Utf8 w := by
  induction fuel generalizing w with
  | zero =>
    rw [List.length_eq_zero_iff.mp (Nat.le_zero.mp h)]
    exact ⟨fun _ => utf8_nil, fun _ => by simp [validUtf8From]⟩
  | succ fuel ih =>
    cases w with
    | nil => exact ⟨fun _ => utf8_nil, fun _ => by simp [validUtf8From]⟩
    | cons b w =>
      rw [validUtf8From]
      refine ⟨?_, ?_⟩
      · intro hv
        split at hv
        · cases hv
        · rename_i c rest hn
          obtain ⟨hc, hw⟩ := nextScalar_some hn
          rw [hw] at h ⊢
          have hpos := List.length_pos_of_ne_nil (utf8_ne_nil c)
          rw [List.length_append] at h
          exact utf8_cons hc ((ih rest (by omega)).mp hv)
      · intro hu
        rcases utf8_cases hu with h0 | ⟨c, rest, hc, hw, hr⟩
        · cases h0
        · rw [hw] at h ⊢
          rw [nextScalar_utf8 hc]
          have hpos := List.length_pos_of_ne_nil (utf8_ne_nil c)
          rw [List.length_append] at h
          exact (ih rest (by omega)).mpr hr

/-- `valid_utf8` accepts exactly the well-formed strings. -/
theorem validUtf8_iff (w : Bytes) : validUtf8 w = true ↔ Utf8 w := validUtf8From_iff w.length w (Nat.le_refl _)

/-- And so, of all strings, those that are cut into shortest forms of scalar values. -/
theorem validUtf8_shortest_forms (w : Bytes) :
    validUtf8 w = true ↔ ∃ parts : List Bytes, (∀ e ∈ parts, ∃ c, Scalar c ∧ Shortest c e) ∧ w = parts.flatten := by
  rw [validUtf8_iff]
  exact utf8_iff_shortest w

-- Two bytes that carry 0, a surrogate, and a code point past the last.
example : [[0xc0, 0x80], [0xed, 0xa0, 0x80], [0xf4, 0x90, 0x80, 0x80]].map validUtf8 = [false, false, false] := by
  decide +kernel

end Overhauled.Broker
