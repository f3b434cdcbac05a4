/-
  Overhauled.Wire.Bytes — byte strings, big-endian words, and where a word stands in
  a frame. Nothing here is about one protocol: the codecs of this development are
  all "length-prefixed pieces in network order", and these are the pieces.

  A C++ `std::string` and a `std::vector<uint8_t>` are both byte strings (`Bytes`).
  `be n v` is the `n` low bytes of `v`, most significant first: what `htons`/`htonl`
  followed by a copy, or a loop pushing `v >> (8 * i)`, leaves in a buffer. `ofBe`
  is the loop `v = (v << 8) | b` that reads them back.

  `At frame off w off'` says that the bytes `w` stand in `frame` from `off` to
  `off'`. It splits along concatenation (`at_append`), and a frame that holds `w`
  from its first byte to its last is `w` (`at_whole`): that is how a decoder that
  advances an offset is compared with an encoder that appends.
-/

import Mathlib

namespace Overhauled.Wire

abbrev Bytes := List UInt8

/-- The bytes of an ASCII literal of the source. -/
def ascii (s : String) : Bytes := s.toList.map fun c => UInt8.ofNat c.toNat

/-- `std::to_string` of a natural number. -/
def decimal (n : Nat) : Bytes := ascii (toString n)

/-- The `n` low bytes of `v`, most significant first. -/
def be : Nat → Nat → Bytes
  | 0, _ => []
  | n + 1, v => UInt8.ofNat (v >>> (8 * n)) :: be n v

/-- The number `w` spells, most significant byte first. -/
def ofBe (w : Bytes) : Nat := w.foldl (fun v b => v * 256 + b.toNat) 0

@[simp] theorem length_be (n v : Nat) : (be n v).length = n := by
  induction n with
  | zero => rfl
  | succ n ih => simp [be, ih]

/-! ## Decimals -/

theorem decimal_eq (n : Nat) : decimal n = (Nat.toDigits 10 n).map fun c => UInt8.ofNat c.toNat := by
  rw [decimal, ascii, Nat.toString_eq_repr, Nat.toList_repr]

theorem digit_range {n : Nat} {c : Char} (h : c ∈ Nat.toDigits 10 n) : 48 ≤ c.toNat ∧ c.toNat ≤ 57 :=
  Char.isDigit_iff_toNat.mp (Nat.isDigit_of_mem_toDigits (by omega) (by omega) h)

theorem mem_decimal {n : Nat} {b : UInt8} (h : b ∈ decimal n) : 48 ≤ b.toNat ∧ b.toNat ≤ 57 := by
  rw [decimal_eq] at h
  obtain ⟨c, hc, rfl⟩ := List.mem_map.mp h
  have hrange := digit_range hc
  rw [UInt8.toNat_ofNat']
  omega

theorem decimal_injective {i j : Nat} (h : decimal i = decimal j) : i = j := by
  -- the digits can be read back from their bytes
  have hback : ∀ n, (decimal n).map (fun b => Char.ofNat b.toNat) = Nat.toDigits 10 n := by
    intro n
    rw [decimal_eq, List.map_map]
    refine (List.map_congr_left fun c hc => ?_).trans (List.map_id _)
    have hrange := digit_range hc
    rw [Function.comp_apply, UInt8.toNat_ofNat', Nat.mod_eq_of_lt (by omega), Char.ofNat_toNat]
    rfl
  have hdigits : Nat.toDigits 10 i = Nat.toDigits 10 j := by rw [← hback, ← hback, h]
  rw [← @Nat.ofDigitChars_ten_toDigits i, hdigits, Nat.ofDigitChars_ten_toDigits]

/-! ## Words -/

theorem foldl_ofBe (w : Bytes) (v : Nat) :
    w.foldl (fun v b => v * 256 + b.toNat) v = v * 256 ^ w.length + ofBe w := by
  induction w generalizing v with
  | nil => simp [ofBe]
  | cons b w ih =>
    have h0 := ih (0 * 256 + b.toNat)
    rw [List.foldl_cons, ih, show ofBe (b :: w) = _ from h0, List.length_cons]
    ring

@[simp] theorem ofBe_nil : ofBe [] = 0 := rfl

theorem ofBe_cons (b : UInt8) (w : Bytes) : ofBe (b :: w) = b.toNat * 256 ^ w.length + ofBe w := by
  simp only [ofBe, List.foldl_cons, Nat.zero_mul, Nat.zero_add]
  exact foldl_ofBe w b.toNat

theorem ofBe_lt (w : Bytes) : ofBe w < 256 ^ w.length := by
  induction w with
  | nil => simp
  | cons b w ih =>
    have hb : b.toNat < 256 := b.toNat_lt
    rw [ofBe_cons, List.length_cons, Nat.pow_succ]
    have : b.toNat * 256 ^ w.length ≤ 255 * 256 ^ w.length := Nat.mul_le_mul_right _ (by omega)
    omega

theorem shiftRight_byte (n v : Nat) : (UInt8.ofNat (v >>> (8 * n))).toNat = v / 256 ^ n % 256 := by
  simp only [UInt8.toNat_ofNat', Nat.shiftRight_eq_div_pow, Nat.pow_mul]

theorem ofBe_be (n v : Nat) : ofBe (be n v) = v % 256 ^ n := by
  induction n with
  | zero => simp [be, Nat.mod_one]
  | succ n ih =>
    simp only [be, ofBe_cons, length_be, ih, shiftRight_byte]
    have h := Nat.mod_mul (x := v) (a := 256 ^ n) (b := 256)
    rw [Nat.pow_succ, h]
    ring

theorem ofBe_be_of_lt {n v : Nat} (h : v < 256 ^ n) : ofBe (be n v) = v := by
  rw [ofBe_be, Nat.mod_eq_of_lt h]

theorem be_mod (n m v : Nat) (h : n ≤ m) : be n (v % 256 ^ m) = be n v := by
  induction n with
  | zero => rfl
  | succ n ih =>
    have hb : UInt8.ofNat ((v % 256 ^ m) >>> (8 * n)) = UInt8.ofNat (v >>> (8 * n)) := by
      apply UInt8.toNat_inj.mp
      rw [shiftRight_byte, shiftRight_byte]
      obtain ⟨k, rfl⟩ : ∃ k, m = n + 1 + k := ⟨m - (n + 1), by omega⟩
      rw [show n + 1 + k = n + (1 + k) by omega, Nat.pow_add, Nat.mod_mul_right_div_self,
        Nat.pow_add, Nat.pow_one, Nat.mod_mul_right_mod]
    simp only [be, hb, ih (by omega)]

theorem be_ofBe (w : Bytes) : be w.length (ofBe w) = w := by
  induction w with
  | nil => rfl
  | cons b w ih =>
    have hw := ofBe_lt w
    have hpos : 0 < 256 ^ w.length := Nat.pow_pos (by omega)
    have hhead : UInt8.ofNat (ofBe (b :: w) >>> (8 * w.length)) = b := by
      apply UInt8.toNat_inj.mp
      rw [shiftRight_byte, ofBe_cons, Nat.mul_comm, Nat.mul_add_div hpos, Nat.div_eq_of_lt hw, Nat.add_zero]
      exact Nat.mod_eq_of_lt b.toNat_lt
    have htail : be w.length (ofBe (b :: w)) = w := by
      rw [← be_mod w.length w.length _ (Nat.le_refl _), ofBe_cons, Nat.mul_comm, Nat.mul_add_mod,
        be_mod w.length w.length _ (Nat.le_refl _), ih]
    simp only [List.length_cons, be, hhead, htail]

/-- A word is its high bytes before its low ones. -/
theorem be_add (n m v : Nat) : be (n + m) v = be n (v / 256 ^ m) ++ be m v := by
  induction n with
  | zero => rw [Nat.zero_add, be, List.nil_append]
  | succ n ih =>
    have hshift : v >>> (8 * (n + m)) = (v / 256 ^ m) >>> (8 * n) := by
      rw [Nat.shiftRight_eq_div_pow, Nat.shiftRight_eq_div_pow, Nat.div_div_eq_div_mul, Nat.mul_add, Nat.pow_add,
        Nat.mul_comm, Nat.pow_mul 2 8 m]
    rw [show n + 1 + m = n + m + 1 by omega, be, be, hshift, ih, List.cons_append]

theorem be_inj {n v v' : Nat} (hv : v < 256 ^ n) (hv' : v' < 256 ^ n) (h : be n v = be n v') : v = v' := by
  rw [← ofBe_be_of_lt hv, h, ofBe_be_of_lt hv']

/-- A byte string behind its length in `k` bytes. -/
def pre (k : Nat) (v : Bytes) : Bytes := be k v.length ++ v

@[simp] theorem length_pre (k : Nat) (v : Bytes) : (pre k v).length = k + v.length := by simp [pre]

theorem be_one (v : UInt8) : be 1 v.toNat = [v] := by simp [be]

/-! ## Where a word stands -/

/-- The bytes `w` stand in `frame` from `off` to `off'`. -/
def At (frame : Bytes) (off : Nat) (w : Bytes) (off' : Nat) : Prop :=
  off' = off + w.length ∧ off' ≤ frame.length ∧ w <+: frame.drop off

theorem at_nil {frame : Bytes} {off off' : Nat} : At frame off [] off' ↔ off' = off ∧ off ≤ frame.length := by
  simp only [At, List.length_nil, Nat.add_zero, List.nil_prefix, and_true]
  refine ⟨?_, ?_⟩
  · intro h
    obtain ⟨rfl, h⟩ := h
    exact ⟨rfl, h⟩
  · intro h
    obtain ⟨rfl, h⟩ := h
    exact ⟨rfl, h⟩

theorem at_append {frame u w : Bytes} {off off' : Nat} :
    At frame off (u ++ w) off' ↔ ∃ o, At frame off u o ∧ At frame o w off' := by
  refine ⟨?_, ?_⟩
  · intro h
    obtain ⟨rfl, hle, t, ht⟩ := h
    rw [List.length_append] at hle ⊢
    refine ⟨off + u.length, ⟨rfl, by omega, w ++ t, by rw [← ht, List.append_assoc]⟩, by omega, by omega, t, ?_⟩
    rw [← List.drop_drop, ← ht, List.append_assoc, List.drop_left]
  · intro h
    obtain ⟨o, ⟨rfl, h1, t, ht⟩, rfl, h2, r, hr⟩ := h
    refine ⟨by rw [List.length_append]; omega, by omega, r, ?_⟩
    rw [← List.drop_drop, ← ht, List.drop_left] at hr
    rw [List.append_assoc, hr, ht]

/-- A frame that holds `w` from its first byte to its last is `w`. -/
theorem at_whole {frame w : Bytes} : At frame 0 w frame.length ↔ frame = w := by
  refine ⟨?_, ?_⟩
  · intro h
    obtain ⟨hl, -, hp⟩ := h
    rw [List.drop_zero] at hp
    exact (hp.eq_of_length (by omega)).symm
  · rintro rfl
    exact ⟨by omega, Nat.le_refl _, by simp⟩

theorem At.le {frame w : Bytes} {off off' : Nat} (h : At frame off w off') : off' ≤ frame.length := h.2.1

end Overhauled.Wire
