/-
  Overhauled.Wire.Utf8 — what a well-formed UTF-8 string is: a concatenation of the
  shortest-form encodings of Unicode scalar values. Nothing here decodes; a validator
  is compared with `Utf8` from outside.

  `utf8` computes an encoding. `Form` is the four bit patterns as a reader sees them,
  overlong forms included, and the shortest of a scalar value's forms is `utf8`'s
  (`shortest_iff`).

  ASCII strings are well formed, and around other bytes they make no difference: an
  encoding cannot run over into them (`utf8_around_ascii`).
-/

import Overhauled.Wire.Bytes

namespace Overhauled.Wire

/-- A code point that is not a surrogate. -/
def Scalar (c : Nat) : Prop := c ≤ 0x10ffff ∧ ¬ (0xd800 ≤ c ∧ c ≤ 0xdfff)

instance (c : Nat) : Decidable (Scalar c) := inferInstanceAs (Decidable (_ ∧ _))

/-- The shortest encoding of `c`. -/
def utf8 (c : Nat) : Bytes :=
  if c < 0x80 then [UInt8.ofNat c]
  else if c < 0x800 then [UInt8.ofNat (0xc0 + c / 64), UInt8.ofNat (0x80 + c % 64)]
  else if c < 0x10000 then
    [UInt8.ofNat (0xe0 + c / 4096), UInt8.ofNat (0x80 + c / 64 % 64), UInt8.ofNat (0x80 + c % 64)]
  else
    [UInt8.ofNat (0xf0 + c / 262144), UInt8.ofNat (0x80 + c / 4096 % 64), UInt8.ofNat (0x80 + c / 64 % 64),
      UInt8.ofNat (0x80 + c % 64)]

/-- A concatenation of encodings of scalar values. -/
def Utf8 (w : Bytes) : Prop := ∃ cs : List Nat, (∀ c ∈ cs, Scalar c) ∧ w = cs.flatMap utf8

theorem utf8_ne_nil (c : Nat) : utf8 c ≠ [] := by
  unfold utf8
  repeat' split
  all_goals simp

theorem utf8_nil : Utf8 [] := ⟨[], by simp, rfl⟩

theorem utf8_cons {c : Nat} {w : Bytes} (hc : Scalar c) (hw : Utf8 w) : Utf8 (utf8 c ++ w) := by
  obtain ⟨cs, hs, rfl⟩ := hw
  refine ⟨c :: cs, ?_, by simp⟩
  intro d hd
  rcases List.mem_cons.mp hd with rfl | hd
  · exact hc
  · exact hs d hd

/-- A well-formed string is empty or starts with a scalar value's encoding. -/
theorem utf8_cases {w : Bytes} (h : Utf8 w) : w = [] ∨ ∃ c rest, Scalar c ∧ w = utf8 c ++ rest ∧ Utf8 rest := by
  obtain ⟨cs, hs, rfl⟩ := h
  cases cs with
  | nil => exact Or.inl rfl
  | cons c cs =>
    exact Or.inr ⟨c, cs.flatMap utf8, hs c (List.mem_cons_self ..), by simp,
      cs, fun d hd => hs d (List.mem_cons_of_mem _ hd), rfl⟩

theorem utf8_append {u w : Bytes} (hu : Utf8 u) (hw : Utf8 w) : Utf8 (u ++ w) := by
  obtain ⟨cs, hcs, rfl⟩ := hu
  obtain ⟨ds, hds, rfl⟩ := hw
  refine ⟨cs ++ ds, ?_, by rw [List.flatMap_append]⟩
  intro c hc
  rcases List.mem_append.mp hc with hc | hc
  · exact hcs c hc
  · exact hds c hc

/-! ## Shortest forms -/

theorem toNat_byte {n : Nat} (h : n < 256) : (UInt8.ofNat n).toNat = n := by
  rw [UInt8.toNat_ofNat', Nat.mod_eq_of_lt h]

theorem byte_eq {c : UInt8} {n : Nat} (h : c.toNat = n) : c = UInt8.ofNat n := by
  rw [← h, UInt8.ofNat_toNat]

theorem utf8_byte {b : UInt8} (h : b.toNat < 0x80) : utf8 b.toNat = [b] := by
  rw [utf8, if_pos h, UInt8.ofNat_toNat]

/-- A byte that continues an encoding: 10 and six bits of the code point. -/
def Tail (b : UInt8) : Prop := 0x80 ≤ b.toNat ∧ b.toNat < 0xc0

/-- `e` carries the code point `c` in one of the four bit patterns, whether `c` needs so many
    bytes or not. -/
inductive Form : Nat → Bytes → Prop
  | one {a : UInt8} : a.toNat < 0x80 → Form a.toNat [a]
  | two {a b : UInt8} : 0xc0 ≤ a.toNat → a.toNat < 0xe0 → Tail b → Form (a.toNat % 32 * 64 + b.toNat % 64) [a, b]
  | three {a b c : UInt8} : 0xe0 ≤ a.toNat → a.toNat < 0xf0 → Tail b → Tail c →
      Form ((a.toNat % 16 * 64 + b.toNat % 64) * 64 + c.toNat % 64) [a, b, c]
  | four {a b c d : UInt8} : 0xf0 ≤ a.toNat → a.toNat < 0xf8 → Tail b → Tail c → Tail d →
      Form (((a.toNat % 8 * 64 + b.toNat % 64) * 64 + c.toNat % 64) * 64 + d.toNat % 64) [a, b, c, d]

def Shortest (c : Nat) (e : Bytes) : Prop := Form c e ∧ ∀ e', Form c e' → e.length ≤ e'.length

theorem tail_ofNat {n : Nat} (h : n < 64) : Tail (UInt8.ofNat (0x80 + n)) := by
  rw [Tail, toNat_byte (by omega)]
  omega

theorem form_utf8 {c : Nat} (hc : Scalar c) : Form c (utf8 c) := by
  have hmax := hc.1
  unfold utf8
  split
  next h =>
    have hform := @Form.one (UInt8.ofNat c) (by rw [toNat_byte (by omega)]; exact h)
    rwa [toNat_byte (by omega)] at hform
  split
  next =>
    have hlead := @toNat_byte (0xc0 + c / 64) (by omega)
    have hform := @Form.two _ _ (by rw [hlead]; omega) (by rw [hlead]; omega) (tail_ofNat (n := c % 64) (by omega))
    rwa [hlead, toNat_byte (by omega), show _ * 64 + _ = c by omega] at hform
  split
  next =>
    have hlead := @toNat_byte (0xe0 + c / 4096) (by omega)
    have hform := @Form.three _ _ _ (by rw [hlead]; omega) (by rw [hlead]; omega) (tail_ofNat (n := c / 64 % 64) (by omega))
      (tail_ofNat (n := c % 64) (by omega))
    rwa [hlead, toNat_byte (by omega), toNat_byte (by omega), show _ * 64 + _ = c by omega] at hform
  next =>
    have hlead := @toNat_byte (0xf0 + c / 262144) (by omega)
    have hform := @Form.four _ _ _ _ (by rw [hlead]; omega) (by rw [hlead]; omega) (tail_ofNat (n := c / 4096 % 64) (by omega))
      (tail_ofNat (n := c / 64 % 64) (by omega)) (tail_ofNat (n := c % 64) (by omega))
    rwa [hlead, toNat_byte (by omega), toNat_byte (by omega), toNat_byte (by omega), show _ * 64 + _ = c by omega] at hform

theorem length_utf8 (c : Nat) :
    (utf8 c).length = if c < 0x80 then 1 else if c < 0x800 then 2 else if c < 0x10000 then 3 else 4 := by
  unfold utf8
  split
  next => rfl
  split
  next => rfl
  split
  next => rfl
  next => rfl

theorem Form.length_utf8_le {c : Nat} {e : Bytes} (h : Form c e) : (utf8 c).length ≤ e.length := by
  rw [length_utf8]
  cases h with
  | one ha => rw [if_pos ha]; exact Nat.le_refl 1
  | two ha ha' hb =>
    rw [List.length_cons, List.length_singleton]
    split_ifs <;> omega
  | three ha ha' hb hc =>
    simp only [List.length_cons, List.length_nil]
    split_ifs <;> omega
  | four ha ha' hb hc hd =>
    simp only [List.length_cons, List.length_nil]
    split_ifs <;> omega

/-- A pattern of the right length leaves no choice of its bytes. -/
theorem Form.eq_utf8 {c : Nat} {e : Bytes} (h : Form c e) (hlen : e.length = (utf8 c).length) : e = utf8 c := by
  rw [length_utf8] at hlen
  cases h with
  | one ha => exact (utf8_byte ha).symm
  | @two a b ha ha' hb =>
    simp only [Tail] at hb
    generalize hcp : a.toNat % 32 * 64 + b.toNat % 64 = cp at *
    have hrange : 0x80 ≤ cp ∧ cp < 0x800 := by
      simp only [List.length_cons, List.length_nil] at hlen
      split_ifs at hlen <;> omega
    rw [utf8, if_neg (by omega), if_pos (by omega), ← byte_eq (c := a) (by omega), ← byte_eq (c := b) (by omega)]
  | @three a b c ha ha' hb hc =>
    simp only [Tail] at hb hc
    generalize hcp : (a.toNat % 16 * 64 + b.toNat % 64) * 64 + c.toNat % 64 = cp at *
    have hrange : 0x800 ≤ cp ∧ cp < 0x10000 := by
      simp only [List.length_cons, List.length_nil] at hlen
      split_ifs at hlen <;> omega
    rw [utf8, if_neg (by omega), if_neg (by omega), if_pos (by omega), ← byte_eq (c := a) (by omega),
      ← byte_eq (c := b) (by omega), ← byte_eq (c := c) (by omega)]
  | @four a b c d ha ha' hb hc hd =>
    simp only [Tail] at hb hc hd
    generalize hcp : ((a.toNat % 8 * 64 + b.toNat % 64) * 64 + c.toNat % 64) * 64 + d.toNat % 64 = cp at *
    have hrange : 0x10000 ≤ cp := by
      simp only [List.length_cons, List.length_nil] at hlen
      split_ifs at hlen <;> omega
    rw [utf8, if_neg (by omega), if_neg (by omega), if_neg (by omega), ← byte_eq (c := a) (by omega),
      ← byte_eq (c := b) (by omega), ← byte_eq (c := c) (by omega), ← byte_eq (c := d) (by omega)]

theorem shortest_iff {c : Nat} {e : Bytes} (hc : Scalar c) : Shortest c e ↔ e = utf8 c := by
  refine ⟨?_, ?_⟩
  · rintro ⟨hform, hmin⟩
    exact hform.eq_utf8 (Nat.le_antisymm (hmin _ (form_utf8 hc)) hform.length_utf8_le)
  · rintro rfl
    exact ⟨form_utf8 hc, fun _ hform => hform.length_utf8_le⟩

/-- Well-formed strings without a word about how an encoding is computed. -/
theorem utf8_iff_shortest (w : Bytes) :
    Utf8 w ↔ ∃ parts : List Bytes, (∀ e ∈ parts, ∃ c, Scalar c ∧ Shortest c e) ∧ w = parts.flatten := by
  refine ⟨?_, ?_⟩
  · rintro ⟨cs, hcs, rfl⟩
    refine ⟨cs.map utf8, ?_, List.flatMap_def ..⟩
    intro e he
    obtain ⟨c, hc, rfl⟩ := List.mem_map.mp he
    exact ⟨c, hcs c hc, (shortest_iff (hcs c hc)).mpr rfl⟩
  · rintro ⟨parts, hparts, rfl⟩
    induction parts with
    | nil => exact utf8_nil
    | cons e parts ih =>
      obtain ⟨⟨c, hc, he⟩, hrest⟩ := List.forall_mem_cons.mp hparts
      rw [List.flatten_cons, (shortest_iff hc).mp he]
      exact utf8_cons hc (ih hrest)

/-! ## ASCII -/

def Ascii (w : Bytes) : Prop := ∀ b ∈ w, b.toNat < 0x80

instance : DecidablePred Ascii := fun w => List.decidableBAll (fun b : UInt8 => b.toNat < 0x80) w

theorem ascii_nil : Ascii [] := List.forall_mem_nil _

/-- A string literal is unified with the list of its characters, so that only they are
    looked at. -/
theorem ascii_literal {cs : List Char} (h : cs.all (·.toNat < 0x80) = true) : Ascii (ascii (String.ofList cs)) := by
  intro b hb
  rw [ascii, String.toList_ofList] at hb
  obtain ⟨c, hc, rfl⟩ := List.mem_map.mp hb
  have hlow : c.toNat < 0x80 := of_decide_eq_true (List.all_eq_true.mp h c hc)
  rw [UInt8.toNat_ofNat']
  omega

theorem utf8_ascii {w : Bytes} (h : Ascii w) : Utf8 w := by
  induction w with
  | nil => exact utf8_nil
  | cons b w ih =>
    have hb : b.toNat < 0x80 := h b (List.mem_cons_self ..)
    have hscalar : Scalar b.toNat := ⟨by omega, by omega⟩
    have := utf8_cons hscalar (ih fun d hd => h d (List.mem_cons_of_mem _ hd))
    rwa [utf8_byte hb] at this

/-- An encoding is one byte below 0x80, or has no such byte. -/
theorem utf8_bytes {c : Nat} (hc : Scalar c) :
    (c < 0x80 ∧ utf8 c = [UInt8.ofNat c]) ∨ ∀ b ∈ utf8 c, 0x80 ≤ b.toNat := by
  have hmax := hc.1
  by_cases h1 : c < 0x80
  · exact Or.inl ⟨h1, if_pos h1⟩
  right
  unfold utf8
  rw [if_neg h1]
  split
  · simp [UInt8.toNat_ofNat']
    omega
  split
  · simp [UInt8.toNat_ofNat']
    omega
  · simp [UInt8.toNat_ofNat']
    omega

theorem utf8_cons_ascii_iff {b : UInt8} (hb : b.toNat < 0x80) {w : Bytes} : Utf8 (b :: w) ↔ Utf8 w := by
  refine ⟨?_, ?_⟩
  · intro h
    rcases utf8_cases h with h | ⟨c, rest, hc, heq, hrest⟩
    · cases h
    rcases utf8_bytes hc with ⟨-, hone⟩ | hhigh
    · rw [hone] at heq
      cases heq
      exact hrest
    · obtain ⟨d, ds, hd⟩ := List.exists_cons_of_ne_nil (utf8_ne_nil c)
      rw [hd] at heq hhigh
      cases heq
      have := hhigh b (List.mem_cons_self ..)
      omega
  · intro h
    have hscalar : Scalar b.toNat := ⟨by omega, by omega⟩
    have := utf8_cons hscalar h
    rwa [utf8_byte hb] at this

theorem ascii_append_iff {a w : Bytes} (ha : Ascii a) : Utf8 (a ++ w) ↔ Utf8 w := by
  induction a with
  | nil => rfl
  | cons b a ih =>
    rw [List.cons_append, utf8_cons_ascii_iff (ha b (List.mem_cons_self ..))]
    exact ih fun d hd => ha d (List.mem_cons_of_mem _ hd)

/-- The encodings of `w ++ a` end inside `w` until `w` is used up: one that reached into `a`
    would hold a byte below 0x80 after its first. -/
theorem utf8_of_append_ascii {cs : List Nat} (hcs : ∀ c ∈ cs, Scalar c) {w a : Bytes} (ha : Ascii a)
    (h : w ++ a = cs.flatMap utf8) : Utf8 w := by
  induction cs generalizing w with
  | nil =>
    rw [(List.append_eq_nil_iff.mp h).1]
    exact utf8_nil
  | cons c cs ih =>
    have hc : Scalar c := hcs c (List.mem_cons_self ..)
    have hrest : ∀ d ∈ cs, Scalar d := fun d hd => hcs d (List.mem_cons_of_mem _ hd)
    rw [List.flatMap_cons] at h
    rcases List.append_eq_append_iff.mp h with ⟨tail, htail, ha'⟩ | ⟨w', hw', h'⟩
    · -- the first encoding covers `w`
      rcases utf8_bytes hc with ⟨-, hone⟩ | hhigh
      · rcases w with _ | ⟨b, w⟩
        · exact utf8_nil
        · rw [hone, List.cons_append, List.cons.injEq] at htail
          obtain ⟨rfl, hnil⟩ := htail
          rw [(List.append_eq_nil_iff.mp hnil.symm).1]
          exact ⟨[c], by simpa using hc, by simp [hone]⟩
      · have htail0 : tail = [] := by
          rcases tail with _ | ⟨b, tail⟩
          · rfl
          · have hlow := ha b (by rw [ha']; simp)
            have hhigh := hhigh b (by rw [htail]; simp)
            omega
        rw [htail0, List.append_nil] at htail
        rw [← htail]
        exact ⟨[c], by simpa using hc, by simp⟩
    · rw [hw']
      exact utf8_cons hc (ih hrest h'.symm)

theorem append_ascii_iff {w a : Bytes} (ha : Ascii a) : Utf8 (w ++ a) ↔ Utf8 w := by
  refine ⟨?_, fun h => utf8_append h (utf8_ascii ha)⟩
  intro h
  obtain ⟨cs, hcs, heq⟩ := h
  exact utf8_of_append_ascii hcs ha heq

/-- ASCII text around a string decides nothing about it. -/
theorem utf8_around_ascii {a w b : Bytes} (ha : Ascii a) (hb : Ascii b) : Utf8 (a ++ w ++ b) ↔ Utf8 w := by
  rw [append_ascii_iff hb, ascii_append_iff ha]

end Overhauled.Wire
