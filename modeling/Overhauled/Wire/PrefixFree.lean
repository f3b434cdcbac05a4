/-
  Overhauled.Wire.PrefixFree — readers that accept no frame and a longer one that
  begins with it.

  A reader goes from left to right, so on a frame and on a longer frame that begins
  with it it sees the same bytes: as long as it accepts both, it answers the same value
  at the same offset (`Steady`). Only the frame's size tells the two apart. A size that
  is checked and then dropped keeps the reader steady (`steady_sized`); a comparison of
  the offset with the size closes it (`Closes`): both frames have that size, so
  the longer one is not longer.
-/

import Mathlib.Data.Set.Basic
import Overhauled.Wire.Reader

namespace Overhauled.Wire

/-- No word of `L` begins another one. -/
def PrefixFree {α : Type} (L : Set (List α)) : Prop :=
  ∀ w ∈ L, ∀ w' ∈ L, w <+: w' → w = w'

namespace Reader

variable {α β : Type}

/-- Accepting a frame and an extension of it, `r` answers the same. -/
def Steady (r : Reader α) : Prop :=
  ∀ frame ext off x y, r frame off = .ok x → r (frame ++ ext) off = .ok y → x = y

/-- Accepting a frame and an extension of it, `r` was given the same frame twice. -/
def Closes (r : Reader α) : Prop :=
  ∀ frame ext off x y, r frame off = .ok x → r (frame ++ ext) off = .ok y → ext = []

/-! ## Steady readers -/

theorem steady_bind {r : Reader α} {f : α → Reader β} (hr : Steady r) (hf : ∀ a, Steady (f a)) : Steady (r >>= f) := by
  rintro frame ext off ⟨b, o⟩ ⟨b', o'⟩ h h'
  obtain ⟨a, m, h1, h2⟩ := bind_ok.mp h
  obtain ⟨a', m', h1', h2'⟩ := bind_ok.mp h'
  cases hr _ _ _ _ _ h1 h1'
  exact hf a _ _ _ _ _ h2 h2'

theorem steady_pure (a : α) : Steady (pure a : Reader α) := by
  rintro frame ext off x y h h'
  cases h
  cases h'
  rfl

/-- The checks leave the offset alone and answer nothing. -/
theorem steady_of_still {r : Reader Unit} (hr : ∀ frame off u o, r frame off = .ok (u, o) → o = off) : Steady r := by
  rintro frame ext off ⟨u, o⟩ ⟨u', o'⟩ h h'
  rw [hr _ _ _ _ h, hr _ _ _ _ h']

theorem steady_rejectIf {c : Prop} [Decidable c] {msg : Bytes} : Steady (rejectIf c msg) :=
  steady_of_still fun _ _ _ _ h => (rejectIf_ok.mp h).2

theorem steady_take {n : Nat} {msg : Bytes} : Steady (take n msg) :=
  steady_of_still fun _ _ _ _ h => (take_ok.mp h).2

theorem steady_fetch (n : Nat) : Steady (fetch n) := by
  rintro frame ext off ⟨w, o⟩ ⟨w', o'⟩ h h'
  obtain ⟨hw, ho, hle, hpre⟩ := fetch_ok.mp h
  obtain ⟨hw', ho', -, hpre'⟩ := fetch_ok.mp h'
  rw [List.drop_append_of_le_length (by omega)] at hpre'
  have heq : w = w' := List.IsPrefix.eq_of_length
    (List.prefix_of_prefix_length_le (hpre.trans (List.prefix_append _ _)) hpre' (by omega)) (by omega)
  rw [heq, ho, ho', hw, hw']

theorem sized_ok {c : Nat → Prop} [DecidablePred c] {msg : Bytes} {r : Reader α} {frame : Bytes} {off : Nat} {x : α × Nat}
    (h : (do let n ← size; rejectIf (c n) msg; r : Reader α) frame off = .ok x) : r frame off = .ok x := by
  obtain ⟨n, o, hsize, hrest⟩ := bind_ok.mp h
  obtain ⟨_, o', hcheck, hr⟩ := bind_ok.mp hrest
  rw [(rejectIf_ok.mp hcheck).2, (size_ok.mp hsize).2] at hr
  exact hr

theorem steady_sized {c : Nat → Prop} [DecidablePred c] {msg : Bytes} {r : Reader α} (hr : Steady r) :
    Steady (do let n ← size; rejectIf (c n) msg; r) :=
  fun _ _ _ _ _ h h' => hr _ _ _ _ _ (sized_ok h) (sized_ok h')

theorem steady_block (n : Nat) (msg : Bytes) : Steady (block n msg) :=
  steady_bind steady_take fun _ => steady_fetch n

theorem steady_word (n : Nat) (msg : Bytes) : Steady (word n msg) :=
  steady_bind (steady_block n msg) fun _ => steady_pure _

theorem steady_prefixed {k max : Nat} {truncated exceeds : Bytes} : Steady (prefixed k max truncated exceeds) :=
  steady_bind (steady_word k _) fun _ => steady_bind steady_rejectIf fun _ => steady_block _ _

theorem steady_guarded {n : Nat} {msg : Bytes} {r : Reader α} (hr : Steady r) : Steady (guarded n msg r) :=
  steady_bind steady_take fun _ => hr

theorem steady_many {r : Reader α} (hr : Steady r) (n : Nat) : Steady (many r n) := by
  induction n with
  | zero => exact steady_pure _
  | succ n ih => exact steady_bind hr fun _ => steady_bind ih fun _ => steady_pure _

theorem steady_u8 : Steady u8 := steady_bind (steady_fetch 1) fun _ => steady_pure _

theorem steady_u16 : Steady u16 := steady_bind (steady_fetch 2) fun _ => steady_pure _

theorem steady_u32 : Steady u32 := steady_bind (steady_fetch 4) fun _ => steady_pure _

theorem steady_u64 : Steady u64 := steady_bind (steady_fetch 8) fun _ => steady_pure _

/-! ## Readers that compare the offset with the size -/

theorem closes_atEnd {msg : Bytes} : Closes (atEnd msg) := by
  rintro frame ext off ⟨_, _⟩ ⟨_, _⟩ h h'
  obtain ⟨h, -⟩ := atEnd_ok.mp h
  obtain ⟨h', -⟩ := atEnd_ok.mp h'
  rw [List.length_append] at h'
  exact List.eq_nil_of_length_eq_zero (by omega)

theorem closes_bind {r : Reader α} {f : α → Reader β} (hr : Steady r) (hf : ∀ a, Closes (f a)) : Closes (r >>= f) := by
  rintro frame ext off ⟨b, o⟩ ⟨b', o'⟩ h h'
  obtain ⟨a, m, h1, h2⟩ := bind_ok.mp h
  obtain ⟨a', m', h1', h2'⟩ := bind_ok.mp h'
  cases hr _ _ _ _ _ h1 h1'
  exact hf a _ _ _ _ _ h2 h2'

/-- Whatever follows the comparison, it was passed. -/
theorem closes_then {r : Reader α} {f : α → Reader β} (hr : Closes r) : Closes (r >>= f) := by
  rintro frame ext off ⟨b, o⟩ ⟨b', o'⟩ h h'
  obtain ⟨a, m, h1, -⟩ := bind_ok.mp h
  obtain ⟨a', m', h1', -⟩ := bind_ok.mp h'
  exact hr _ _ _ _ _ h1 h1'

theorem Closes.prefixFree {r : Reader α} (hr : Closes r) : PrefixFree {frame | ∃ a, r.run frame = .ok a} := by
  rintro frame ⟨a, ha⟩ _ ⟨a', ha'⟩ ⟨ext, rfl⟩
  obtain ⟨o, ho⟩ := run_ok.mp ha
  obtain ⟨o', ho'⟩ := run_ok.mp ha'
  rw [hr _ _ _ _ _ ho ho', List.append_nil]

end Reader

end Overhauled.Wire
