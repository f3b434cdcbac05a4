/-
  Overhauled.Wire.Reader — decoders that advance an offset through a frame.

  A decoder of the source reads `frame` from `*offset` on, moves `*offset` past what
  it read, and returns false with `*error` set when it rejects the frame. `Reader α`
  is that: it is given the frame and the offset and answers a value and the next
  offset, or stops. It stops in one of two ways: it rejects the frame with a text
  (`reject`), or it reads a byte the frame does not have (`fault`), for which C++
  defines nothing; a decoder that checks before it reads never faults.

  What a reader accepts is said by one equivalence per reader: it answers `a` and
  `off'` exactly when `a` is within its limits and the bytes of `a` stand in the
  frame from `off` to `off'` (`At`). `bind_ok` chains them, and `run_ok` turns
  the chain for a whole frame into "the frame is the encoding of `a`". `Says` is the
  other side: every text a reader may reject with satisfies a predicate.
-/

import Overhauled.Wire.Bytes

namespace Overhauled.Wire

inductive Stop where
  | reject (msg : Bytes)
  | fault
  deriving DecidableEq, Repr

/-- What `*error` holds after the decoder stopped. -/
def Stop.text : Stop → Bytes
  | .reject msg => msg
  | .fault => []

def Reader (α : Type) := Bytes → Nat → Except Stop (α × Nat)

namespace Reader

variable {α β : Type}

def bind (r : Reader α) (f : α → Reader β) : Reader β := fun frame off =>
  match r frame off with
  | .ok (a, o) => f a frame o
  | .error e => .error e

instance : Monad Reader where
  pure a := fun _ off => .ok (a, off)
  bind := Reader.bind

/-- Decode a whole frame from its first byte. -/
def run (r : Reader α) (frame : Bytes) : Except Stop α :=
  match r frame 0 with
  | .ok (a, _) => .ok a
  | .error e => .error e

/-! ## The primitives of the source's decoders -/

def reject (msg : Bytes) : Reader α := fun _ _ => .error (.reject msg)

/-- `if (c) { *error = msg; return false; }` -/
def rejectIf (c : Prop) [Decidable c] (msg : Bytes) : Reader Unit := if c then reject msg else pure ()

/-- `if (!valid(.., error)) return false;`, where the check answers the text it set, if any. -/
def rejectSome : Option Bytes → Reader Unit
  | some msg => reject msg
  | none => pure ()

/-- The source's `take`: the bounds check before a read; the offset stays. -/
def take (need : Nat) (msg : Bytes) : Reader Unit := fun frame off =>
  if off > frame.length ∨ need > frame.length - off then .error (.reject msg) else .ok ((), off)

/-- Copy the next `n` bytes out of the frame and step over them. -/
def fetch (n : Nat) : Reader Bytes := fun frame off =>
  if off + n ≤ frame.length then .ok ((frame.drop off).take n, off + n) else .error .fault

/-- Read `n` bytes at a fixed place; the offset stays. -/
def peek (pos n : Nat) : Reader Bytes := fun frame off =>
  if pos + n ≤ frame.length then .ok ((frame.drop pos).take n, off) else .error .fault

/-- The big-endian word of `n` bytes at a fixed place. -/
def peekWord (pos n : Nat) : Reader Nat := do return ofBe (← peek pos n)

/-- The frame's size. -/
def size : Reader Nat := fun frame off => .ok (frame.length, off)

/-- How many bytes are left from the offset on. -/
def remaining : Reader Nat := fun frame off => .ok (frame.length - off, off)

def seek (pos : Nat) : Reader Unit := fun _ _ => .ok ((), pos)

/-- A loop bound that the source does not have ran out; no reader gets here. -/
def outOfFuel : Reader α := fun _ _ => .error .fault

/-- `if (offset != frame.size()) { *error = msg; return false; }` -/
def atEnd (msg : Bytes) : Reader Unit := fun frame off =>
  if off ≠ frame.length then .error (.reject msg) else .ok ((), off)

/-- `n` bytes, checked first. -/
def block (n : Nat) (msg : Bytes) : Reader Bytes := do
  take n msg
  fetch n

/-- A big-endian word of `n` bytes, checked first. -/
def word (n : Nat) (msg : Bytes) : Reader Nat := do
  let w ← block n msg
  return ofBe w

/-- A byte string behind its length in `k` bytes, the length checked against `max`. -/
def prefixed (k max : Nat) (truncated exceeds : Bytes) : Reader Bytes := do
  let len ← word k truncated
  rejectIf (len > max) exceeds
  block len truncated

/-- `n` bytes checked for, then `r` (which reads that many). -/
def guarded (n : Nat) (msg : Bytes) (r : Reader α) : Reader α := do
  take n msg
  r

/-- `for (i = 0; i < n; ++i) out->push_back(r)` -/
def many (r : Reader α) : Nat → Reader (List α)
  | 0 => return []
  | n + 1 => do
    let a ← r
    let rest ← many r n
    return a :: rest

/-- The next byte, unchecked; and so for the wider words (`memcpy`, then `ntohs` and so on). -/
def u8 : Reader UInt8 := do return UInt8.ofNat (ofBe (← fetch 1))

@[inherit_doc u8]
def u16 : Reader UInt16 := do return UInt16.ofNat (ofBe (← fetch 2))

@[inherit_doc u8]
def u32 : Reader UInt32 := do return UInt32.ofNat (ofBe (← fetch 4))

@[inherit_doc u8]
def u64 : Reader UInt64 := do return UInt64.ofNat (ofBe (← fetch 8))

/-! ## What each accepts -/

variable {frame : Bytes} {off off' : Nat}

theorem bind_ok {r : Reader α} {f : α → Reader β} {b : β} :
    (r >>= f) frame off = .ok (b, off') ↔ ∃ a o, r frame off = .ok (a, o) ∧ f a frame o = .ok (b, off') := by
  show Reader.bind r f frame off = _ ↔ _
  unfold Reader.bind
  cases h : r frame off with
  | ok x =>
    refine ⟨?_, ?_⟩
    · intro h'; exact ⟨x.1, x.2, rfl, h'⟩
    · intro h
      obtain ⟨a, o, h1, h2⟩ := h
      cases h1
      exact h2
  | error e =>
    refine ⟨?_, ?_⟩
    · intro h'; cases h'
    · intro h
      obtain ⟨a, o, h1, _⟩ := h
      cases h1

theorem bind_of_ok {r : Reader α} {f : α → Reader β} {a : α} {o : Nat} (h : r frame off = .ok (a, o)) :
    (r >>= f) frame off = f a frame o := by
  show Reader.bind r f frame off = _
  rw [Reader.bind, h]

theorem pure_ok {a b : α} : (pure a : Reader α) frame off = .ok (b, off') ↔ b = a ∧ off' = off := by
  show Except.ok (a, off) = _ ↔ _
  simp only [Except.ok.injEq, Prod.mk.injEq, eq_comm]

theorem reject_ok {msg : Bytes} {b : α} : (reject msg : Reader α) frame off = .ok (b, off') ↔ False := by
  simp [reject]

theorem rejectIf_ok {c : Prop} [Decidable c] {msg : Bytes} {u : Unit} :
    rejectIf c msg frame off = .ok (u, off') ↔ ¬ c ∧ off' = off := by
  unfold rejectIf
  split
  · simp [reject_ok, *]
  · simp [pure_ok, *]

theorem rejectIf_congr {c d : Prop} [Decidable c] [Decidable d] {msg : Bytes} (h : c ↔ d) :
    rejectIf c msg = rejectIf d msg := by
  simp only [rejectIf, h]

theorem rejectSome_ok {m : Option Bytes} {u : Unit} :
    rejectSome m frame off = .ok (u, off') ↔ m = none ∧ off' = off := by
  cases m with
  | none => simp [rejectSome, pure_ok]
  | some msg => simp [rejectSome, reject_ok]

theorem size_ok {n : Nat} : size frame off = .ok (n, off') ↔ n = frame.length ∧ off' = off := by
  simp only [size, Except.ok.injEq, Prod.mk.injEq, eq_comm]

theorem remaining_ok {n : Nat} : remaining frame off = .ok (n, off') ↔ n = frame.length - off ∧ off' = off := by
  simp only [remaining, Except.ok.injEq, Prod.mk.injEq, eq_comm]

theorem seek_ok {pos : Nat} {u : Unit} : seek pos frame off = .ok (u, off') ↔ off' = pos := by
  simp only [seek, Except.ok.injEq, Prod.mk.injEq, true_and, eq_comm]

theorem atEnd_ok {msg : Bytes} {u : Unit} :
    atEnd msg frame off = .ok (u, off') ↔ off = frame.length ∧ off' = off := by
  unfold atEnd
  split
  · simp [*]
  · rename_i h
    simp only [Except.ok.injEq, Prod.mk.injEq, true_and, eq_comm (a := off) (b := off')]
    exact ⟨fun h' => ⟨by omega, h'⟩, fun h' => h'.2⟩

theorem take_ok {n : Nat} {msg : Bytes} {u : Unit} :
    take n msg frame off = .ok (u, off') ↔ off + n ≤ frame.length ∧ off' = off := by
  unfold take
  split
  · rename_i h
    simp only [reduceCtorEq, false_iff, not_and]
    intro h' _
    omega
  · rename_i h
    simp only [Except.ok.injEq, Prod.mk.injEq, true_and, eq_comm (a := off) (b := off')]
    exact ⟨fun h' => ⟨by omega, h'⟩, fun h' => h'.2⟩

theorem fetch_ok {n : Nat} {w : Bytes} :
    fetch n frame off = .ok (w, off') ↔ w.length = n ∧ At frame off w off' := by
  unfold fetch At
  split
  · rename_i h
    have hl : ((frame.drop off).take n).length = n := by
      rw [List.length_take, List.length_drop]; omega
    simp only [Except.ok.injEq, Prod.mk.injEq]
    refine ⟨?_, ?_⟩
    · intro h
      obtain ⟨rfl, rfl⟩ := h
      exact ⟨hl, by rw [hl], h, List.take_prefix _ _⟩
    · intro h
      obtain ⟨rfl, rfl, -, hp⟩ := h
      exact ⟨(List.prefix_iff_eq_take.mp hp).symm, rfl⟩
  · rename_i h
    simp only [reduceCtorEq, false_iff, not_and]
    rintro rfl rfl
    intro h'
    exact absurd h' h

theorem peek_ok {pos n : Nat} {w : Bytes} :
    peek pos n frame off = .ok (w, off') ↔ w.length = n ∧ At frame pos w (pos + n) ∧ off' = off := by
  unfold peek
  by_cases h : pos + n ≤ frame.length
  · have hf : fetch n frame pos = .ok ((frame.drop pos).take n, pos + n) := by rw [fetch, if_pos h]
    rw [if_pos h]
    simp only [Except.ok.injEq, Prod.mk.injEq]
    refine ⟨?_, ?_⟩
    · intro h
      obtain ⟨rfl, rfl⟩ := h
      obtain ⟨h1, h2⟩ := fetch_ok.mp hf
      exact ⟨h1, h2, rfl⟩
    · intro h
      obtain ⟨h1, h2, rfl⟩ := h
      have hw := fetch_ok.mpr ⟨h1, h2⟩
      rw [hf] at hw
      cases hw
      exact ⟨rfl, rfl⟩
  · rw [if_neg h]
    simp only [reduceCtorEq, false_iff, not_and]
    intro _ h2 _
    exact h h2.le

theorem peekWord_ok {pos n v : Nat} :
    peekWord pos n frame off = .ok (v, off') ↔ v < 256 ^ n ∧ At frame pos (be n v) (pos + n) ∧ off' = off := by
  simp only [peekWord, bind_ok, peek_ok, pure_ok]
  refine ⟨?_, ?_⟩
  · intro h
    obtain ⟨w, _, ⟨rfl, h, rfl⟩, rfl, rfl⟩ := h
    exact ⟨ofBe_lt w, by rw [be_ofBe]; exact h, rfl⟩
  · intro h
    obtain ⟨hv, h, rfl⟩ := h
    exact ⟨be n v, off', ⟨length_be n v, h, rfl⟩, (ofBe_be_of_lt hv).symm, rfl⟩

theorem block_ok {n : Nat} {msg w : Bytes} :
    block n msg frame off = .ok (w, off') ↔ w.length = n ∧ At frame off w off' := by
  unfold block
  simp only [bind_ok, take_ok, fetch_ok]
  refine ⟨?_, ?_⟩
  · intro h
    obtain ⟨_, _, ⟨-, rfl⟩, h⟩ := h
    exact h
  · intro h
    obtain ⟨h1, h2⟩ := h
    exact ⟨(), off, ⟨by have := h2.1; have := h2.2.1; omega, rfl⟩, h1, h2⟩

theorem word_ok {n v : Nat} {msg : Bytes} :
    word n msg frame off = .ok (v, off') ↔ v < 256 ^ n ∧ At frame off (be n v) off' := by
  unfold word
  simp only [bind_ok, block_ok, pure_ok]
  refine ⟨?_, ?_⟩
  · intro h
    obtain ⟨w, _, ⟨rfl, h⟩, rfl, rfl⟩ := h
    exact ⟨ofBe_lt w, by rw [be_ofBe]; exact h⟩
  · intro h
    obtain ⟨hv, h⟩ := h
    exact ⟨be n v, off', ⟨length_be n v, h⟩, (ofBe_be_of_lt hv).symm, rfl⟩

theorem prefixed_ok {k max : Nat} {truncated exceeds v : Bytes} :
    prefixed k max truncated exceeds frame off = .ok (v, off') ↔
      v.length ≤ max ∧ v.length < 256 ^ k ∧ At frame off (pre k v) off' := by
  unfold prefixed pre
  simp only [bind_ok, word_ok, rejectIf_ok, block_ok, at_append]
  refine ⟨?_, ?_⟩
  · intro h
    obtain ⟨_, o, ⟨hlt, h1⟩, _, _, ⟨hle, rfl⟩, rfl, h2⟩ := h
    exact ⟨by omega, hlt, _, h1, h2⟩
  · intro h
    obtain ⟨hle, hlt, o, h1, h2⟩ := h
    exact ⟨v.length, o, ⟨hlt, h1⟩, (), o, ⟨by omega, rfl⟩, rfl, h2⟩

/-- A reader of `n` bytes needs the room it reads. -/
theorem guarded_ok {n : Nat} {msg w : Bytes} {r : Reader α} {a : α} (hw : w.length = n)
    (hr : r frame off = .ok (a, off') ↔ At frame off w off') :
    guarded n msg r frame off = .ok (a, off') ↔ At frame off w off' := by
  unfold guarded
  simp only [bind_ok, take_ok]
  refine ⟨?_, ?_⟩
  · intro h
    obtain ⟨_, _, ⟨-, rfl⟩, h⟩ := h
    exact hr.mp h
  · intro h
    exact ⟨(), off, ⟨by have := h.1; have := h.le; omega, rfl⟩, hr.mpr h⟩

/-- A loop over a reader of `enc a` reads the encodings one after the other. -/
theorem many_ok {r : Reader α} {P : α → Prop} {enc : α → Bytes}
    (hr : ∀ {a off off'}, r frame off = .ok (a, off') ↔ P a ∧ At frame off (enc a) off') {n : Nat} {xs : List α}
    (hoff : off ≤ frame.length) :
    many r n frame off = .ok (xs, off') ↔ xs.length = n ∧ (∀ x ∈ xs, P x) ∧ At frame off (xs.flatMap enc) off' := by
  induction n generalizing off xs with
  | zero =>
    rw [many, pure_ok]
    refine ⟨?_, ?_⟩
    · intro h
      obtain ⟨rfl, rfl⟩ := h
      exact ⟨rfl, by simp, at_nil.mpr ⟨rfl, hoff⟩⟩
    · intro h
      obtain ⟨hl, -, ha⟩ := h
      obtain rfl := List.eq_nil_of_length_eq_zero hl
      exact ⟨rfl, (at_nil.mp ha).1⟩
  | succ n ih =>
    simp only [many, bind_ok, hr, pure_ok]
    refine ⟨?_, ?_⟩
    · intro h
      obtain ⟨a, o, ⟨hp, ha⟩, as, _, has, rfl, rfl⟩ := h
      obtain ⟨hl, hps, hat⟩ := (ih ha.le).mp has
      refine ⟨by rw [List.length_cons, hl], List.forall_mem_cons.mpr ⟨hp, hps⟩, ?_⟩
      exact at_append.mpr ⟨o, ha, hat⟩
    · intro h
      obtain ⟨hl, hps, hat⟩ := h
      cases xs with
      | nil => cases hl
      | cons a as =>
        obtain ⟨hp, hps⟩ := List.forall_mem_cons.mp hps
        obtain ⟨o, ha, hat⟩ := at_append.mp hat
        exact ⟨a, o, ⟨hp, ha⟩, as, off', (ih ha.le).mpr ⟨by simpa using hl, hps, hat⟩, rfl, rfl⟩

/-- A word read into a type of its width. -/
theorem fetched_ok {n : Nat} {ofNat : Nat → α} {toNat : α → Nat} (hlt : ∀ a, toNat a < 256 ^ n)
    (hto : ∀ v < 256 ^ n, toNat (ofNat v) = v) (hof : ∀ a, ofNat (toNat a) = a) {a : α} :
    (do return ofNat (ofBe (← fetch n)) : Reader α) frame off = .ok (a, off') ↔ At frame off (be n (toNat a)) off' := by
  simp only [bind_ok, fetch_ok, pure_ok]
  refine ⟨?_, ?_⟩
  · intro h
    obtain ⟨w, _, ⟨rfl, h⟩, rfl, rfl⟩ := h
    rw [hto _ (ofBe_lt w), be_ofBe]
    exact h
  · intro h
    exact ⟨_, _, ⟨length_be _ _, h⟩, by rw [ofBe_be_of_lt (hlt a), hof], rfl⟩

theorem u8_ok {v : UInt8} : u8 frame off = .ok (v, off') ↔ At frame off (be 1 v.toNat) off' :=
  fetched_ok UInt8.toNat_lt (fun _ h => UInt8.toNat_ofNat_of_lt' h) fun _ => UInt8.ofNat_toNat

theorem u16_ok {v : UInt16} : u16 frame off = .ok (v, off') ↔ At frame off (be 2 v.toNat) off' :=
  fetched_ok UInt16.toNat_lt (fun _ h => UInt16.toNat_ofNat_of_lt' h) fun _ => UInt16.ofNat_toNat

theorem u32_ok {v : UInt32} : u32 frame off = .ok (v, off') ↔ At frame off (be 4 v.toNat) off' :=
  fetched_ok UInt32.toNat_lt (fun _ h => UInt32.toNat_ofNat_of_lt' h) fun _ => UInt32.ofNat_toNat

theorem u64_ok {v : UInt64} : u64 frame off = .ok (v, off') ↔ At frame off (be 8 v.toNat) off' :=
  fetched_ok UInt64.toNat_lt (fun _ h => UInt64.toNat_ofNat_of_lt' h) fun _ => UInt64.ofNat_toNat

theorem run_ok {r : Reader α} {a : α} : run r frame = .ok a ↔ ∃ off', r frame 0 = .ok (a, off') := by
  unfold run
  split
  · rename_i a' o h
    simp only [h, Except.ok.injEq, Prod.mk.injEq]
    exact ⟨fun h' => ⟨o, h', rfl⟩, fun ⟨_, h', _⟩ => h'⟩
  · rename_i e h
    simp [h]

/-! ## The texts a reader rejects with -/

/-- Every text `r` may reject with satisfies `P`. -/
def Says (P : Bytes → Prop) (r : Reader α) : Prop :=
  ∀ frame off msg, r frame off = .error (.reject msg) → P msg

variable {P : Bytes → Prop}

theorem says_bind {r : Reader α} {f : α → Reader β} (hr : Says P r) (hf : ∀ a, Says P (f a)) : Says P (r >>= f) := by
  intro frame off msg h
  change Reader.bind r f frame off = _ at h
  unfold Reader.bind at h
  split at h
  · exact hf _ _ _ _ h
  · rename_i e he
    cases h
    exact hr _ _ _ he

theorem says_pure (a : α) : Says P (pure a : Reader α) := by
  intro frame off msg h
  cases h

theorem says_reject {msg : Bytes} (h : P msg) : Says P (reject msg : Reader α) := by
  intro frame off m hm
  cases hm
  exact h

theorem says_rejectIf {c : Prop} [Decidable c] {msg : Bytes} (h : P msg) : Says P (rejectIf c msg) := by
  unfold rejectIf
  split
  · exact says_reject h
  · exact says_pure ()

theorem says_take {n : Nat} {msg : Bytes} (h : P msg) : Says P (take n msg) := by
  intro frame off m hm
  unfold take at hm
  split at hm
  · cases hm; exact h
  · cases hm

theorem says_fetch (n : Nat) : Says P (fetch n) := by
  intro frame off m hm
  unfold fetch at hm
  split at hm <;> cases hm

theorem says_size : Says P size := by
  intro frame off m hm
  cases hm

theorem says_atEnd {msg : Bytes} (h : P msg) : Says P (atEnd msg) := by
  intro frame off m hm
  unfold atEnd at hm
  split at hm
  · cases hm; exact h
  · cases hm

theorem says_block {n : Nat} {msg : Bytes} (h : P msg) : Says P (block n msg) :=
  says_bind (says_take h) fun _ => says_fetch n

theorem says_word {n : Nat} {msg : Bytes} (h : P msg) : Says P (word n msg) :=
  says_bind (says_block h) fun _ => says_pure _

theorem says_prefixed {k max : Nat} {truncated exceeds : Bytes} (ht : P truncated) (he : P exceeds) :
    Says P (prefixed k max truncated exceeds) :=
  says_bind (says_word ht) fun _ => says_bind (says_rejectIf he) fun _ => says_block ht

theorem says_guarded {n : Nat} {msg : Bytes} {r : Reader α} (h : P msg) (hr : Says P r) : Says P (guarded n msg r) :=
  says_bind (says_take h) fun _ => hr

theorem says_many {r : Reader α} (hr : Says P r) (n : Nat) : Says P (many r n) := by
  induction n with
  | zero => exact says_pure _
  | succ n ih => exact says_bind hr fun _ => says_bind ih fun _ => says_pure _

theorem says_u8 : Says P u8 := says_bind (says_fetch 1) fun _ => says_pure _

theorem says_u16 : Says P u16 := says_bind (says_fetch 2) fun _ => says_pure _

theorem says_u32 : Says P u32 := says_bind (says_fetch 4) fun _ => says_pure _

theorem says_u64 : Says P u64 := says_bind (says_fetch 8) fun _ => says_pure _

theorem says_run {r : Reader α} (h : Says P r) (h0 : P []) {e : Stop} (he : run r frame = .error e) : P e.text := by
  unfold run at he
  split at he
  · cases he
  · rename_i e' h'
    cases he
    cases e with
    | reject msg => exact h _ _ _ h'
    | fault => exact h0

end Reader

end Overhauled.Wire
