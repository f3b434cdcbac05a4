/-
  Overhauled.Wire.Access — what a reader does to the frame on its way.

  `Reader` says what a decoder answers, not which bytes it looked at to find out: that
  is a matter of the text of the program. `Code r` is the text of the reader `r`, its
  sequencing, branches and primitives, and `Code.accesses` lists what a run of it on a
  frame does: the bytes it reads, and the sums and differences of sizes and offsets it
  computes. `Access.InRange` is what an access must satisfy on a frame of a given size.
  Where the source keeps a pointer in place of a copy, the text steps over the bytes without
  a look (`Code.skip`), and what is read through the pointer later is listed there
  (`Code.via`).

  `Moves` and `Bounded` are texts that carry the proof. Both ask for `k` bytes from the
  offset on; a text that moves steps over exactly `n` of them, a bounded one stops
  somewhere before the frame's end. They compose like the readers do: a `take`
  of `k` bytes hands the rest of the text its `k` (`Bounded.guard`), and every step
  over `n` bytes leaves `k - n` (`Bounded.step`).
-/

import Overhauled.Wire.Reader

namespace Overhauled.Wire

inductive Access where
  /-- The `n` bytes of the frame from `pos` on. -/
  | read (pos n : Nat)
  | add (x y : Nat)
  | sub (x y : Nat)
  /-- A loop bound that the source does not have ran out. -/
  | stuck
  deriving DecidableEq, Repr

/-- An index is below the frame's size; a sum stays within it, and so within the type of
    sizes; a difference does not go below zero. -/
def Access.InRange (size : Nat) : Access → Prop
  | .read pos n => ∀ i, pos ≤ i → i < pos + n → i < size
  | .add x y => x + y ≤ size
  | .sub x y => y ≤ x
  | .stuck => False

theorem Access.inRange_read_iff {pos n size : Nat} : (Access.read pos n).InRange size ↔ n = 0 ∨ pos + n ≤ size := by
  refine ⟨?_, ?_⟩
  · intro h
    by_cases hn : n = 0
    · exact Or.inl hn
    · have := h (pos + n - 1) (by omega) (by omega)
      omega
  · intro h i hpos hi
    omega

/-- An access to the bytes from `p` on, as one to the frame they are part of. -/
def Access.shift (p : Nat) : Access → Access
  | .read pos n => .read (p + pos) n
  | .add x y => .add (p + x) y
  | .sub x y => .sub x y
  | .stuck => .stuck

theorem Access.InRange.shift {a : Access} {n p size : Nat} (h : a.InRange n) (hp : p + n ≤ size) :
    (a.shift p).InRange size := by
  cases a with
  | read pos k =>
    rw [inRange_read_iff] at h
    rw [Access.shift, inRange_read_iff]
    omega
  | add x y =>
    have hsum : x + y ≤ n := h
    show p + x + y ≤ size
    omega
  | sub x y => exact h
  | stuck => exact h

open Reader

inductive Code : {α : Type} → Reader α → Type 1
  | pure {α : Type} (a : α) : Code (pure a : Reader α)
  | bind {α β : Type} {r : Reader α} {f : α → Reader β} (c : Code r) (k : ∀ a, Code (f a)) : Code (r >>= f)
  | ite {α : Type} {p : Prop} [Decidable p] {r s : Reader α} (c : Code r) (d : Code s) : Code (if p then r else s)
  | reject {α : Type} (msg : Bytes) : Code (reject msg : Reader α)
  | check {p : Prop} [Decidable p] {msg : Bytes} : Code (rejectIf p msg)
  /-- A check whose condition takes `y` off the frame's size. -/
  | checkRest {p : Prop} [Decidable p] {msg : Bytes} (y : Nat) : Code (rejectIf p msg)
  | take (n : Nat) (msg : Bytes) : Code (take n msg)
  | fetch (n : Nat) : Code (fetch n)
  /-- The bytes are stepped over, and a pointer to them is kept. -/
  | skip (n : Nat) : Code (fetch n)
  | peek (pos n : Nat) : Code (peek pos n)
  | size : Code size
  | remaining : Code remaining
  | seek (pos : Nat) : Code (seek pos)
  | atEnd (msg : Bytes) : Code (atEnd msg)
  | outOfFuel {α : Type} : Code (outOfFuel : Reader α)
  /-- Accesses through pointers, before the text goes on. -/
  | via {α : Type} {r : Reader α} (touched : List Access) (c : Code r) : Code r

namespace Code

variable {α β : Type}

/-- What the text does on `frame`, from the offset `off` on, until it answers or stops. -/
def accesses : {α : Type} → {r : Reader α} → Code r → Bytes → Nat → List Access
  | _, _, .pure _, _, _ => []
  | _, _, .bind (r := r) c k, frame, off =>
    c.accesses frame off ++
      match r frame off with
      | .ok (a, o) => (k a).accesses frame o
      | .error _ => []
  | _, _, @Code.ite _ p _ _ _ c d, frame, off => if p then c.accesses frame off else d.accesses frame off
  | _, _, .reject _, _, _ => []
  | _, _, @Code.check _ _ _, _, _ => []
  | _, _, @Code.checkRest _ _ _ y, frame, _ => [.sub frame.length y]
  -- `*offset > size || need > size - *offset`: the difference is behind the comparison.
  | _, _, .take _ _, frame, off => if off > frame.length then [] else [.sub frame.length off]
  | _, _, .fetch n, _, off => [.read off n, .add off n]
  | _, _, .skip n, _, off => [.add off n]
  | _, _, .peek pos n, _, _ => [.read pos n, .add pos n]
  | _, _, .size, _, _ => []
  | _, _, .remaining, frame, off => [.sub frame.length off]
  | _, _, .seek _, _, _ => []
  | _, _, .atEnd _, _, _ => []
  | _, _, .outOfFuel, _, _ => [.stuck]
  | _, _, .via touched c, frame, off => touched ++ c.accesses frame off

/-- A lookup decides what `r` is. -/
def option {r s : Reader α} {t : β → Reader α} : (o : Option β) → (o = none → r = s) → (∀ b, o = some b → r = t b) →
    Code s → (∀ b, Code (t b)) → Code r
  | none, hnone, _, c, _ => hnone rfl ▸ c
  | some b, _, hsome, _, cs => hsome b rfl ▸ cs b

/-- Every access of the run is in range. -/
def Safe {r : Reader α} (c : Code r) (frame : Bytes) (off : Nat) : Prop :=
  ∀ a ∈ c.accesses frame off, a.InRange frame.length

theorem safe_bind {r : Reader α} {f : α → Reader β} {c : Code r} {k : ∀ a, Code (f a)} {frame : Bytes} {off : Nat}
    (hc : c.Safe frame off) (hk : ∀ a o, r frame off = .ok (a, o) → (k a).Safe frame o) : (bind c k).Safe frame off := by
  intro acc hacc
  rw [accesses, List.mem_append] at hacc
  rcases hacc with hacc | hacc
  · exact hc acc hacc
  · split at hacc
    · rename_i a o hr
      exact hk a o hr acc hacc
    · cases hacc

theorem safe_fetch {n : Nat} {frame : Bytes} {off : Nat} (h : off + n ≤ frame.length) : (fetch n).Safe frame off := by
  intro acc hacc
  rcases List.mem_pair.mp hacc with rfl | rfl
  · intro i _ hi
    omega
  · exact h

theorem safe_skip {n : Nat} {frame : Bytes} {off : Nat} (h : off + n ≤ frame.length) : (skip n).Safe frame off := by
  intro acc hacc
  cases List.mem_singleton.mp hacc
  exact h

theorem safe_peek {pos n : Nat} {frame : Bytes} {off : Nat} (h : pos + n ≤ frame.length) :
    (peek pos n).Safe frame off := by
  intro acc hacc
  rcases List.mem_pair.mp hacc with rfl | rfl
  · intro i _ hi
    omega
  · exact h

theorem safe_take {n : Nat} {msg : Bytes} {frame : Bytes} {off : Nat} : (take n msg).Safe frame off := by
  intro acc hacc
  rw [accesses] at hacc
  split at hacc
  · cases hacc
  · rename_i hle
    cases List.mem_singleton.mp hacc
    exact Nat.le_of_not_gt hle

theorem safe_remaining {frame : Bytes} {off : Nat} (h : off ≤ frame.length) : remaining.Safe frame off := by
  intro acc hacc
  cases List.mem_singleton.mp hacc
  exact h

theorem safe_checkRest {p : Prop} [Decidable p] {msg : Bytes} {y : Nat} {frame : Bytes} {off : Nat}
    (h : y ≤ frame.length) : (checkRest y : Code (rejectIf p msg)).Safe frame off := by
  intro acc hacc
  cases List.mem_singleton.mp hacc
  exact h

theorem safe_ite {p : Prop} [Decidable p] {r s : Reader α} {c : Code r} {d : Code s} {frame : Bytes} {off : Nat}
    (hc : p → c.Safe frame off) (hd : ¬ p → d.Safe frame off) : (ite c d : Code (if p then r else s)).Safe frame off := by
  intro acc hacc
  rw [accesses] at hacc
  split at hacc
  · rename_i hp
    exact hc hp acc hacc
  · rename_i hp
    exact hd hp acc hacc

theorem safe_via {r : Reader α} {touched : List Access} {c : Code r} {frame : Bytes} {off : Nat}
    (ht : ∀ a ∈ touched, a.InRange frame.length) (hc : c.Safe frame off) : (via touched c).Safe frame off := by
  intro acc hacc
  rw [accesses, List.mem_append] at hacc
  exact hacc.elim (ht acc) (hc acc)

/-- A single read through a pointer. -/
theorem safe_via_read {r : Reader α} {pos n : Nat} {c : Code r} {frame : Bytes} {off : Nat} (hn : pos + n ≤ frame.length)
    (hc : c.Safe frame off) : (via [.read pos n] c).Safe frame off := by
  refine safe_via ?_ hc
  intro a ha
  rw [List.mem_singleton.mp ha]
  exact Access.inRange_read_iff.mpr (Or.inr hn)

theorem safe_option {r s : Reader α} {t : β → Reader α} {o : Option β} {hnone : o = none → r = s}
    {hsome : ∀ b, o = some b → r = t b} {c : Code s} {cs : ∀ b, Code (t b)} {frame : Bytes} {off : Nat}
    (hc : o = none → c.Safe frame off) (hcs : ∀ b, o = some b → (cs b).Safe frame off) :
    (option o hnone hsome c cs).Safe frame off := by
  cases o with
  | none =>
    cases hnone rfl
    exact hc rfl
  | some b =>
    cases hsome b rfl
    exact hcs b rfl

theorem safe_of_nil {r : Reader α} {c : Code r} {frame : Bytes} {off : Nat} (h : c.accesses frame off = []) :
    c.Safe frame off := by
  intro acc hacc
  rw [h] at hacc
  cases hacc

/-- A run in range ends: in an answer or in a rejection, never in a fault. -/
theorem Safe.not_fault {r : Reader α} {c : Code r} {frame : Bytes} {off : Nat} (h : c.Safe frame off) :
    r frame off ≠ .error .fault := by
  intro hfault
  induction c generalizing off with
  | pure a => cases hfault
  | @bind α β r f c k ihc ihk =>
    change Reader.bind r f frame off = _ at hfault
    unfold Reader.bind at hfault
    split at hfault
    · rename_i a o hr
      refine ihk a (fun acc hacc => h acc ?_) hfault
      rw [accesses, hr]
      exact List.mem_append_right _ hacc
    · rename_i e he
      cases hfault
      exact ihc (fun acc hacc => h acc (by rw [accesses]; exact List.mem_append_left _ hacc)) he
  | @ite α p _ r s c d ihc ihd =>
    by_cases hp : p
    · rw [if_pos hp] at hfault
      exact ihc (fun acc hacc => h acc (by rw [accesses, if_pos hp]; exact hacc)) hfault
    · rw [if_neg hp] at hfault
      exact ihd (fun acc hacc => h acc (by rw [accesses, if_neg hp]; exact hacc)) hfault
  | reject msg => cases hfault
  | check => unfold rejectIf at hfault; split at hfault <;> cases hfault
  | checkRest y => unfold rejectIf at hfault; split at hfault <;> cases hfault
  | take n msg => unfold Reader.take at hfault; split at hfault <;> cases hfault
  | fetch n =>
    have hle : off + n ≤ frame.length := h (.add off n) (List.mem_cons_of_mem _ List.mem_cons_self)
    rw [Reader.fetch, if_pos hle] at hfault
    cases hfault
  | skip n =>
    have hle : off + n ≤ frame.length := h (.add off n) List.mem_cons_self
    rw [Reader.fetch, if_pos hle] at hfault
    cases hfault
  | peek pos n =>
    have hle : pos + n ≤ frame.length := h (.add pos n) (List.mem_cons_of_mem _ List.mem_cons_self)
    rw [Reader.peek, if_pos hle] at hfault
    cases hfault
  | size => cases hfault
  | remaining => cases hfault
  | seek pos => cases hfault
  | atEnd msg => unfold Reader.atEnd at hfault; split at hfault <;> cases hfault
  | outOfFuel => exact h .stuck List.mem_cons_self
  | via touched c ih =>
    exact ih (fun acc hacc => h acc (by rw [accesses]; exact List.mem_append_right _ hacc)) hfault

theorem Safe.run_ne_fault {r : Reader α} {c : Code r} {frame : Bytes} (h : c.Safe frame 0) :
    r.run frame ≠ .error .fault := by
  intro hrun
  unfold run at hrun
  split at hrun
  · cases hrun
  · rename_i e he
    cases hrun
    exact h.not_fault he

end Code

/-! ## Texts that step over a fixed number of bytes -/

/-- Given `k` bytes, the accesses of `r` are in range and it steps over `n` of them. -/
structure Moves {α : Type} (k n : Nat) (r : Reader α) : Type 1 where
  code : Code r
  le : n ≤ k
  safe : ∀ frame off, off + k ≤ frame.length → code.Safe frame off
  next : ∀ frame off a o, r frame off = .ok (a, o) → o = off + n

namespace Moves

variable {α β : Type} {k n : Nat}

def pure (a : α) : Moves k 0 (pure a : Reader α) where
  code := .pure a
  le := Nat.zero_le k
  safe _ _ _ := Code.safe_of_nil rfl
  next _ _ _ _ h := (pure_ok.mp h).2

def reject (msg : Bytes) : Moves k 0 (reject msg : Reader α) where
  code := .reject msg
  le := Nat.zero_le k
  safe _ _ _ := Code.safe_of_nil rfl
  next _ _ _ _ h := (reject_ok.mp h).elim

def check {p : Prop} [Decidable p] {msg : Bytes} : Moves k 0 (rejectIf p msg) where
  code := .check
  le := Nat.zero_le k
  safe _ _ _ := Code.safe_of_nil rfl
  next _ _ _ _ h := (rejectIf_ok.mp h).2

def checkRest {p : Prop} [Decidable p] {msg : Bytes} (y : Nat) (hy : y ≤ k) : Moves k 0 (rejectIf p msg) where
  code := .checkRest y
  le := Nat.zero_le k
  safe _ _ h := Code.safe_checkRest (by omega)
  next _ _ _ _ h := (rejectIf_ok.mp h).2

def size : Moves k 0 size where
  code := .size
  le := Nat.zero_le k
  safe _ _ _ := Code.safe_of_nil rfl
  next _ _ _ _ h := (size_ok.mp h).2

def take (m : Nat) (msg : Bytes) : Moves k 0 (take m msg) where
  code := .take m msg
  le := Nat.zero_le k
  safe _ _ _ := Code.safe_take
  next _ _ _ _ h := (take_ok.mp h).2

def atEnd (msg : Bytes) : Moves k 0 (atEnd msg) where
  code := .atEnd msg
  le := Nat.zero_le k
  safe _ _ _ := Code.safe_of_nil rfl
  next _ _ _ _ h := (atEnd_ok.mp h).2

def peek (pos m : Nat) (hm : pos + m ≤ k) : Moves k 0 (peek pos m) where
  code := .peek pos m
  le := Nat.zero_le k
  safe _ _ h := Code.safe_peek (by omega)
  next _ _ _ _ h := (peek_ok.mp h).2.2

def fetch (n : Nat) (hn : n ≤ k) : Moves k n (fetch n) where
  code := .fetch n
  le := hn
  safe _ _ h := Code.safe_fetch (by omega)
  next _ _ _ _ h := by
    obtain ⟨hlen, hat⟩ := fetch_ok.mp h
    rw [hat.1, hlen]

def skip (n : Nat) (hn : n ≤ k) : Moves k n (Reader.fetch n) where
  code := .skip n
  le := hn
  safe _ _ h := Code.safe_skip (by omega)
  next _ _ _ _ h := by
    obtain ⟨hlen, hat⟩ := fetch_ok.mp h
    rw [hat.1, hlen]

/-- A step over `n` bytes, and then a text that stands still. -/
def still {r : Reader α} {f : α → Reader β} (m : Moves k n r) (ms : ∀ a, Moves (k - n) 0 (f a)) :
    Moves k n (r >>= f) where
  code := .bind m.code fun a => (ms a).code
  le := m.le
  safe frame off h := by
    refine Code.safe_bind (m.safe frame off h) fun a o ho => (ms a).safe frame o ?_
    have := m.next _ _ _ _ ho
    have := m.le
    omega
  next frame off b o h := by
    obtain ⟨a, mid, h1, h2⟩ := bind_ok.mp h
    rw [(ms a).next _ _ _ _ h2, m.next _ _ _ _ h1]
    rfl

/-- A check for room stands in front of the step. -/
def guarded {j : Nat} {msg : Bytes} {r : Reader α} (m : Moves k n r) : Moves k n (guarded j msg r) where
  code := .bind (.take j msg) fun _ => m.code
  le := m.le
  safe frame off h := by
    refine Code.safe_bind Code.safe_take fun a o ho => m.safe frame o ?_
    rw [(take_ok.mp ho).2]
    exact h
  next frame off b o h := by
    obtain ⟨_, mid, h1, h2⟩ := bind_ok.mp h
    rw [m.next _ _ _ _ h2, (take_ok.mp h1).2]

def rejectSome : (m : Option Bytes) → Moves k 0 (rejectSome m)
  | none => pure ()
  | some msg => reject msg

def peekWord (pos m : Nat) (hm : pos + m ≤ k) : Moves k 0 (peekWord pos m) := (peek pos m hm).still fun _ => pure _

def u8 (h : 1 ≤ k) : Moves k 1 u8 := (fetch 1 h).still fun _ => pure _

def u16 (h : 2 ≤ k) : Moves k 2 u16 := (fetch 2 h).still fun _ => pure _

def u32 (h : 4 ≤ k) : Moves k 4 u32 := (fetch 4 h).still fun _ => pure _

def u64 (h : 8 ≤ k) : Moves k 8 u64 := (fetch 8 h).still fun _ => pure _

end Moves

/-! ## Texts that stay within the frame -/

/-- Given `k` bytes, the accesses of `r` are in range and it stops within the frame. -/
structure Bounded {α : Type} (k : Nat) (r : Reader α) : Type 1 where
  code : Code r
  safe : ∀ frame off, off + k ≤ frame.length → code.Safe frame off
  next : ∀ frame off a o, off + k ≤ frame.length → r frame off = .ok (a, o) → off ≤ o ∧ o ≤ frame.length

namespace Bounded

variable {α β : Type} {k n : Nat}

def last {r : Reader α} (m : Moves k n r) : Bounded k r where
  code := m.code
  safe := m.safe
  next frame off a o h ho := by
    have := m.next _ _ _ _ ho
    have := m.le
    omega

def step {r : Reader α} {f : α → Reader β} (m : Moves k n r) (b : ∀ a, Bounded (k - n) (f a)) :
    Bounded k (r >>= f) where
  code := .bind m.code fun a => (b a).code
  safe frame off h := by
    refine Code.safe_bind (m.safe frame off h) fun a o ho => (b a).safe frame o ?_
    have := m.next _ _ _ _ ho
    have := m.le
    omega
  next frame off c o h ho := by
    obtain ⟨a, mid, h1, h2⟩ := bind_ok.mp ho
    have hmid := m.next _ _ _ _ h1
    have hle := m.le
    have hnext := (b a).next _ _ _ _ (by omega) h2
    omega

def ite {p : Prop} [Decidable p] {r s : Reader α} (b : Bounded k r) (c : Bounded k s) : Bounded k (if p then r else s) where
  code := .ite b.code c.code
  safe frame off h := Code.safe_ite (fun _ => b.safe frame off h) fun _ => c.safe frame off h
  next frame off a o h ho := by
    split at ho
    · exact b.next _ _ _ _ h ho
    · exact c.next _ _ _ _ h ho

/-- One text after the other, the second with its own checks. -/
def seq {r : Reader α} {f : α → Reader β} (b : Bounded k r) (bs : ∀ a, Bounded 0 (f a)) : Bounded k (r >>= f) where
  code := .bind b.code fun a => (bs a).code
  safe frame off h :=
    Code.safe_bind (b.safe frame off h) fun a o ho => (bs a).safe frame o (b.next _ _ _ _ h ho).2
  next frame off c o h ho := by
    obtain ⟨a, mid, h1, h2⟩ := bind_ok.mp ho
    have hmid := b.next _ _ _ _ h h1
    have hnext := (bs a).next _ _ _ _ hmid.2 h2
    omega

/-- After `take j` the rest of the text has `j` bytes. -/
def guard {j : Nat} {msg : Bytes} {r : Reader α} (b : Bounded j r) : Bounded k (guarded j msg r) where
  code := .bind (.take j msg) fun _ => b.code
  safe frame off h := by
    refine Code.safe_bind Code.safe_take fun a o ho => b.safe frame o ?_
    obtain ⟨hroom, rfl⟩ := take_ok.mp ho
    exact hroom
  next frame off c o h ho := by
    obtain ⟨_, mid, h1, h2⟩ := bind_ok.mp ho
    obtain ⟨hroom, rfl⟩ := take_ok.mp h1
    exact b.next _ _ _ _ hroom h2

/-- And so after a check of how many bytes are left. -/
def room {j : Nat} {c : Nat → Prop} [DecidablePred c] {msg : Bytes} {r : Nat → Reader α} (hc : ∀ left, ¬ c left → j ≤ left)
    (b : ∀ left, Bounded j (r left)) : Bounded k (do let left ← remaining; rejectIf (c left) msg; r left) where
  code := .bind .remaining fun left => .bind .check fun _ => (b left).code
  safe frame off h := by
    refine Code.safe_bind (Code.safe_remaining (by omega)) fun left o ho => ?_
    obtain ⟨rfl, rfl⟩ := remaining_ok.mp ho
    refine Code.safe_bind (Code.safe_of_nil rfl) fun _ o' ho' => ?_
    obtain ⟨hleft, rfl⟩ := rejectIf_ok.mp ho'
    have := hc _ hleft
    exact (b _).safe frame _ (by omega)
  next frame off x o h ho := by
    obtain ⟨left, mid, h1, h2⟩ := bind_ok.mp ho
    obtain ⟨_, mid', h3, h4⟩ := bind_ok.mp h2
    obtain ⟨rfl, rfl⟩ := remaining_ok.mp h1
    obtain ⟨hleft, rfl⟩ := rejectIf_ok.mp h3
    have := hc _ hleft
    exact (b _).next _ _ _ _ (by omega) h4

/-- The same with a branch in the place of the rejection. -/
def roomElse {j : Nat} {c : Nat → Prop} [DecidablePred c] {r s : Nat → Reader α} (hc : ∀ left, ¬ c left → j ≤ left)
    (b : ∀ left, Bounded 0 (r left)) (d : ∀ left, Bounded j (s left)) :
    Bounded k (do let left ← remaining; if c left then r left else s left) where
  code := .bind .remaining fun left => .ite (b left).code (d left).code
  safe frame off h := by
    refine Code.safe_bind (Code.safe_remaining (by omega)) fun left o ho => ?_
    obtain ⟨rfl, rfl⟩ := remaining_ok.mp ho
    refine Code.safe_ite (fun _ => (b _).safe frame _ (by omega)) fun hleft => (d _).safe frame _ ?_
    have := hc _ hleft
    omega
  next frame off x o h ho := by
    obtain ⟨left, mid, h1, h2⟩ := bind_ok.mp ho
    obtain ⟨rfl, rfl⟩ := remaining_ok.mp h1
    split at h2
    · exact (b _).next _ _ _ _ (by omega) h2
    · rename_i hleft
      have := hc _ hleft
      exact (d _).next _ _ _ _ (by omega) h2

def block (n : Nat) (msg : Bytes) : Bounded k (block n msg) := guard (last (.fetch n (Nat.le_refl n)))

def word (n : Nat) (msg : Bytes) : Bounded k (word n msg) := seq (block n msg) fun _ => last (.pure _)

def prefixed {j max : Nat} {truncated exceeds : Bytes} : Bounded k (prefixed j max truncated exceeds) :=
  seq (word j truncated) fun _ => step .check fun _ => block _ _

def many {r : Reader α} (b : Bounded 0 r) : (n : Nat) → Bounded 0 (many r n)
  | 0 => last (.pure _)
  | n + 1 => seq b fun _ => seq (many b n) fun _ => last (.pure _)

theorem in_range {r : Reader α} (b : Bounded 0 r) (frame : Bytes) : b.code.Safe frame 0 ∧ r.run frame ≠ .error .fault :=
  have hsafe := b.safe frame 0 (Nat.zero_le _)
  ⟨hsafe, hsafe.run_ne_fault⟩

end Bounded

/-! ## Texts for whole frames -/

/-- From the frame's first byte on, whatever the frame, the accesses of `r` are in range. -/
structure Whole {α : Type} (r : Reader α) : Type 1 where
  code : Code r
  safe : ∀ frame, code.Safe frame 0

namespace Whole

variable {α : Type} {k : Nat}

/-- A check of the frame's size gives the rest of the text its `k` bytes. -/
def sized {c : Nat → Prop} [DecidablePred c] {msg : Bytes} {r : Nat → Reader α} (hc : ∀ n, ¬ c n → k ≤ n)
    (b : ∀ n, Bounded k (r n)) : Whole (do let n ← size; rejectIf (c n) msg; r n) where
  code := .bind .size fun n => .bind .check fun _ => (b n).code
  safe frame := by
    refine Code.safe_bind (Code.safe_of_nil rfl) fun n o ho => ?_
    obtain ⟨rfl, rfl⟩ := size_ok.mp ho
    refine Code.safe_bind (Code.safe_of_nil rfl) fun _ o' ho' => ?_
    obtain ⟨hn, rfl⟩ := rejectIf_ok.mp ho'
    exact (b _).safe frame _ (by have := hc _ hn; omega)

end Whole

end Overhauled.Wire
