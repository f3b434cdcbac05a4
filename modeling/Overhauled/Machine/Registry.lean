/-
  Overhauled.Machine.Registry — names, and who uses them: a name is registered at a place,
  takes users until it is closed, and is removed once it has none.

  An entry does not store the phase it is in. `Entry.phase` says it, from whether the name
  is open, whether it has ever been used, and how many use it now; so closing is at once
  and for everybody, and the last user to leave has nothing to do.

  Proved: nobody uses a name that is not registered (`Held.step`), and what each operation
  does to the number of users of each name.
-/

import Mathlib

namespace Overhauled.Machine.Registry

structure Entry (S : Type) where
  /-- Which registration it is, over all names. -/
  number : Nat
  place : S
  opened : Bool := true
  used : Bool := false

inductive Phase where
  | fresh
  | inUse
  | closing
  | closed
  deriving DecidableEq, Repr

def Entry.phase {S : Type} (e : Entry S) (users : Nat) : Phase :=
  if e.opened then
    if e.used then .inUse else .fresh
  else if users = 0 then .closed
  else .closing

end Registry

open Registry

structure Registry (N S : Type) where
  entries : N → Option (Entry S) := fun _ => none
  /-- The names in use, once for each user. -/
  users : List N := []
  /-- How many registrations there were. -/
  registered : Nat := 0

namespace Registry

inductive Op (N S : Type) where
  | register (name : N) (place : S)
  | close (name : N)
  | remove (name : N)
  | enter (name : N)
  /-- The `i`-th user leaves. -/
  | leave (i : Nat)

variable {N S : Type} [DecidableEq N] {r : Registry N S} {name : N}

def step (r : Registry N S) : Op N S → Registry N S
  | .register name place =>
    match r.entries name with
    | some _ => r
    | none =>
      { r with
        entries := Function.update r.entries name (some { number := r.registered + 1, place })
        registered := r.registered + 1 }
  | .close name =>
    { r with entries := Function.update r.entries name ((r.entries name).map fun e => { e with opened := false }) }
  | .remove name => if r.users.count name = 0 then { r with entries := Function.update r.entries name none } else r
  | .enter name =>
    match r.entries name with
    | none => r
    | some e =>
      if e.opened then
        { r with entries := Function.update r.entries name (some { e with used := true }), users := r.users ++ [name] }
      else r
  | .leave i => { r with users := r.users.eraseIdx i }

/-! ## The users of a name -/

theorem count_enter (users : List N) {name other : N} (h : other ≠ name) :
    (users ++ [name]).count other = users.count other := by
  rw [List.count_append, List.count_singleton, if_neg (by simpa using h.symm), Nat.add_zero]

theorem count_enter_self (users : List N) (name : N) : (users ++ [name]).count name = users.count name + 1 := by
  rw [List.count_append, List.count_singleton_self]

omit [DecidableEq N] in
theorem perm_leave {users : List N} {i : Nat} (h : users[i]? = some name) : users.Perm (name :: users.eraseIdx i) := by
  obtain ⟨hi, rfl⟩ := List.getElem?_eq_some_iff.mp h
  exact (List.getElem_cons_eraseIdx_perm hi).symm

theorem count_leave {users : List N} {i : Nat} (h : users[i]? = some name) {other : N} (hne : other ≠ name) :
    (users.eraseIdx i).count other = users.count other := by
  rw [(perm_leave h).count_eq, List.count_cons_of_ne hne.symm]

theorem count_leave_self {users : List N} {i : Nat} (h : users[i]? = some name) :
    (users.eraseIdx i).count name + 1 = users.count name := by
  rw [(perm_leave h).count_eq, List.count_cons_self]

/-! ## Nobody uses what is not registered -/

def Held (r : Registry N S) : Prop := ∀ name ∈ r.users, (r.entries name).isSome = true

theorem Held.count_eq_zero (h : r.Held) (hnone : r.entries name = none) : r.users.count name = 0 := by
  rw [List.count_eq_zero]
  intro hmem
  have := h name hmem
  rw [hnone] at this
  cases this

/-- A name's entry is put in place of another, or taken away where nobody uses it. -/
theorem Held.update (h : r.Held) {e : Option (Entry S)} {users : List N}
    (husers : ∀ other ∈ users, other ≠ name → other ∈ r.users) (he : name ∈ users → e.isSome = true) :
    Held { r with entries := Function.update r.entries name e, users := users } := by
  intro other hother
  by_cases heq : other = name
  · subst heq
    simpa using he hother
  · simpa [Function.update_of_ne heq] using h other (husers other hother heq)

theorem Held.step (h : r.Held) (o : Op N S) : (r.step o).Held := by
  cases o with
  | register name place =>
    simp only [Registry.step]
    split
    · exact h
    · exact h.update (fun _ hmem _ => hmem) fun _ => rfl
  | close name =>
    refine h.update (fun _ hmem _ => hmem) fun hmem => ?_
    rw [Option.isSome_map]
    exact h name hmem
  | remove name =>
    simp only [Registry.step]
    split
    · rename_i hzero
      exact h.update (fun _ hmem _ => hmem) fun hmem => absurd hmem (List.count_eq_zero.mp hzero)
    · exact h
  | enter name =>
    simp only [Registry.step]
    split
    · exact h
    split
    · refine h.update (fun other hmem hne => ?_) fun _ => rfl
      exact (List.mem_append.mp hmem).resolve_right fun hlast => hne (List.mem_singleton.mp hlast)
    · exact h
  | leave i =>
    intro name hmem
    exact h name (List.mem_of_mem_eraseIdx hmem)

end Registry

end Overhauled.Machine
