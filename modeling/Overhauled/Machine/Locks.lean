/-
  Overhauled.Machine.Locks — threads that take and give back locks and join one another,
  and why they do not all come to wait.

  A thread is what it holds and the actions it has still to take. It can take the next one
  unless that is a lock somebody holds, or a join with a name whose threads have not all
  finished. A lock is not recursive: whoever holds it waits for itself.

  The discipline (`Ordered`): a lock is taken only above all locks held, in a fixed order of
  ranks; it is given back by its holder, and all are by the end; a join is made with no
  lock held, and with a name of a higher level. Threads that keep it exclude one another
  (`Sound.step`), somebody can always go on while anybody has to (`Sound.progress`), and
  every state can be run to its end (`Sound.finish`).

  A handler may run on a thread in the middle of what it does (`interrupt`). A block above
  all the thread holds keeps the discipline (`Sound.interrupt`); one that takes a lock the
  thread holds never comes to its end (`Doomed.exec`).

  `Block` and `Piece` are how the discipline is checked along the code: a block takes locks
  from a rank upwards and gives them all back, a piece is a block or a join between them.
-/

import Overhauled.Machine.Run
import Overhauled.Machine.Threads

namespace Overhauled.Machine

inductive Act (ι ν : Type) where
  | acquire (l : ι)
  | release (l : ι)
  | join (n : ν)
  | work
  deriving DecidableEq, Repr

structure Locker (ι ν : Type) where
  name : ν
  held : List ι := []
  todo : List (Act ι ν)
  deriving DecidableEq, Repr

variable {ι ν : Type} [DecidableEq ι]

/-- The thread can take its next action. -/
def Enabled (ts : List (Locker ι ν)) (t : Locker ι ν) : Prop :=
  match t.todo with
  | [] => False
  | .acquire l :: _ => ∀ u ∈ ts, l ∉ u.held
  | .join n :: _ => ∀ u ∈ ts, u.name = n → u.todo = []
  | .release _ :: _ => True
  | .work :: _ => True

instance [DecidableEq ν] (ts : List (Locker ι ν)) (t : Locker ι ν) : Decidable (Enabled ts t) :=
  match t with
  | ⟨_, _, []⟩ => inferInstanceAs (Decidable False)
  | ⟨_, _, .acquire l :: _⟩ => inferInstanceAs (Decidable (∀ u ∈ ts, l ∉ u.held))
  | ⟨_, _, .join n :: _⟩ => inferInstanceAs (Decidable (∀ u ∈ ts, u.name = n → u.todo = []))
  | ⟨_, _, .release _ :: _⟩ => inferInstanceAs (Decidable True)
  | ⟨_, _, .work :: _⟩ => inferInstanceAs (Decidable True)

def Locker.next (t : Locker ι ν) : Locker ι ν :=
  match t.todo with
  | [] => t
  | .acquire l :: rest => { t with held := l :: t.held, todo := rest }
  | .release l :: rest => { t with held := t.held.erase l, todo := rest }
  | .join _ :: rest => { t with todo := rest }
  | .work :: rest => { t with todo := rest }

def lockStep [DecidableEq ν] (ts : List (Locker ι ν)) (i : Nat) : List (Locker ι ν) :=
  match ts[i]? with
  | none => ts
  | some t => if Enabled ts t then ts.modify i fun _ => t.next else ts

/-- A handler that takes these actions runs on the `i`-th thread, unless that has finished. -/
def interrupt (ts : List (Locker ι ν)) (i : Nat) (acts : List (Act ι ν)) : List (Locker ι ν) :=
  match ts[i]? with
  | none => ts
  | some t => if t.todo.isEmpty then ts else ts.modify i fun _ => { t with todo := acts ++ t.todo }

/-! ## The discipline -/

section
variable (rank : ι → Nat) (level : ν → Nat)

def Ordered (self : ν) : List ι → List (Act ι ν) → Prop
  | held, [] => held = []
  | held, .acquire l :: rest => (∀ h ∈ held, rank h < rank l) ∧ Ordered self (l :: held) rest
  | held, .release l :: rest => l ∈ held ∧ Ordered self (held.erase l) rest
  | held, .join n :: rest => held = [] ∧ level self < level n ∧ Ordered self [] rest
  | held, .work :: rest => Ordered self held rest

structure Sound (ts : List (Locker ι ν)) : Prop where
  ordered : ∀ t ∈ ts, Ordered rank level t.name t.held t.todo
  exclusive : ts.Pairwise fun t u => ∀ l ∈ t.held, l ∉ u.held

/-- Takes locks of rank `r` and above, and gives them all back. -/
def Block (self : ν) (r : Nat) (acts : List (Act ι ν)) : Prop :=
  ∀ held rest, (∀ h ∈ held, rank h < r) → Ordered rank level self held rest → Ordered rank level self held (acts ++ rest)

/-- Begins and ends without a lock. -/
def Piece (self : ν) (acts : List (Act ι ν)) : Prop :=
  ∀ rest, Ordered rank level self [] rest → Ordered rank level self [] (acts ++ rest)

end

/-- `body` with `l` held. -/
def locked (l : ι) (body : List (Act ι ν)) : List (Act ι ν) := .acquire l :: (body ++ [.release l])

section
variable {rank : ι → Nat} {level : ν → Nat} {self : ν} {r r' : Nat} {acts acts' : List (Act ι ν)}

theorem Block.nil : Block rank level self r [] := fun _ _ _ hrest => hrest

theorem Block.append (h : Block rank level self r acts) (h' : Block rank level self r acts') :
    Block rank level self r (acts ++ acts') := by
  intro held rest hheld hrest
  rw [List.append_assoc]
  exact h held _ hheld (h' held rest hheld hrest)

theorem Block.mono (h : Block rank level self r acts) (hle : r' ≤ r) : Block rank level self r' acts :=
  fun held rest hheld hrest => h held rest (fun l hl => lt_of_lt_of_le (hheld l hl) hle) hrest

theorem Block.work : Block rank level self r [.work] := fun _ _ _ hrest => hrest

theorem Block.locked {l : ι} {body : List (Act ι ν)} (hl : r ≤ rank l) (h : Block rank level self (rank l + 1) body) :
    Block rank level self r (locked l body) := by
  intro held rest hheld hrest
  have hbelow : ∀ h ∈ held, rank h < rank l := fun h hh => lt_of_lt_of_le (hheld h hh) hl
  refine ⟨hbelow, ?_⟩
  show Ordered rank level self (l :: held) (body ++ [.release l] ++ rest)
  rw [List.append_assoc]
  refine h (l :: held) _ ?_ ⟨List.mem_cons_self, ?_⟩
  · intro h hh
    rcases List.mem_cons.mp hh with rfl | hh
    · exact Nat.lt_succ_self _
    · exact Nat.lt_succ_of_lt (hbelow h hh)
  · rw [List.erase_cons_head]
    exact hrest

theorem Block.flatMap {α : Type} {f : α → List (Act ι ν)} (l : List α) (h : ∀ a ∈ l, Block rank level self r (f a)) :
    Block rank level self r (l.flatMap f) := by
  induction l with
  | nil => exact .nil
  | cons a l ih =>
    rw [List.flatMap_cons]
    exact (h a List.mem_cons_self).append (ih fun b hb => h b (List.mem_cons_of_mem a hb))

theorem Block.piece (h : Block rank level self r acts) : Piece rank level self acts :=
  fun rest hrest => h [] rest (fun l hl => by cases hl) hrest

theorem Piece.append (h : Piece rank level self acts) (h' : Piece rank level self acts') :
    Piece rank level self (acts ++ acts') := by
  intro rest hrest
  rw [List.append_assoc]
  exact h _ (h' rest hrest)

theorem Piece.join {n : ν} (h : level self < level n) : Piece rank level self [.join n] := fun _ hrest => ⟨rfl, h, hrest⟩

theorem Piece.flatMap {α : Type} {f : α → List (Act ι ν)} (l : List α) (h : ∀ a ∈ l, Piece rank level self (f a)) :
    Piece rank level self (l.flatMap f) := by
  induction l with
  | nil => exact fun rest hrest => hrest
  | cons a l ih =>
    rw [List.flatMap_cons]
    exact (h a List.mem_cons_self).append (ih fun b hb => h b (List.mem_cons_of_mem a hb))

theorem Piece.ordered (h : Piece rank level self acts) : Ordered rank level self [] acts := by
  have hall := h [] rfl
  rw [List.append_nil] at hall
  exact hall

end

/-! ## Threads that keep it -/

section
variable {rank : ι → Nat} {level : ν → Nat} {ts : List (Locker ι ν)} {t : Locker ι ν} {i : Nat}

theorem Sound.spawn (h : Sound rank level ts) {n : ν} {acts : List (Act ι ν)} (hacts : Piece rank level n acts) :
    Sound rank level (ts ++ [{ name := n, todo := acts }]) where
  ordered := by
    intro u hu
    rcases List.mem_append.mp hu with hu | hu
    · exact h.ordered u hu
    · cases List.mem_singleton.mp hu
      exact hacts.ordered
  exclusive := by
    refine List.pairwise_append.mpr ⟨h.exclusive, List.pairwise_singleton _ _, ?_⟩
    intro u _ v hv l _ hl
    cases List.mem_singleton.mp hv
    cases hl

/-- What a thread holds after its next action: what it held, and a lock nobody does. -/
theorem mem_held_next {l : ι} (hen : Enabled ts t) (hl : l ∈ t.next.held) : l ∈ t.held ∨ ∀ u ∈ ts, l ∉ u.held := by
  unfold Locker.next at hl
  unfold Enabled at hen
  split at hl
  next => exact Or.inl hl
  next l' rest htodo =>
    rw [htodo] at hen
    rcases List.mem_cons.mp hl with rfl | hl
    · exact Or.inr hen
    · exact Or.inl hl
  next => exact Or.inl (List.mem_of_mem_erase hl)
  next => exact Or.inl hl
  next => exact Or.inl hl

theorem Ordered.next (h : Ordered rank level t.name t.held t.todo) :
    Ordered rank level t.next.name t.next.held t.next.todo := by
  unfold Locker.next
  split
  next => exact h
  next hacts =>
    rw [hacts] at h
    exact h.2
  next hacts =>
    rw [hacts] at h
    exact h.2
  next hacts =>
    rw [hacts] at h
    rw [show t.held = [] from h.1]
    exact h.2.2
  next hacts =>
    rw [hacts] at h
    exact h

theorem Sound.step [DecidableEq ν] (h : Sound rank level ts) (i : Nat) : Sound rank level (lockStep ts i) := by
  unfold lockStep
  split
  next => exact h
  next t ht =>
    split
    next hen =>
      refine ⟨?_, ?_⟩
      · exact forall_mem_modify h.ordered fun _ _ => (h.ordered t (List.mem_of_getElem? ht)).next
      · -- what the thread takes is held by nobody
        have hnew : ∀ u ∈ ts, ∀ l ∈ u.held, l ∉ t.held → l ∉ t.next.held := by
          intro u hu l hl hnot hnext
          rcases mem_held_next hen hnext with hold | hfree
          · exact hnot hold
          · exact hfree u hu hl
        refine pairwise_modify_const h.exclusive ht ?_ ?_
        · intro u hu hex l hnext hl
          exact hnew u hu l hl (fun hold => hex l hold hl) hnext
        · intro u hu hex l hl
          exact hnew u hu l hl (hex l hl)
    next => exact h

theorem Sound.interrupt (h : Sound rank level ts) {acts : List (Act ι ν)} {r : Nat}
    (hacts : ∀ n, Block rank level n r acts) (hbelow : ∀ t, ts[i]? = some t → ∀ l ∈ t.held, rank l < r) :
    Sound rank level (interrupt ts i acts) := by
  unfold Machine.interrupt
  split
  next => exact h
  next t ht =>
    split
    next => exact h
    next =>
      refine ⟨forall_mem_modify h.ordered fun _ _ => ?_, ?_⟩
      · exact hacts t.name t.held t.todo (hbelow t ht) (h.ordered t (List.mem_of_getElem? ht))
      · exact pairwise_modify_const h.exclusive ht (fun _ _ hex => hex) fun _ _ hex => hex

/-! ## Waiting for oneself -/

/-- Before anything but work, the thread takes a lock it holds. -/
def Doomed (l : ι) (t : Locker ι ν) : Prop :=
  l ∈ t.held ∧ ∃ n rest, t.todo = List.replicate n .work ++ .acquire l :: rest

theorem Doomed.step [DecidableEq ν] {l : ι} (h : ∃ t, ts[i]? = some t ∧ Doomed l t) (j : Nat) :
    ∃ t, (lockStep ts j)[i]? = some t ∧ Doomed l t := by
  obtain ⟨t, ht, hheld, n, rest, htodo⟩ := h
  unfold lockStep
  split
  next => exact ⟨t, ht, hheld, n, rest, htodo⟩
  next u hu =>
    split
    next hen =>
      by_cases hij : j = i
      · subst hij
        cases ht.symm.trans hu
        cases n with
        | zero =>
          have hwaits : ∀ u ∈ ts, l ∉ u.held := by simpa [Enabled, htodo] using hen
          exact absurd hheld (hwaits t (List.mem_of_getElem? ht))
        | succ n =>
          rw [List.replicate_succ, List.cons_append] at htodo
          have hnext : t.next = { t with todo := List.replicate n .work ++ .acquire l :: rest } := by
            simp only [Locker.next, htodo]
          refine ⟨_, modify_same _ ht, ?_⟩
          rw [hnext]
          exact ⟨hheld, n, rest, rfl⟩
      · exact ⟨t, (modify_other _ hij).trans ht, hheld, n, rest, htodo⟩
    next => exact ⟨t, ht, hheld, n, rest, htodo⟩

theorem Doomed.exec [DecidableEq ν] {l : ι} (h : ∃ t, ts[i]? = some t ∧ Doomed l t) (is : List Nat) :
    ∃ t ∈ exec lockStep ts is, t.todo ≠ [] := by
  have hend : ∃ t, (Machine.exec lockStep ts is)[i]? = some t ∧ Doomed l t :=
    exec_induct (I := fun ts : List (Locker ι ν) => ∃ t, ts[i]? = some t ∧ Doomed l t) h fun _ j _ hpre => Doomed.step hpre j
  obtain ⟨t, ht, -, n, rest, htodo⟩ := hend
  exact ⟨t, List.mem_of_getElem? ht, by simp [htodo]⟩

/-! ## Somebody can go on -/

/-- The rank of the lock a thread is about to take. -/
def Locker.wants (rank : ι → Nat) (t : Locker ι ν) : Nat :=
  match t.todo with
  | .acquire l :: _ => rank l + 1
  | _ => 0

/-- Whoever waits for a lock waits for a thread that wants a higher one, or can go on. -/
theorem Sound.blocked_lock (h : Sound rank level ts) (hen : ¬ Enabled ts t) (hwants : 0 < t.wants rank) :
    ∃ u ∈ ts, Enabled ts u ∨ t.wants rank < u.wants rank := by
  unfold Locker.wants at hwants
  split at hwants
  next l rest htodo =>
    unfold Enabled at hen
    rw [htodo] at hen
    push Not at hen
    obtain ⟨u, hu, hl⟩ := hen
    refine ⟨u, hu, ?_⟩
    have hord := h.ordered u hu
    -- a thread that holds a lock has not finished and is not at a join
    cases hacts : u.todo with
    | nil =>
      rw [hacts] at hord
      rw [show u.held = [] from hord] at hl
      cases hl
    | cons a rest' =>
      rw [hacts] at hord
      cases a with
      | acquire l' =>
        refine Or.inr ?_
        simp only [Locker.wants, htodo, hacts]
        exact Nat.succ_lt_succ (hord.1 l hl)
      | release l' => exact Or.inl (by simp only [Enabled, hacts])
      | join n =>
        rw [show u.held = [] from hord.1] at hl
        cases hl
      | work => exact Or.inl (by simp only [Enabled, hacts])
  next => exact absurd hwants (Nat.lt_irrefl 0)

/-- Whoever waits for no lock is at a join with a thread of a higher level, or can go on. -/
theorem Sound.blocked_join (h : Sound rank level ts) (ht : t ∈ ts) (hacts : t.todo ≠ []) (hen : ¬ Enabled ts t)
    (hwants : t.wants rank = 0) : ∃ u ∈ ts, u.todo ≠ [] ∧ level t.name < level u.name := by
  have hord := h.ordered t ht
  cases htodo : t.todo with
  | nil => exact absurd htodo hacts
  | cons a rest =>
    rw [htodo] at hord
    unfold Enabled at hen
    rw [htodo] at hen
    cases a with
    | acquire l => simp only [Locker.wants, htodo, Nat.add_one_ne_zero] at hwants
    | release l => exact absurd trivial hen
    | join n =>
      push Not at hen
      obtain ⟨u, hu, rfl, hunfinished⟩ := hen
      exact ⟨u, hu, hunfinished, hord.2.1⟩
    | work => exact absurd trivial hen

/-- Among the threads with a property there is one with the greatest number. -/
theorem exists_greatest {α : Type} (f : α → Nat) {l : List α} {p : α → Prop} (h : ∃ a ∈ l, p a) :
    ∃ a ∈ l, p a ∧ ∀ b ∈ l, p b → f b ≤ f a := by
  classical
  obtain ⟨a, ha, hp⟩ := h
  have hne : (l.filter fun b => p b) ≠ [] := List.ne_nil_of_mem (List.mem_filter.mpr ⟨ha, decide_eq_true hp⟩)
  obtain ⟨m, hm⟩ := Option.ne_none_iff_exists'.mp (mt (List.argmax_eq_none (f := f)).mp hne)
  obtain ⟨hml, hmp⟩ := List.mem_filter.mp (List.argmax_mem hm)
  refine ⟨m, hml, of_decide_eq_true hmp, ?_⟩
  intro b hb hpb
  exact List.le_of_mem_argmax (List.mem_filter.mpr ⟨hb, decide_eq_true hpb⟩) hm

theorem Sound.progress (h : Sound rank level ts) (hbusy : ∃ t ∈ ts, t.todo ≠ []) : ∃ t ∈ ts, Enabled ts t := by
  by_contra hstuck
  push Not at hstuck
  -- nobody waits for a lock: the one who wants the highest waits for one who wants a higher
  have hlocks : ∀ t ∈ ts, t.wants rank = 0 := by
    by_contra hsome
    push Not at hsome
    obtain ⟨t, ht, hwants, hmax⟩ := exists_greatest (Locker.wants rank) hsome
    obtain ⟨u, hu, hen | hlt⟩ := h.blocked_lock (hstuck t ht) (Nat.pos_of_ne_zero hwants)
    · exact hstuck u hu hen
    · exact absurd (hmax u hu (by omega)) (Nat.not_le.mpr hlt)
  -- so all are at joins, and the one of the highest level waits for one of a higher
  obtain ⟨t, ht, hacts, hmax⟩ := exists_greatest (fun t : Locker ι ν => level t.name) hbusy
  obtain ⟨u, hu, hacts', hlt⟩ := h.blocked_join ht hacts (hstuck t ht) (hlocks t ht)
  exact absurd (hmax u hu hacts') (Nat.not_le.mpr hlt)

/-! ## To the end -/

/-- How many actions are left. -/
def remaining (ts : List (Locker ι ν)) : Nat := (ts.map fun t => t.todo.length).sum

theorem length_next (hen : Enabled ts t) : t.next.todo.length + 1 = t.todo.length := by
  unfold Enabled at hen
  unfold Locker.next
  split
  next htodo =>
    rw [htodo] at hen
    exact hen.elim
  all_goals rename_i htodo; simp [htodo]

theorem remaining_step [DecidableEq ν] (ht : ts[i]? = some t) (hen : Enabled ts t) : remaining (lockStep ts i) + 1 = remaining ts := by
  have hstep : lockStep ts i = ts.modify i fun _ => t.next := by
    unfold lockStep
    rw [ht]
    exact if_pos hen
  have hperm := (flatMap_modify_perm (g := fun t : Locker ι ν => [t.todo.length]) (fun _ => t.next) ht).sum_eq
  have hlength := length_next hen
  simp only [← List.map_eq_flatMap, List.singleton_append, List.sum_cons] at hperm
  rw [hstep, remaining, remaining]
  omega

/-- Every state can be run until all threads have finished, without a lock in their hands. -/
theorem Sound.finish [DecidableEq ν] (h : Sound rank level ts) : ∃ is, ∀ t ∈ exec lockStep ts is, t.todo = [] ∧ t.held = [] := by
  induction hn : remaining ts generalizing ts with
  | zero =>
    refine ⟨[], ?_⟩
    intro t ht
    have hle : t.todo.length ≤ remaining ts := List.le_sum_of_mem (List.mem_map_of_mem ht)
    have hnil : t.todo = [] := List.length_eq_zero_iff.mp (by omega)
    have hord := h.ordered t ht
    rw [hnil] at hord
    exact ⟨hnil, hord⟩
  | succ n ih =>
    have hbusy : ∃ t ∈ ts, t.todo ≠ [] := by
      by_contra hdone
      push Not at hdone
      have hzero : remaining ts = 0 := by
        rw [remaining, List.sum_eq_zero]
        intro k hk
        obtain ⟨t, ht, rfl⟩ := List.mem_map.mp hk
        rw [hdone t ht]
        rfl
      omega
    obtain ⟨t, ht, hen⟩ := h.progress hbusy
    obtain ⟨i, hi⟩ := List.mem_iff_getElem?.mp ht
    have hless := remaining_step hi hen
    obtain ⟨is, hend⟩ := ih (h.step i) (by omega)
    exact ⟨i :: is, hend⟩

end

end Overhauled.Machine
