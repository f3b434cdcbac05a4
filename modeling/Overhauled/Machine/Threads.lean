/-
  Overhauled.Machine.Threads — a list of threads, each at its place for good, of which
  one moves at a time (`List.modify`).
-/

import Mathlib

namespace Overhauled.Machine

variable {α β : Type} {l : List α} {f : α → α} {i j : Nat}

theorem modify_get {b : α} (h : (l.modify i f)[j]? = some b) :
    (∃ a, i = j ∧ l[j]? = some a ∧ b = f a) ∨ i ≠ j ∧ l[j]? = some b := by
  rw [List.getElem?_modify] at h
  obtain ⟨a, ha, hb⟩ := Option.map_eq_some_iff.mp h
  by_cases hij : i = j
  · rw [if_pos hij] at hb
    exact Or.inl ⟨a, hij, ha, hb.symm⟩
  · rw [if_neg hij] at hb
    exact Or.inr ⟨hij, hb ▸ ha⟩

theorem modify_same (f : α → α) {a : α} (h : l[i]? = some a) : (l.modify i f)[i]? = some (f a) := by
  rw [List.getElem?_modify, h]
  simp

theorem modify_other (f : α → α) (h : i ≠ j) : (l.modify i f)[j]? = l[j]? := by
  rw [List.getElem?_modify]
  cases l[j]? <;> simp [h]

theorem concat_get {a b : α} (h : (l ++ [a])[i]? = some b) : l[i]? = some b ∨ b = a := by
  by_cases hi : i < l.length
  · rw [List.getElem?_append_left hi] at h
    exact Or.inl h
  · rw [List.getElem?_append_right (Nat.le_of_not_lt hi)] at h
    exact Or.inr (List.mem_singleton.mp (List.mem_of_getElem? h))

theorem mem_modify {b : α} (h : b ∈ l.modify i f) : b ∈ l ∨ ∃ a, l[i]? = some a ∧ b = f a := by
  obtain ⟨j, hj⟩ := List.mem_iff_getElem?.mp h
  rcases modify_get hj with ⟨a, rfl, ha, hb⟩ | ⟨-, hb⟩
  · exact Or.inr ⟨a, ha, hb⟩
  · exact Or.inl (List.mem_of_getElem? hb)

theorem exists_mem_modify {P : α → Prop} (h : ∃ a ∈ l, P a) (hf : ∀ a, l[i]? = some a → P a → P (f a)) :
    ∃ a ∈ l.modify i f, P a := by
  obtain ⟨a, ha, hp⟩ := h
  obtain ⟨j, hj⟩ := List.mem_iff_getElem?.mp ha
  by_cases hij : i = j
  · subst hij
    exact ⟨f a, List.mem_of_getElem? (modify_same f hj), hf a hj hp⟩
  · exact ⟨a, List.mem_of_getElem? ((modify_other f hij).trans hj), hp⟩

/-- What `f` does not touch stays as it was at every place. -/
theorem map_modify {g : α → β} (hf : ∀ a, g (f a) = g a) (l : List α) (i : Nat) : (l.modify i f).map g = l.map g := by
  refine List.ext_getElem? fun j => ?_
  rw [List.getElem?_map, List.getElem?_map, List.getElem?_modify]
  cases l[j]? with
  | none => rfl
  | some a =>
    by_cases hij : i = j
    · simp [hij, hf]
    · simp [hij]

/-- The thread at `i` becomes `b`. -/
theorem map_modify_const {g : α → β} (b : α) (l : List α) (i : Nat) :
    (l.modify i fun _ => b).map g = (l.map g).modify i fun _ => g b := by
  refine List.ext_getElem? fun j => ?_
  rw [List.getElem?_map, List.getElem?_modify, List.getElem?_modify, List.getElem?_map]
  cases l[j]? with
  | none => rfl
  | some a =>
    by_cases hij : i = j
    · simp [hij]
    · simp [hij]

/-- A thread that becomes what it is. -/
theorem modify_const_self {a : α} (h : l[i]? = some a) : (l.modify i fun _ => a) = l := by
  refine List.ext_getElem? fun j => ?_
  by_cases hij : i = j
  · subst hij
    rw [modify_same _ h, h]
  · exact modify_other _ hij

/-- Only the thread that moves is counted anew. -/
theorem countP_modify {p : α → Bool} {a : α} (f : α → α) (h : l[i]? = some a) :
    (l.modify i f).countP p + (if p a then 1 else 0) = l.countP p + (if p (f a) then 1 else 0) := by
  induction l generalizing i with
  | nil => cases h
  | cons b l ih =>
    cases i with
    | zero =>
      cases h
      simp only [List.modify_zero_cons, List.countP_cons]
      omega
    | succ i =>
      have := ih h
      simp only [List.modify_succ_cons, List.countP_cons]
      omega

/-- What the threads hold, all together, changes as what the moving one holds does. -/
theorem flatMap_modify_perm {g : α → List β} {a : α} (f : α → α) (h : l[i]? = some a) :
    (g a ++ (l.modify i f).flatMap g).Perm (g (f a) ++ l.flatMap g) := by
  induction l generalizing i with
  | nil => cases h
  | cons b l ih =>
    cases i with
    | zero =>
      cases h
      simp only [List.modify_zero_cons, List.flatMap_cons]
      exact List.perm_append_comm_assoc ..
    | succ i =>
      simp only [List.modify_succ_cons, List.flatMap_cons]
      calc (g a ++ (g b ++ (l.modify i f).flatMap g)).Perm (g b ++ (g a ++ (l.modify i f).flatMap g)) :=
            List.perm_append_comm_assoc ..
        List.Perm _ (g b ++ (g (f a) ++ l.flatMap g)) := (ih h).append_left (g b)
        List.Perm _ (g (f a) ++ (g b ++ l.flatMap g)) := List.perm_append_comm_assoc ..

/-- The thread at `i` becomes `b`, which holds the same. -/
theorem flatMap_modify_const {g : α → List β} {a b : α} (h : l[i]? = some a) (hg : g b = g a) :
    (l.modify i fun _ => b).flatMap g = l.flatMap g := by
  have hmap : (l.modify i fun _ => b).map g = l.map g := by
    rw [map_modify_const, hg]
    exact modify_const_self (by rw [List.getElem?_map, h]; rfl)
  rw [List.flatMap_def, List.flatMap_def, hmap]

/-- What holds of every thread and of the one that moved holds after the move. -/
theorem forall_mem_modify {P : α → Prop} (h : ∀ a ∈ l, P a) (hf : ∀ a, l[i]? = some a → P (f a)) :
    ∀ a ∈ l.modify i f, P a := by
  intro b hb
  rcases mem_modify hb with hb | ⟨a, ha, rfl⟩
  · exact h b hb
  · exact hf a ha

theorem pairwise_modify {R : α → α → Prop} (h : l.Pairwise R) (hl : ∀ a b, R a b → R (f a) b)
    (hr : ∀ a b, R a b → R a (f b)) (i : Nat) : (l.modify i f).Pairwise R := by
  rw [List.pairwise_iff_getElem] at h ⊢
  intro j k hj hk hjk
  rw [List.length_modify] at hj hk
  rw [List.getElem_modify, List.getElem_modify]
  have hold := h j k hj hk hjk
  split
  next =>
    split
    next => exact hr _ _ (hl _ _ hold)
    next => exact hl _ _ hold
  next =>
    split
    next => exact hr _ _ hold
    next => exact hold

/-- The thread at `i` becomes `b`, which is to the others what it was. -/
theorem pairwise_modify_const {R : α → α → Prop} {a b : α} (h : l.Pairwise R) (ha : l[i]? = some a)
    (hl : ∀ c ∈ l, R a c → R b c) (hr : ∀ c ∈ l, R c a → R c b) : (l.modify i fun _ => b).Pairwise R := by
  obtain ⟨hi, rfl⟩ := List.getElem?_eq_some_iff.mp ha
  rw [List.pairwise_iff_getElem] at h ⊢
  intro j k hj hk hjk
  rw [List.length_modify] at hj hk
  rw [List.getElem_modify, List.getElem_modify]
  have hold := h j k hj hk hjk
  split
  next hij =>
    subst hij
    rw [if_neg (Nat.ne_of_lt hjk)]
    exact hl _ (List.getElem_mem hk) hold
  next =>
    split
    next hik =>
      subst hik
      exact hr _ (List.getElem_mem hj) hold
    next => exact hold

theorem pairwise_get {R : α → α → Prop} (h : l.Pairwise R) (hsymm : ∀ a b, R a b → R b a) {a b : α} (ha : l[i]? = some a)
    (hb : l[j]? = some b) (hij : i ≠ j) : R a b := by
  obtain ⟨hi, rfl⟩ := List.getElem?_eq_some_iff.mp ha
  obtain ⟨hj, rfl⟩ := List.getElem?_eq_some_iff.mp hb
  rw [List.pairwise_iff_getElem] at h
  rcases Nat.lt_or_gt_of_ne hij with hlt | hgt
  · exact h i j hi hj hlt
  · exact hsymm _ _ (h j i hj hi hgt)

theorem countP_eq_length_places (p : α → Bool) (l : List α) :
    l.countP p = ((List.range l.length).filter fun i => (l[i]?).any p).length := by
  have hplaces : (List.range l.length).map (fun i => l[i]?) = l.map some := by
    refine List.ext_getElem (by simp) fun i h1 h2 => ?_
    simp at h1
    simp [h1]
  have hmap := congrArg (List.countP (Option.any p)) hplaces
  rw [List.countP_map, List.countP_map] at hmap
  rw [← List.countP_eq_length_filter]
  exact hmap.symm

/-- Different places of a list that satisfy `p`. -/
theorem length_le_countP {p : α → Bool} {is : List Nat} (hn : is.Nodup)
    (h : ∀ i ∈ is, (l[i]?).any p = true) : is.length ≤ l.countP p := by
  rw [countP_eq_length_places]
  refine (hn.subperm fun i hi => ?_).length_le
  have hany := h i hi
  refine List.mem_filter.mpr ⟨List.mem_range.mpr ?_, hany⟩
  by_contra hout
  rw [List.getElem?_eq_none (Nat.le_of_not_lt hout)] at hany
  cases hany

/-- A list with all the places that satisfy `p`. -/
theorem countP_le_length {p : α → Bool} {is : List Nat}
    (h : ∀ (i : Nat) (a : α), l[i]? = some a → p a = true → i ∈ is) : l.countP p ≤ is.length := by
  rw [countP_eq_length_places]
  refine ((List.nodup_range.filter _).subperm fun i hi => ?_).length_le
  obtain ⟨a, ha, hp⟩ := (Option.any_eq_true ..).mp (List.mem_filter.mp hi).2
  exact h i a ha hp

/-- At most `b` for each thread that satisfies `p`, and nothing for the others. -/
theorem sum_map_le_countP_mul {p : α → Bool} {g : α → Nat} {b : Nat} (hle : ∀ a ∈ l, g a ≤ b)
    (hzero : ∀ a ∈ l, p a = false → g a = 0) : (l.map g).sum ≤ l.countP p * b := by
  induction l with
  | nil => exact Nat.zero_le _
  | cons a l ih =>
    have hrest := ih (fun c hc => hle c (List.mem_cons_of_mem a hc)) fun c hc => hzero c (List.mem_cons_of_mem a hc)
    have hhead := hle a List.mem_cons_self
    rw [List.map_cons, List.sum_cons, List.countP_cons, Nat.add_mul]
    cases hp : p a with
    | true =>
      rw [if_pos rfl, Nat.one_mul]
      omega
    | false =>
      rw [hzero a List.mem_cons_self hp]
      omega

end Overhauled.Machine
