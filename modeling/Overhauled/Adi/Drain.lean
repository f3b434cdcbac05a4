/-
  Overhauled.Adi.Drain — in which order the workers of `src/gpu_runtime_server.cpp` take up
  what the clients push, and that they get to all of it.

  (1) The queues are drawn in turn (`rr_counter`), and each is first in, first out. Every draw
  is one task's; until the task is answered it is with the worker `d mod 2^32 mod n`, for its
  draw `d`. In a queue are the tasks in the order of their pushes, which need not be that of
  the draws, and what is on a lane was pushed before what is in the queue (`tasks_in_turn`).
  So of `n` workers each gets every `n`-th draw, except where the counter wraps around and
  `n` does not divide 2^32.

  (2) `round` is one pass of `gpu_worker_thread` in which every stream that is asked is done
  and no CUDA call fails. It takes a task up at least when there is one, since the first loop
  frees the lanes before the second fills them. From every state, as many rounds as there are
  promises, and one more, answer each promise once (`every_promise_is_answered`): no client
  waits in `future.get()` for something that cannot come.
-/

import Overhauled.Adi.Lanes

namespace Overhauled.Adi.Lanes

open Wire Machine Overhauled.Adi.Runtime Overhauled.Adi.Inference

variable {host : Host}

/-! ## (1) In turn -/

/-- The numbers of the tasks on the lanes. -/
def Worker.flying (w : Worker) : List Nat := w.lanes.flatMap (·.holds)

/-- The order of what one worker holds: of the tasks pushed those whose draw was its queue. -/
structure Worker.InTurn (numGpus gpu : Nat) (pushed : List Nat) (w : Worker) : Prop where
  own : ∀ p ∈ w.holds, ∃ d, pushed[p]? = some d ∧ d % 2 ^ 32 % numGpus = gpu
  fifo : (w.queue.map (·.promise)).Pairwise (· < ·)
  older : ∀ p ∈ w.flying, ∀ q ∈ w.queue.map (·.promise), p < q

theorem Worker.mem_holds {w : Worker} {p : Nat} : p ∈ w.holds ↔ p ∈ w.queue.map (·.promise) ∨ p ∈ w.flying :=
  List.mem_append

theorem Worker.mem_flying_modify {w : Worker} {i : Nat} {f : StreamLane → StreamLane} {p : Nat} {queue : List InferenceTask}
    (h : p ∈ (⟨queue, w.lanes.modify i f⟩ : Worker).flying) :
    p ∈ w.flying ∨ ∃ lane, w.lanes[i]? = some lane ∧ p ∈ (f lane).holds := by
  obtain ⟨lane, hlane, hp⟩ := List.mem_flatMap.mp h
  rcases mem_modify hlane with hlane | ⟨lane', hlane', rfl⟩
  · exact Or.inl (List.mem_flatMap.mpr ⟨lane, hlane, hp⟩)
  · exact Or.inr ⟨lane', hlane', hp⟩

section
variable {numGpus gpu : Nat} {pushed : List Nat} {w : Worker}

/-- A turn only moves what is held, the front of the queue to a lane. -/
theorem Worker.InTurn.turn (h : w.InTurn numGpus gpu pushed) (models : Models) (t : Turn) :
    (w.turn models t).1.InTurn numGpus gpu pushed := by
  have hown : ∀ p ∈ (w.turn models t).1.holds, ∃ d, pushed[p]? = some d ∧ d % 2 ^ 32 % numGpus = gpu := fun p hp =>
    h.own p ((w.holds_turn models t).subset (List.mem_append_right _ hp))
  rcases w.turn_cases models t with
    hturn | ⟨i, lane, hlane, hflight, hturn⟩ | ⟨i, lane, task, queue, hlane, hfree, hqueue, hturn⟩
  · rw [hturn]
    exact h
  · rw [hturn] at hown ⊢
    refine ⟨hown, h.fifo, ?_⟩
    intro p hp q hq
    rcases mem_flying_modify hp with hp | ⟨lane', -, hp⟩
    · exact h.older p hp q hq
    · cases hp
  · have hfifo := h.fifo
    rw [hqueue, List.map_cons, List.pairwise_cons] at hfifo
    have holder : ∀ p ∈ w.flying, ∀ q ∈ queue.map (·.promise), p < q := by
      intro p hp q hq
      refine h.older p hp q ?_
      rw [hqueue]
      exact List.mem_cons_of_mem _ hq
    rcases hturn with hturn | ⟨model, -, hturn⟩
    · rw [hturn] at hown ⊢
      exact ⟨hown, hfifo.2, holder⟩
    · rw [hturn] at hown ⊢
      refine ⟨hown, hfifo.2, ?_⟩
      intro p hp q hq
      rcases mem_flying_modify hp with hp | ⟨lane', -, hp⟩
      · exact holder p hp q hq
      · -- the task just taken up was the first of the queue
        rw [show (lane'.start model task).holds = [task.promise] from rfl] at hp
        rw [List.mem_singleton.mp hp]
        exact hfifo.1 q hq

theorem Worker.InTurn.later (h : w.InTurn numGpus gpu pushed) (d : Nat) : w.InTurn numGpus gpu (pushed ++ [d]) := by
  refine ⟨?_, h.fifo, h.older⟩
  intro p hp
  obtain ⟨d', hd', hgpu⟩ := h.own p hp
  exact ⟨d', List.getElem?_append_left (List.getElem?_eq_some_iff.mp hd').1 ▸ hd', hgpu⟩

/-- The task pushed next is the newest. -/
theorem Worker.InTurn.lt_length (h : w.InTurn numGpus gpu pushed) {p : Nat} (hp : p ∈ w.holds) : p < pushed.length := by
  obtain ⟨d, hd, -⟩ := h.own p hp
  exact (List.getElem?_eq_some_iff.mp hd).1

theorem Worker.InTurn.push (h : w.InTurn numGpus gpu pushed) {d : Nat} (hgpu : d % 2 ^ 32 % numGpus = gpu)
    {task : InferenceTask} (htask : task.promise = pushed.length) : (w.push task).InTurn numGpus gpu (pushed ++ [d]) := by
  have hqueue : (w.push task).queue.map (·.promise) = w.queue.map (·.promise) ++ [pushed.length] := by
    rw [← htask]
    exact List.map_append
  refine ⟨?_, ?_, ?_⟩
  · intro p hp
    rcases List.mem_cons.mp ((w.holds_push task).subset hp) with rfl | hp
    · exact ⟨d, by rw [htask]; exact List.getElem?_concat_length, hgpu⟩
    · exact (h.later d).own p hp
  · rw [hqueue, List.pairwise_append]
    refine ⟨h.fifo, List.pairwise_singleton _ _, ?_⟩
    intro p hp q hq
    rw [List.mem_singleton.mp hq]
    exact h.lt_length (mem_holds.mpr (Or.inl hp))
  · intro p hp q hq
    rw [hqueue] at hq
    rcases List.mem_append.mp hq with hq | hq
    · exact h.older p hp q hq
    · rw [List.mem_singleton.mp hq]
      exact h.lt_length (mem_holds.mpr (Or.inr hp))

end

/-- All workers, and the counter the queues are drawn from. -/
structure InTurn (numGpus : Nat) (s : St) : Prop where
  gpus : s.workers.length = numGpus
  counter : s.rrCounter = UInt32.ofNat s.draws
  once : (s.pushed ++ s.drawn.map (·.draw)).Perm (List.range s.draws)
  drawn : ∀ d ∈ s.drawn, d.qIdx = d.draw % 2 ^ 32 % numGpus
  workers : ∀ (gpu : Nat) (w : Worker), s.workers[gpu]? = some w → w.InTurn numGpus gpu s.pushed

theorem InTurn.draw {numGpus : Nat} {s : St} (h : InTurn numGpus s) (modelId : UInt32) (input : Bytes) :
    InTurn numGpus (s.draw modelId input) where
  gpus := h.gpus
  counter := by
    show s.rrCounter + 1 = UInt32.ofNat (s.draws + 1)
    rw [h.counter, UInt32.ofNat_add]
    rfl
  once := by
    simp only [St.draw, List.map_append, List.map_cons, List.map_nil, List.range_succ, ← List.append_assoc]
    exact h.once.append_right _
  drawn := by
    intro d hd
    rcases List.mem_append.mp hd with hd | hd
    · exact h.drawn d hd
    · rw [List.mem_singleton.mp hd, h.counter, h.gpus, UInt32.toNat_ofNat']
  workers := h.workers

theorem InTurn.push {numGpus : Nat} {s : St} (h : InTurn numGpus s) (k : Nat) : InTurn numGpus (s.push k) := by
  unfold St.push
  split
  next => exact h
  next d hd =>
    obtain ⟨hk, rfl⟩ := List.getElem?_eq_some_iff.mp hd
    refine ⟨?_, h.counter, ?_, ?_, ?_⟩
    · rw [List.length_modify]
      exact h.gpus
    · have hmoved := (List.getElem_cons_eraseIdx_perm hk).map (·.draw)
      rw [List.append_assoc]
      exact (hmoved.append_left _).trans h.once
    · intro d hd
      exact h.drawn d (List.mem_of_mem_eraseIdx hd)
    · intro gpu w hw
      rcases modify_get hw with ⟨w', hgpu, hw', rfl⟩ | ⟨-, hw'⟩
      · exact (h.workers gpu w' hw').push ((h.drawn _ (List.getElem_mem hk)).symm.trans hgpu) rfl
      · exact (h.workers gpu w hw').later _

theorem InTurn.step {numGpus : Nat} {s : St} (h : InTurn numGpus s) (e : Ev) : InTurn numGpus (step host s e) := by
  cases e with
  | request p built =>
    simp only [Lanes.step]
    split
    next => exact ⟨h.gpus, h.counter, h.once, h.drawn, h.workers⟩
    next => exact h.draw ..
    next => exact h
  | push k => exact h.push k
  | turn gpu t =>
    simp only [Lanes.step]
    split
    next => exact h
    next =>
      refine ⟨?_, h.counter, h.once, h.drawn, ?_⟩
      · rw [List.length_modify]
        exact h.gpus
      · intro gpu' w hw
        rcases modify_get hw with ⟨w', -, hw', rfl⟩ | ⟨-, hw'⟩
        · exact (h.workers gpu' w' hw').turn s.models t
        · exact h.workers gpu' w hw'

theorem inTurn_run (host : Host) (numGpus : Nat) (es : List Ev) : InTurn numGpus (exec (step host) (start numGpus) es) := by
  refine exec_induct ⟨List.length_replicate, rfl, List.Perm.refl _, ?_, ?_⟩ fun _ e _ hs => hs.step e
  · intro d hd
    cases hd
  · intro gpu w hw
    have hnew : w = {} := List.eq_of_mem_replicate (List.mem_of_getElem? hw)
    have hnone : ∀ p, p ∉ w.holds := by
      intro p hp
      rw [hnew] at hp
      cases hp
    refine ⟨fun p hp => absurd hp (hnone p), ?_, fun p hp => ?_⟩
    · rw [hnew]
      exact List.Pairwise.nil
    · exact absurd (Worker.mem_holds.mpr (Or.inr hp)) (hnone p)

/-- An inference for model 0, which nobody loaded. -/
def askForZero : Ev := .request (Packet.ofPayload executeInference (List.replicate 12 0) (by decide)) fun _ => none

/-- Three requests on two GPUs, the last to draw the first to push. -/
def overtaken : List Ev := [askForZero, askForZero, askForZero, .push 2, .push 0, .push 0]

/-- One pass of the worker's loop with every stream done: each lane is asked, then each is offered a task. -/
def round : List Turn :=
  (List.range numStreamsPerGpu).map Turn.finish ++ (List.range numStreamsPerGpu).map Turn.launch

/-- A worker after some turns. -/
def Worker.turns (models : Models) (w : Worker) (ts : List Turn) : Worker := exec (fun w t => (w.turn models t).1) w ts

section
variable {models : Models} {w : Worker}

theorem Worker.turns_append (ts us : List Turn) : w.turns models (ts ++ us) = (w.turns models ts).turns models us :=
  exec_append us

theorem Worker.turns_cons (t : Turn) (ts : List Turn) : w.turns models (t :: ts) = (w.turn models t).1.turns models ts := rfl

theorem Worker.length_lanes_turn (models : Models) (w : Worker) (t : Turn) :
    (w.turn models t).1.lanes.length = w.lanes.length := by
  rcases w.turn_cases models t with hturn | ⟨i, lane, -, -, hturn⟩ | ⟨i, lane, task, queue, -, -, -, hturn | ⟨model, -, hturn⟩⟩
  · rw [hturn]
  · rw [hturn, List.length_modify]
  · rw [hturn]
  · rw [hturn, List.length_modify]

theorem Worker.length_lanes_turns (models : Models) (w : Worker) (ts : List Turn) :
    (w.turns models ts).lanes.length = w.lanes.length :=
  exec_induct (I := fun w' : Worker => w'.lanes.length = w.lanes.length) rfl fun _ t _ h =>
    (length_lanes_turn models _ t).trans h

theorem Worker.length_queue_turn_le (models : Models) (w : Worker) (t : Turn) :
    (w.turn models t).1.queue.length ≤ w.queue.length := by
  rcases w.turn_cases models t with hturn | ⟨i, lane, -, -, hturn⟩ | ⟨i, lane, task, queue, -, -, hqueue, hturn | ⟨model, -, hturn⟩⟩
  · rw [hturn]
  · rw [hturn]
  · rw [hturn, hqueue, List.length_cons]
    exact Nat.le_succ _
  · rw [hturn, hqueue, List.length_cons]
    exact Nat.le_succ _

theorem Worker.length_queue_turns_le (models : Models) (w : Worker) (ts : List Turn) :
    (w.turns models ts).queue.length ≤ w.queue.length :=
  exec_induct (I := fun w' : Worker => w'.queue.length ≤ w.queue.length) (Nat.le_refl _) fun _ t _ h =>
    (length_queue_turn_le models _ t).trans h

/-- The first loop, up to a lane: the lanes before it are free, and the queue is as it was. -/
theorem Worker.turns_finish (models : Models) (w : Worker) (n : Nat) :
    (w.turns models ((List.range n).map Turn.finish)).queue = w.queue ∧
      ∀ i < n, ∀ lane, (w.turns models ((List.range n).map Turn.finish)).lanes[i]? = some lane → lane.inFlight = false := by
  induction n with
  | zero => exact ⟨rfl, fun i hi => absurd hi (Nat.not_lt_zero i)⟩
  | succ n ih =>
    rw [List.range_succ, List.map_append, turns_append]
    generalize w.turns models ((List.range n).map Turn.finish) = w₁ at ih
    show (w₁.turn models (.finish n)).1.queue = _ ∧ ∀ i < n + 1, ∀ lane, (w₁.turn models (.finish n)).1.lanes[i]? = _ → _
    simp only [turn]
    cases hdone : w₁.done n with
    | none =>
      refine ⟨ih.1, ?_⟩
      intro i hi lane hlane
      rcases Nat.lt_succ_iff_lt_or_eq.mp hi with hi | rfl
      · exact ih.2 i hi lane hlane
      · -- the lane was not in flight, or it would have been found
        have hnone : w₁.lanes[i]?.filter (·.inFlight) = none := hdone
        rw [hlane] at hnone
        cases hflight : lane.inFlight with
        | false => rfl
        | true => simp [hflight] at hnone
    | some found =>
      refine ⟨ih.1, ?_⟩
      intro i hi lane hlane
      rcases modify_get hlane with ⟨lane', -, -, rfl⟩ | ⟨hne, hlane⟩
      · rfl
      · exact ih.2 i (by omega) lane hlane

/-- A round takes a task from a queue that has one. -/
theorem Worker.length_queue_round (models : Models) (hlanes : w.lanes.length = numStreamsPerGpu) :
    (w.turns models round).queue.length ≤ w.queue.length - 1 := by
  obtain ⟨hqueue, hfree⟩ := w.turns_finish models numStreamsPerGpu
  rw [round, turns_append]
  have hlength := w.length_lanes_turns models ((List.range numStreamsPerGpu).map Turn.finish)
  generalize w.turns models ((List.range numStreamsPerGpu).map Turn.finish) = w₁ at hqueue hfree hlength
  rw [← hqueue]
  cases hq : w₁.queue with
  | nil =>
    have hle := w₁.length_queue_turns_le models ((List.range numStreamsPerGpu).map Turn.launch)
    rw [hq] at hle
    exact hle
  | cons task queue =>
    -- the first lane of the second loop takes it
    obtain ⟨lane, hlane⟩ : ∃ lane, w₁.lanes[0]? = some lane :=
      ⟨_, List.getElem?_eq_getElem (by rw [hlength, hlanes]; decide)⟩
    have hnext : w₁.next 0 = some (lane, task) := by
      simp [next, hlane, hq, hfree 0 (by decide) lane hlane]
    have hfirst : (w₁.turn models (.launch 0)).1.queue = queue := by
      simp only [turn, hnext]
      split
      · exact congrArg List.tail hq
      · exact congrArg List.tail hq
    have hrange : (List.range numStreamsPerGpu).map Turn.launch =
        Turn.launch 0 :: ((List.range' 1 15).map Turn.launch) := rfl
    rw [hrange, turns_cons, List.length_cons, Nat.add_sub_cancel]
    have hrest := (w₁.turn models (.launch 0)).1.length_queue_turns_le models
      ((List.range' 1 15).map Turn.launch)
    rw [hfirst] at hrest
    exact hrest

/-- Some rounds, and one more to be done with the tasks of the last. -/
def rounds (n : Nat) : List Turn := (List.replicate (n + 1) round).flatten

theorem Worker.turns_rounds (n : Nat) : w.turns models (rounds (n + 1)) = (w.turns models round).turns models (rounds n) := by
  rw [rounds, List.replicate_succ, List.flatten_cons, turns_append]
  rfl

/-- What is held can only be what was. -/
theorem Worker.holds_turns_of_nil (h : w.holds = []) (ts : List Turn) : (w.turns models ts).holds = [] := by
  refine exec_induct (I := fun w' : Worker => w'.holds = []) h ?_
  intro pre t _ hpre
  have hturn := holds_turn models (exec (fun w t => (w.turn models t).1) w pre) t
  rw [hpre] at hturn
  exact (List.append_eq_nil_iff.mp hturn.eq_nil).2

/-- With nothing in the queue, a round leaves the worker with nothing. -/
theorem Worker.holds_round_of_empty (hlanes : w.lanes.length = numStreamsPerGpu) (hempty : w.queue = []) :
    (w.turns models round).holds = [] := by
  obtain ⟨hqueue, hfree⟩ := w.turns_finish models numStreamsPerGpu
  have hlength := w.length_lanes_turns models ((List.range numStreamsPerGpu).map Turn.finish)
  rw [round, turns_append]
  generalize w.turns models ((List.range numStreamsPerGpu).map Turn.finish) = w₁ at hqueue hfree hlength
  rw [hempty] at hqueue
  have hnone : w₁.holds = [] := by
    rw [holds, hqueue, List.map_nil, List.nil_append]
    refine List.flatMap_eq_nil_iff.mpr fun lane hlane => ?_
    obtain ⟨i, hi⟩ := List.mem_iff_getElem?.mp hlane
    have hlt : i < numStreamsPerGpu := by
      rw [← hlanes, ← hlength]
      exact (List.getElem?_eq_some_iff.mp hi).1
    exact if_neg (by rw [hfree i hlt lane hi]; exact Bool.false_ne_true)
  exact holds_turns_of_nil hnone _

theorem Worker.holds_rounds {n : Nat} (hlanes : w.lanes.length = numStreamsPerGpu) (hn : w.queue.length ≤ n) :
    (w.turns models (rounds n)).holds = [] := by
  induction n generalizing w with
  | zero =>
    have hempty : w.queue = [] := List.eq_nil_of_length_eq_zero (Nat.le_zero.mp hn)
    have hone : rounds 0 = round := List.append_nil round
    rw [hone]
    exact holds_round_of_empty hlanes hempty
  | succ n ih =>
    rw [turns_rounds]
    refine ih ((w.length_lanes_turns models round).trans hlanes) ?_
    have := length_queue_round models hlanes
    omega

end

/-! ### All workers -/

/-- The turns of one worker, among the events. -/
def turnsOf (gpu : Nat) (ts : List Turn) : List Ev := ts.map (Ev.turn gpu)

theorem exec_turnsOf (host : Host) {s : St} {gpu : Nat} {w : Worker} (hw : s.workers[gpu]? = some w) (ts : List Turn) :
    (exec (step host) s (turnsOf gpu ts)).models = s.models ∧
      (exec (step host) s (turnsOf gpu ts)).promises = s.promises ∧
      (exec (step host) s (turnsOf gpu ts)).workers[gpu]? = some (w.turns s.models ts) ∧
      ∀ g, g ≠ gpu → (exec (step host) s (turnsOf gpu ts)).workers[g]? = s.workers[g]? := by
  induction ts generalizing s w with
  | nil => exact ⟨rfl, rfl, hw, fun _ _ => rfl⟩
  | cons t ts ih =>
    have hstep : step host s (.turn gpu t) = { s with
        workers := s.workers.modify gpu fun w => (w.turn s.models t).1
        answers := s.answers ++ (w.turn s.models t).2 } := by
      simp only [step, hw]
    have hw' : (step host s (.turn gpu t)).workers[gpu]? = some (w.turn s.models t).1 := by
      rw [hstep]
      exact modify_same _ hw
    obtain ⟨hmodels, hpromises, hown, hother⟩ := ih hw'
    rw [turnsOf, List.map_cons, exec_cons]
    rw [hstep] at hmodels hpromises hown hother ⊢
    refine ⟨hmodels, hpromises, hown, ?_⟩
    intro g hg
    rw [← turnsOf, hother g hg]
    exact modify_other _ (Ne.symm hg)

/-- Every worker in turn goes through some rounds. -/
def allRounds (numGpus n : Nat) : List Ev := (List.range numGpus).flatMap fun gpu => turnsOf gpu (rounds n)

/-- The workers have all their lanes. -/
theorem lanes_run (numGpus : Nat) (es : List Ev) :
    ∀ w ∈ (exec (step host) (start numGpus) es).workers, w.lanes.length = numStreamsPerGpu := by
  refine exec_induct (I := fun s : St => ∀ w ∈ s.workers, w.lanes.length = numStreamsPerGpu) ?_ fun pre e _ hs => ?_
  · intro w hw
    rw [List.eq_of_mem_replicate hw]
    exact List.length_replicate
  · exact forall_workers_step hs (fun w t hw => (Worker.length_lanes_turn _ w t).trans hw) fun _ _ w hw => hw

/-- By induction over the workers that had their rounds: they hold nothing, the others what they held. -/
theorem exec_allRounds (host : Host) {s : St} {n : Nat} (hlanes : ∀ w ∈ s.workers, w.lanes.length = numStreamsPerGpu)
    (hqueues : ∀ w ∈ s.workers, w.queue.length ≤ n) (k : Nat) (hk : k ≤ s.workers.length) :
    (exec (step host) s (allRounds k n)).models = s.models ∧
      (exec (step host) s (allRounds k n)).promises = s.promises ∧
      (∀ g < k, ∀ w, (exec (step host) s (allRounds k n)).workers[g]? = some w → w.holds = []) ∧
      ∀ g, k ≤ g → (exec (step host) s (allRounds k n)).workers[g]? = s.workers[g]? := by
  induction k with
  | zero => exact ⟨rfl, rfl, fun g hg => absurd hg (Nat.not_lt_zero g), fun _ _ => rfl⟩
  | succ k ih =>
    obtain ⟨hmodels, hpromises, hdone, hrest⟩ := ih (Nat.le_of_succ_le hk)
    have hevents : allRounds (k + 1) n = allRounds k n ++ turnsOf k (rounds n) := by
      rw [allRounds, List.range_succ, List.flatMap_append]
      exact congrArg _ (List.append_nil _)
    have hw : s.workers[k]? = some s.workers[k] := List.getElem?_eq_getElem hk
    have hmem : s.workers[k] ∈ s.workers := List.getElem_mem hk
    rw [hevents, exec_append]
    generalize exec (step host) s (allRounds k n) = s₁ at hmodels hpromises hdone hrest
    obtain ⟨hmodels', hpromises', hown, hother⟩ := exec_turnsOf host ((hrest k (Nat.le_refl k)).trans hw) (rounds n)
    refine ⟨hmodels'.trans hmodels, hpromises'.trans hpromises, ?_, ?_⟩
    · intro g hg w hgw
      rcases Nat.lt_succ_iff_lt_or_eq.mp hg with hg | rfl
      · rw [hother g (Nat.ne_of_lt hg)] at hgw
        exact hdone g hg w hgw
      · rw [hown] at hgw
        cases hgw
        exact Worker.holds_rounds (hlanes _ hmem) (hqueues _ hmem)
    · intro g hg
      rw [hother g (by omega)]
      exact hrest g (by omega)

/-- No queue is longer than there are promises. -/
theorem length_queue_le {numGpus : Nat} (hgpus : 0 < numGpus) (es : List Ev) :
    ∀ w ∈ (exec (step host) (start numGpus) es).workers,
      w.queue.length ≤ (exec (step host) (start numGpus) es).promises := by
  intro w hw
  have hall := (@tasks_accounted host numGpus hgpus es).length_eq
  rw [List.length_append, List.length_range] at hall
  have hsub : (w.queue.map (·.promise)).length ≤ w.holds.length := by
    rw [Worker.holds, List.length_append]
    exact Nat.le_add_right _ _
  have hone : w.holds.length ≤ ((exec (step host) (start numGpus) es).workers.flatMap (·.holds)).length :=
    List.Sublist.length_le (List.sublist_flatten_of_mem (List.mem_map.mpr ⟨w, hw, rfl⟩))
  rw [List.length_map] at hsub
  omega

/-- On a machine with a GPU, from every state the workers' own loops lead to one in which every
    promise made has been answered, and only once. -/
theorem every_promise_is_answered (host : Host) (numGpus : Nat) (hgpus : 0 < numGpus) (es : List Ev) :
    let s := exec (step host) (start numGpus) es
    ((exec (step host) s (allRounds numGpus s.promises)).answers.map (·.promise)).Perm (List.range s.promises) := by
  intro s
  have hlength : s.workers.length = numGpus := (inTurn_run host numGpus es).gpus
  obtain ⟨-, hpromises, hdone, -⟩ := exec_allRounds host (lanes_run numGpus es) (length_queue_le hgpus es)
    numGpus hlength.ge
  have hall := @tasks_accounted host numGpus hgpus (es ++ allRounds numGpus s.promises)
  have hafter := (inTurn_run host numGpus (es ++ allRounds numGpus s.promises)).gpus
  rw [exec_append] at hall hafter
  have hnone : (exec (step host) s (allRounds numGpus s.promises)).workers.flatMap (·.holds) = [] := by
    refine List.flatMap_eq_nil_iff.mpr fun w hw => ?_
    obtain ⟨g, hg⟩ := List.mem_iff_getElem?.mp hw
    exact hdone g (hafter ▸ (List.getElem?_eq_some_iff.mp hg).1) w hg
  have hplaces : ((exec (step host) s (allRounds numGpus s.promises)).answers.map (·.promise) ++
      (exec (step host) s (allRounds numGpus s.promises)).workers.flatMap (·.holds)).Perm
        (List.range (exec (step host) s (allRounds numGpus s.promises)).promises) := hall
  rw [hnone, List.append_nil, hpromises] at hplaces
  exact hplaces

theorem every_promise_is_answered_overtaken :
    ((exec (step .little) (exec (step .little) (start 2) overtaken) (allRounds 2 3)).answers.map (·.promise)).Perm [0, 1, 2] :=
  every_promise_is_answered .little 2 (by decide) overtaken

end Overhauled.Adi.Lanes
