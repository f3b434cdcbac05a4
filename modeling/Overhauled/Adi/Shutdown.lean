/-
  Overhauled.Adi.Shutdown — `AdiServer` (`src/adi_server.cpp`): sessions that hand their
  tasks to one worker per GPU and wait for the result, and `stop()`.

  A session looks at `running_` at the top of its loop, reads a request, places it, and
  puts the task on the GPU's queue under the queue's mutex. It does not look at
  `stopping`. A worker leaves when it finds `stopping` set and its queue empty. Sessions,
  workers and the thread that stops the server take steps in any order; `step` is one of
  them and a list of events is an interleaving. The numbers sent over the socket and
  computed with are left out: a promise is only kept or not. `Sessions` has them, and its
  runs are runs of this server (`Sessions.sessions_project`).

  A session that read its request before the server was stopped may put its task on the
  queue of a worker that has gone since: it waits for good, and so does `join_all`
  (`a_late_task_is_stranded`, `stranded_forever`). Until a session does so, whoever waits
  for a result has its task with a worker or on the queue of one (`none_stranded_iff`).
-/

import Overhauled.Gpu.Placer
import Overhauled.Machine.Run
import Overhauled.Machine.Threads

namespace Overhauled.Adi

open Machine
open Gpu (GpuTopology Placing)

/-! ## The server -/

inductive Worker where
  | idle
  | holding (task : Nat)
  /-- Gone, or not started yet. -/
  | exited
  deriving DecidableEq, Repr

/-- A `WorkerState` and the thread that works on it; tasks are named by number. -/
structure WorkerState where
  queue : List Nat := []
  stopping : Bool := false
  worker : Worker := .exited
  deriving DecidableEq, Repr

/-- Where a session's thread is in `session_loop`. -/
inductive Session where
  /-- About to look at `running_`. -/
  | top
  | reading
  | received
  | placed (gpu : Nat)
  | waiting (task : Nat)
  | sending
  | left
  deriving DecidableEq, Repr

structure St where
  running : Bool := false
  gpus : List WorkerState
  sessions : List Session := []
  /-- The tasks whose promise is kept, with a value or an exception. -/
  fulfilled : List Nat := []
  nextTask : Nat := 0
  deriving DecidableEq, Repr

inductive Ev where
  /-- `run()`, up to the listener. -/
  | start
  /-- `stop()`, up to its last loop. -/
  | stop
  /-- One turn of the last loop of `stop()`, or of the loop of `join_all`. -/
  | flag (gpu : Nat)
  | accept
  | check (i : Nat)
  | read (i : Nat) (ok : Bool)
  /-- `place` meets a state of the placer, or throws. -/
  | place (i : Nat) (placing : Option Placing)
  | enqueue (i : Nat)
  | get (i : Nat) (ok : Bool)
  | send (i : Nat) (ok : Bool)
  /-- The worker's locked section. -/
  | work (gpu : Nat)
  | fulfil (gpu : Nat)

def St.session (s : St) (i : Nat) (p : Session) : St := { s with sessions := s.sessions.modify i fun _ => p }

def St.gpu (s : St) (gpu : Nat) (w : WorkerState) : St := { s with gpus := s.gpus.modify gpu fun _ => w }

def workStep (s : St) (gpu : Nat) (w : WorkerState) : St :=
  match w.queue with
  | [] => if w.stopping then s.gpu gpu { w with worker := .exited } else s
  | task :: queue => s.gpu gpu { w with queue, worker := .holding task }

section
variable (topo : GpuTopology) (backlogThreshold : Nat)

def placeStep (s : St) (i : Nat) : Option Placing → St
  | some p => s.session i (.placed (Gpu.place topo backlogThreshold p))
  | none => s.session i .left

/-- An event whose thread is elsewhere changes nothing. -/
def step (s : St) : Ev → St
  | .start =>
    -- a server that was stopped is started again only once `join_all` has returned
    if s.running = false ∧ (∀ p ∈ s.sessions, p = .left) ∧ ∀ w ∈ s.gpus, w.worker = .exited then
      { s with running := true, gpus := s.gpus.map fun w => { w with worker := .idle } }
    else s
  | .stop => { s with running := false }
  | .flag gpu =>
    match s.gpus[gpu]? with
    | some w => if s.running then s else s.gpu gpu { w with stopping := true }
    | none => s
  | .accept => { s with sessions := s.sessions ++ [.top] }
  | .check i =>
    if s.sessions[i]? = some .top then s.session i (if s.running then .reading else .left) else s
  | .read i ok =>
    if s.sessions[i]? = some .reading then s.session i (if ok then .received else .left) else s
  | .place i placing =>
    if s.sessions[i]? = some .received then placeStep topo backlogThreshold s i placing else s
  | .enqueue i =>
    match s.sessions[i]? with
    | some (.placed gpu) =>
      match s.gpus[gpu]? with
      | some w =>
        { (s.gpu gpu { w with queue := w.queue ++ [s.nextTask] }).session i (.waiting s.nextTask) with
          nextTask := s.nextTask + 1 }
      | none => s
    | _ => s
  | .get i ok =>
    match s.sessions[i]? with
    | some (.waiting task) => if task ∈ s.fulfilled then s.session i (if ok then .sending else .left) else s
    | _ => s
  | .send i ok =>
    if s.sessions[i]? = some .sending then s.session i (if ok then .top else .left) else s
  | .work gpu =>
    match s.gpus[gpu]? with
    | some w => if w.worker = .idle then workStep s gpu w else s
    | none => s
  | .fulfil gpu =>
    match s.gpus[gpu]? with
    | some w =>
      match w.worker with
      | .holding task => { s.gpu gpu { w with worker := .idle } with fulfilled := task :: s.fulfilled }
      | _ => s
    | none => s

def init : St := { gpus := List.replicate topo.numGpus {} }

def run (evs : List Ev) : St := exec (step topo backlogThreshold) (init topo) evs

end

/-! ## What one step does -/

def Session.Waits (p : Session) : Prop := ∃ task, p = .waiting task

inductive Effect (topo : GpuTopology) (s : St) : Ev → St → Prop
  | idle {e : Ev} : Effect topo s e s
  | starts : (∀ p ∈ s.sessions, p = .left) → (∀ w ∈ s.gpus, w.worker = .exited) →
      Effect topo s .start { s with running := true, gpus := s.gpus.map fun w => { w with worker := .idle } }
  | stops : Effect topo s .stop { s with running := false }
  | flags {gpu : Nat} {w : WorkerState} : s.gpus[gpu]? = some w →
      Effect topo s (.flag gpu) (s.gpu gpu { w with stopping := true })
  | accepts : Effect topo s .accept { s with sessions := s.sessions ++ [.top] }
  /-- The session goes on to a phase where it does not wait. -/
  | moves {e : Ev} {i : Nat} {p q : Session} : s.sessions[i]? = some p →
      (∀ task, p = .waiting task → task ∈ s.fulfilled) → ¬ q.Waits → (∀ gpu, q = .placed gpu → gpu < topo.numGpus) →
      Effect topo s e (s.session i q)
  | enqueues {i gpu : Nat} {w : WorkerState} : s.sessions[i]? = some (.placed gpu) → s.gpus[gpu]? = some w →
      Effect topo s (.enqueue i)
        { (s.gpu gpu { w with queue := w.queue ++ [s.nextTask] }).session i (.waiting s.nextTask) with
          nextTask := s.nextTask + 1 }
  | exits {gpu : Nat} {w : WorkerState} : s.gpus[gpu]? = some w → w.worker = .idle → w.queue = [] →
      Effect topo s (.work gpu) (s.gpu gpu { w with worker := .exited })
  | takes {gpu task : Nat} {queue : List Nat} {w : WorkerState} : s.gpus[gpu]? = some w → w.worker = .idle →
      w.queue = task :: queue → Effect topo s (.work gpu) (s.gpu gpu { w with queue, worker := .holding task })
  | fulfils {gpu task : Nat} {w : WorkerState} : s.gpus[gpu]? = some w → w.worker = .holding task →
      Effect topo s (.fulfil gpu) { s.gpu gpu { w with worker := .idle } with fulfilled := task :: s.fulfilled }

section
variable {topo : GpuTopology} {backlogThreshold : Nat} {s : St}

/-- A session that does not wait goes on to a phase without a GPU. -/
theorem Effect.goes {e : Ev} {i : Nat} {p q : Session} (hp : s.sessions[i]? = some p) (hwaits : ¬ p.Waits)
    (hq : ¬ q.Waits ∧ ∀ gpu, q ≠ .placed gpu) : Effect topo s e (s.session i q) :=
  .moves hp (fun task h => absurd ⟨task, h⟩ hwaits) hq.1 fun gpu h => absurd h (hq.2 gpu)

theorem workStep_effect {gpu : Nat} {w : WorkerState} (hw : s.gpus[gpu]? = some w) (hidle : w.worker = .idle) :
    Effect topo s (.work gpu) (workStep s gpu w) := by
  unfold workStep
  split
  next hq =>
    split
    next => exact .exits hw hidle hq
    next => exact .idle
  next hq => exact .takes hw hidle hq

/-- Where a session neither waits nor has a GPU. -/
theorem plain_phase {p : Session} (hp : p ∈ [Session.top, .reading, .received, .sending, .left]) :
    ¬ p.Waits ∧ ∀ gpu, p ≠ .placed gpu := by
  simp only [List.mem_cons, List.not_mem_nil, or_false] at hp
  rcases hp with rfl | rfl | rfl | rfl | rfl
  all_goals simp [Session.Waits]

/-- A session in phase `p` goes on to one of two others. -/
theorem effect_turn {e : Ev} {i : Nat} (ok : Bool) {p q q' : Session}
    (hp : p ∈ [Session.top, .reading, .received, .sending, .left])
    (hq : q ∈ [Session.top, .reading, .received, .sending, .left])
    (hq' : q' ∈ [Session.top, .reading, .received, .sending, .left]) :
    Effect topo s e (if s.sessions[i]? = some p then s.session i (if ok then q else q') else s) := by
  split
  next h =>
    refine .goes h (plain_phase hp).1 (plain_phase ?_)
    cases ok
    · exact hq'
    · exact hq
  next => exact .idle

theorem effect_place (i : Nat) (placing : Option Placing) :
    Effect topo s (.place i placing) (step topo backlogThreshold s (.place i placing)) := by
  unfold step
  dsimp only
  split
  next hp =>
    cases placing with
    | none => exact .goes hp (plain_phase (by simp)).1 (plain_phase (by simp))
    | some p =>
      refine .moves hp (fun task h => by cases h) (by simp [Session.Waits]) ?_
      intro gpu h
      cases h
      exact Gpu.place_lt topo backlogThreshold p
  next => exact .idle

theorem effect_get (i : Nat) (ok : Bool) : Effect topo s (.get i ok) (step topo backlogThreshold s (.get i ok)) := by
  unfold step
  dsimp only
  split
  next task hp =>
    split
    next hkept =>
      have hplain : ¬ (if ok then Session.sending else .left).Waits ∧
          ∀ gpu, (if ok then Session.sending else .left) ≠ .placed gpu := by
        cases ok
        · exact plain_phase (by simp)
        · exact plain_phase (by simp)
      refine .moves hp ?_ hplain.1 fun gpu h => absurd h (hplain.2 gpu)
      intro task' h
      cases h
      exact hkept
    next => exact .idle
  next => exact .idle

theorem step_effect (s : St) (e : Ev) : Effect topo s e (step topo backlogThreshold s e) := by
  cases e with
  | start =>
    unfold step
    dsimp only
    split
    next h => exact .starts h.2.1 h.2.2
    next => exact .idle
  | stop => exact .stops
  | flag gpu =>
    unfold step
    dsimp only
    split
    next hw =>
      split
      next => exact .idle
      next => exact .flags hw
    next => exact .idle
  | accept => exact .accepts
  | check i => exact effect_turn s.running (by simp) (by simp) (by simp)
  | read i ok => exact effect_turn ok (by simp) (by simp) (by simp)
  | place i placing => exact effect_place i placing
  | enqueue i =>
    unfold step
    dsimp only
    split
    next hp =>
      split
      next hw => exact .enqueues hp hw
      next => exact .idle
    next => exact .idle
  | get i ok => exact effect_get i ok
  | send i ok => exact effect_turn ok (by simp) (by simp) (by simp)
  | work gpu =>
    unfold step
    dsimp only
    split
    next hw =>
      split
      next hidle => exact workStep_effect hw hidle
      next => exact .idle
    next => exact .idle
  | fulfil gpu =>
    unfold step
    dsimp only
    split
    next hw =>
      split
      next hheld => exact .fulfils hw hheld
      next => exact .idle
    next => exact .idle

end

/-! ## Who waits is served -/

/-- A worker that has not exited holds the task, or has it on its queue. -/
def WorkerState.Serves (w : WorkerState) (task : Nat) : Prop :=
  w.worker = .holding task ∨ w.worker ≠ .exited ∧ task ∈ w.queue

def Served (s : St) (task : Nat) : Prop := ∃ w ∈ s.gpus, w.Serves task

/-- Whoever waits for a result has its task with a worker, or on the queue of one. -/
def AllServed (s : St) : Prop :=
  ∀ (i task : Nat), s.sessions[i]? = some (.waiting task) → task ∉ s.fulfilled → Served s task

/-- Session `i` waits for a result that no worker is there to give. -/
def Stranded (s : St) (i : Nat) : Prop :=
  ∃ task, s.sessions[i]? = some (.waiting task) ∧ task ∉ s.fulfilled ∧ ¬ Served s task

/-- If the step puts a task on a queue, the queue's worker has not exited. -/
def EnqueuesLive (s : St) (e : Ev) : Prop :=
  ∀ (i gpu : Nat) (w : WorkerState), e = .enqueue i → s.sessions[i]? = some (.placed gpu) → s.gpus[gpu]? = some w →
    w.worker ≠ .exited

section
variable {topo : GpuTopology} {backlogThreshold : Nat} {s s' : St} {i gpu task : Nat} {w w' : WorkerState}

theorem session_get {q x : Session} {j : Nat} (h : (s.session i q).sessions[j]? = some x) :
    (i = j ∧ x = q) ∨ s.sessions[j]? = some x := by
  rcases modify_get h with ⟨_, hij, _, hx⟩ | ⟨-, hx⟩
  · exact Or.inl ⟨hij, hx⟩
  · exact Or.inr hx

theorem served_gpu (h : Served s task) (hw : s.gpus[gpu]? = some w) (hserves : w.Serves task → w'.Serves task) :
    Served (s.gpu gpu w') task := by
  refine exists_mem_modify h ?_
  intro a ha
  rw [hw] at ha
  cases ha
  exact hserves

theorem allServed_step (h : AllServed s) {e : Ev} (hlive : EnqueuesLive s e) (heff : Effect topo s e s') :
    AllServed s' := by
  -- the sessions are as they were, and one GPU's tasks are still served
  have hgpu : ∀ {gpu w w'}, s.gpus[gpu]? = some w → (∀ task, w.Serves task → w'.Serves task) →
      AllServed (s.gpu gpu w') := fun hw hserves i task hi hpromise => served_gpu (h i task hi hpromise) hw (hserves task)
  cases heff with
  | idle => exact h
  | starts hleft _ =>
    intro i task hi
    cases hleft _ (List.mem_of_getElem? hi)
  | stops => exact h
  | flags hw => exact hgpu hw fun _ hs => hs
  | accepts =>
    intro i task hi
    rcases concat_get hi with hi | hi
    · exact h i task hi
    · cases hi
  | moves _ _ hq _ =>
    intro j task hj
    rcases session_get hj with ⟨-, rfl⟩ | hj
    · exact absurd ⟨task, rfl⟩ hq
    · exact h j task hj
  | @enqueues i gpu w hp hw =>
    intro j task hj hpromise
    rcases session_get hj with ⟨-, htask⟩ | hj
    · cases htask
      exact ⟨_, List.mem_of_getElem? (modify_same _ hw), Or.inr ⟨hlive i gpu w rfl hp hw, by simp⟩⟩
    · refine served_gpu (h j task hj hpromise) hw ?_
      rintro (hheld | ⟨hin, hqueued⟩)
      · exact Or.inl hheld
      · exact Or.inr ⟨hin, List.mem_append_left _ hqueued⟩
  | exits hw hidle hq =>
    refine hgpu hw ?_
    rintro task (hheld | ⟨-, hqueued⟩)
    · rw [hidle] at hheld
      cases hheld
    · rw [hq] at hqueued
      cases hqueued
  | takes hw hidle hq =>
    refine hgpu hw ?_
    rintro task (hheld | ⟨-, hqueued⟩)
    · rw [hidle] at hheld
      cases hheld
    · rw [hq] at hqueued
      rcases List.mem_cons.mp hqueued with rfl | hqueued
      · exact Or.inl rfl
      · exact Or.inr ⟨by simp, hqueued⟩
  | fulfils hw hheld =>
    intro i task hi hpromise
    obtain ⟨hother, hpromise⟩ := not_or.mp (fun h => hpromise (List.mem_cons.mpr h))
    refine served_gpu (h i task hi hpromise) hw ?_
    rintro (hheld' | ⟨-, hqueued⟩)
    · rw [hheld] at hheld'
      cases hheld'
      exact absurd rfl hother
    · exact Or.inr ⟨by simp, hqueued⟩

/-! ## Tasks are numbered anew -/

/-- Every task there is was given its number before the next one. -/
structure Known (topo : GpuTopology) (s : St) : Prop where
  placed : ∀ (i gpu : Nat), s.sessions[i]? = some (.placed gpu) → gpu < topo.numGpus
  waiting : ∀ (i task : Nat), s.sessions[i]? = some (.waiting task) → task < s.nextTask
  tasks : ∀ w ∈ s.gpus, ∀ task, w.worker = .holding task ∨ task ∈ w.queue → task < s.nextTask
  fulfilled : ∀ task ∈ s.fulfilled, task < s.nextTask

theorem known_gpu (h : Known topo s) (hw : s.gpus[gpu]? = some w)
    (htasks : ∀ task, w'.worker = .holding task ∨ task ∈ w'.queue → w.worker = .holding task ∨ task ∈ w.queue) :
    Known topo (s.gpu gpu w') := by
  refine ⟨h.placed, h.waiting, ?_, h.fulfilled⟩
  intro a ha task htask
  rcases mem_modify ha with ha | ⟨_, _, rfl⟩
  · exact h.tasks a ha task htask
  · exact h.tasks w (List.mem_of_getElem? hw) task (htasks task htask)

theorem known_session {q : Session} (h : Known topo s) (hplaced : ∀ gpu, q = .placed gpu → gpu < topo.numGpus)
    (hwaiting : ∀ task, q = .waiting task → task < s.nextTask) : Known topo (s.session i q) := by
  refine ⟨?_, ?_, h.tasks, h.fulfilled⟩
  · intro j gpu hj
    rcases session_get hj with ⟨-, hq⟩ | hj
    · exact hplaced gpu hq.symm
    · exact h.placed j gpu hj
  · intro j task hj
    rcases session_get hj with ⟨-, hq⟩ | hj
    · exact hwaiting task hq.symm
    · exact h.waiting j task hj

theorem known_step (h : Known topo s) {e : Ev} (heff : Effect topo s e s') : Known topo s' := by
  cases heff with
  | idle => exact h
  | starts =>
    refine ⟨h.placed, h.waiting, ?_, h.fulfilled⟩
    intro a ha task htask
    obtain ⟨w, hw, rfl⟩ := List.mem_map.mp ha
    refine h.tasks w hw task (Or.inr (htask.resolve_left (by simp)))
  | stops => exact ⟨h.placed, h.waiting, h.tasks, h.fulfilled⟩
  | flags hw => exact known_gpu h hw fun _ htask => htask
  | accepts =>
    refine ⟨?_, ?_, h.tasks, h.fulfilled⟩
    · intro i gpu hi
      exact h.placed i gpu ((concat_get hi).resolve_right (by simp))
    · intro i task hi
      exact h.waiting i task ((concat_get hi).resolve_right (by simp))
  | moves _ _ hq hplaced => exact known_session h hplaced fun task htask => absurd ⟨task, htask⟩ hq
  | @enqueues i gpu w hp hw =>
    -- all that was known is below the next number but one
    have hnext : Known topo { s with nextTask := s.nextTask + 1 } :=
      ⟨h.placed, fun i task hi => Nat.lt_succ_of_lt (h.waiting i task hi),
        fun w hw task htask => Nat.lt_succ_of_lt (h.tasks w hw task htask),
        fun task htask => Nat.lt_succ_of_lt (h.fulfilled task htask)⟩
    have hqueued : Known topo ({ s with nextTask := s.nextTask + 1 }.gpu gpu { w with queue := w.queue ++ [s.nextTask] }) := by
      refine ⟨hnext.placed, hnext.waiting, ?_, hnext.fulfilled⟩
      intro a ha task htask
      rcases mem_modify ha with ha | ⟨_, _, rfl⟩
      · exact hnext.tasks a ha task htask
      · rcases htask with hheld | hqueued
        · exact hnext.tasks w (List.mem_of_getElem? hw) task (Or.inl hheld)
        · rcases List.mem_append.mp hqueued with hqueued | hnew
          · exact hnext.tasks w (List.mem_of_getElem? hw) task (Or.inr hqueued)
          · cases List.mem_singleton.mp hnew
            exact Nat.lt_succ_self _
    refine known_session hqueued (fun gpu hgpu => by cases hgpu) ?_
    intro task htask
    cases htask
    exact Nat.lt_succ_self _
  | exits hw _ _ => exact known_gpu h hw fun _ htask => Or.inr (htask.resolve_left (by simp))
  | takes hw _ hq =>
    refine known_gpu h hw ?_
    rintro task (hheld | hqueued)
    · cases hheld
      exact Or.inr (by simp [hq])
    · exact Or.inr (by simp [hq, hqueued])
  | @fulfils gpu kept w hw hheld =>
    have hgpu : Known topo (s.gpu gpu { w with worker := .idle }) :=
      known_gpu h hw fun _ htask => Or.inr (htask.resolve_left (by simp))
    refine ⟨hgpu.placed, hgpu.waiting, hgpu.tasks, ?_⟩
    intro task htask
    rcases List.mem_cons.mp htask with rfl | htask
    · exact h.tasks _ (List.mem_of_getElem? hw) task (Or.inl hheld)
    · exact h.fulfilled task htask

theorem known_run (evs : List Ev) : Known topo (run topo backlogThreshold evs) := by
  refine exec_induct (I := Known topo) ?_ fun pre e _ h => known_step h (step_effect _ e)
  have hnone : ∀ {i : Nat} {p : Session}, ¬ (init topo).sessions[i]? = some p := by simp [init]
  refine ⟨fun i gpu hi => absurd hi hnone, fun i task hi => absurd hi hnone, ?_, by simp [init]⟩
  intro w hw task htask
  rw [List.eq_of_mem_replicate hw] at htask
  rcases htask with hheld | hqueued
  · cases hheld
  · cases hqueued

/-- A task put on the queue of a worker that has exited is served by none. -/
theorem enqueue_unserved (h : Known topo s) (hp : s.sessions[i]? = some (.placed gpu)) (hw : s.gpus[gpu]? = some w)
    (hexited : w.worker = .exited) : ¬ AllServed (step topo backlogThreshold s (.enqueue i)) := by
  intro hserved
  have hstep : step topo backlogThreshold s (.enqueue i) =
      { (s.gpu gpu { w with queue := w.queue ++ [s.nextTask] }).session i (.waiting s.nextTask) with
        nextTask := s.nextTask + 1 } := by
    simp only [step, hp, hw]
  rw [hstep] at hserved
  obtain ⟨a, ha, hserves⟩ := hserved i s.nextTask (modify_same _ hp) fun hin =>
    Nat.lt_irrefl _ (h.fulfilled s.nextTask hin)
  rcases mem_modify ha with ha | ⟨_, _, rfl⟩
  · exact Nat.lt_irrefl _ (h.tasks a ha s.nextTask (hserves.imp_right And.right))
  · rcases hserves with hheld | ⟨hin, -⟩
    · cases hexited.symm.trans hheld
    · exact hin hexited

end

/-- In every state of a run, whoever waits for a result has its task with a worker that
    has not exited, or on the queue of one: exactly when no task was put on the queue of a
    worker that had. -/
theorem none_stranded_iff (topo : GpuTopology) (backlogThreshold : Nat) (evs : List Ev) :
    (∀ pre, pre <+: evs → AllServed (run topo backlogThreshold pre)) ↔
      EachStep (step topo backlogThreshold) EnqueuesLive (init topo) evs := by
  refine ⟨?_, ?_⟩
  · intro h
    refine eachStep_iff.mpr ?_
    rintro pre e hpre i gpu w rfl hp hw hexited
    have hserved := h _ hpre
    rw [run, exec_concat] at hserved
    exact enqueue_unserved (known_run pre) hp hw hexited hserved
  · intro h pre hpre
    have hpre : EachStep (step topo backlogThreshold) EnqueuesLive (init topo) pre :=
      eachStep_iff.mpr fun a e ha => eachStep_iff.mp h a e (ha.trans hpre)
    refine exec_each (I := AllServed) hpre ?_ ?_
    · intro i task hi
      cases hi
    · intro s e hs hlive
      exact allServed_step hs hlive (step_effect s e)

def oneGpu : GpuTopology :=
  { numGpus := 1, linkKind := fun _ _ => .self, linkBandwidth := fun _ _ => 1000, counted := by decide }

/-- A session reads its request; the server is stopped and the worker leaves; the session
    puts its task on the queue. -/
def lateEnqueue : List Ev :=
  [.start, .accept, .check 0, .read 0 true, .place 0 (some {}), .stop, .flag 0, .work 0, .enqueue 0]

theorem a_late_task_is_stranded : Stranded (run oneGpu 32 lateEnqueue) 0 := by
  have hend : run oneGpu 32 lateEnqueue =
      { running := false, gpus := [{ queue := [0], stopping := true, worker := .exited }], sessions := [.waiting 0]
        fulfilled := [], nextTask := 1 } := by
    decide +kernel
  rw [hend]
  refine ⟨0, rfl, by simp, ?_⟩
  rintro ⟨w, hw, hheld | ⟨hin, -⟩⟩
  · cases List.mem_singleton.mp hw
    cases hheld
  · cases List.mem_singleton.mp hw
    exact hin rfl

/-! ## A stranded session stays so -/

section
variable {topo : GpuTopology} {backlogThreshold : Nat} {s s' : St} {i gpu task : Nat} {w w' : WorkerState}

theorem unserved_gpu (h : ¬ Served s task) (hw : s.gpus[gpu]? = some w) (hserves : w'.Serves task → w.Serves task) :
    ¬ Served (s.gpu gpu w') task := by
  rintro ⟨a, ha, hs⟩
  rcases mem_modify ha with ha | ⟨_, _, rfl⟩
  · exact h ⟨a, ha, hs⟩
  · exact h ⟨w, List.mem_of_getElem? hw, hserves hs⟩

theorem stranded_step (hk : Known topo s) (h : Stranded s i) {e : Ev} (heff : Effect topo s e s') : Stranded s' i := by
  obtain ⟨task, hi, hpromise, hnone⟩ := h
  cases heff with
  | idle => exact ⟨task, hi, hpromise, hnone⟩
  | starts hleft _ => cases hleft _ (List.mem_of_getElem? hi)
  | stops => exact ⟨task, hi, hpromise, hnone⟩
  | flags hw => exact ⟨task, hi, hpromise, unserved_gpu hnone hw fun hs => hs⟩
  | accepts =>
    refine ⟨task, ?_, hpromise, hnone⟩
    rw [List.getElem?_append_left (List.getElem?_eq_some_iff.mp hi).1]
    exact hi
  | @moves _ j p q hp hkept _ _ =>
    refine ⟨task, ?_, hpromise, hnone⟩
    by_cases hij : j = i
    · subst hij
      rw [hi] at hp
      cases hp
      exact absurd (hkept task rfl) hpromise
    · exact (modify_other _ hij).trans hi
  | @enqueues j gpu w hp hw =>
    have hij : j ≠ i := by
      rintro rfl
      rw [hi] at hp
      cases hp
    refine ⟨task, (modify_other _ hij).trans hi, hpromise, ?_⟩
    -- the task that is new has another number
    refine unserved_gpu hnone hw ?_
    rintro (hheld | ⟨hin, hqueued⟩)
    · exact Or.inl hheld
    · rcases List.mem_append.mp hqueued with hqueued | hnew
      · exact Or.inr ⟨hin, hqueued⟩
      · have := hk.waiting i task hi
        cases List.mem_singleton.mp hnew
        omega
  | exits hw _ _ =>
    refine ⟨task, hi, hpromise, unserved_gpu hnone hw ?_⟩
    rintro (hheld | ⟨hin, -⟩)
    · cases hheld
    · exact absurd rfl hin
  | takes hw hidle hq =>
    refine ⟨task, hi, hpromise, unserved_gpu hnone hw ?_⟩
    rintro (hheld | ⟨-, hqueued⟩)
    · cases hheld
      exact Or.inr ⟨by simp [hidle], by simp [hq]⟩
    · exact Or.inr ⟨by simp [hidle], by simp [hq, hqueued]⟩
  | @fulfils gpu kept w hw hheld =>
    have hother : task ≠ kept := by
      rintro rfl
      exact hnone ⟨w, List.mem_of_getElem? hw, Or.inl hheld⟩
    refine ⟨task, hi, by simp [hother, hpromise], unserved_gpu hnone hw ?_⟩
    rintro (hheld' | ⟨-, hqueued⟩)
    · cases hheld'
    · exact Or.inr ⟨by simp [hheld], hqueued⟩

/-- `join_all` waits for every session to leave; this one never does. -/
theorem stranded_forever (evs later : List Ev) (h : Stranded (run topo backlogThreshold evs) i) :
    Stranded (run topo backlogThreshold (evs ++ later)) i := by
  rw [run, exec_append]
  have hboth : Known topo (exec (step topo backlogThreshold) (run topo backlogThreshold evs) later) ∧
      Stranded (exec (step topo backlogThreshold) (run topo backlogThreshold evs) later) i := by
    refine exec_induct (I := fun s => Known topo s ∧ Stranded s i) ⟨known_run evs, h⟩ ?_
    rintro pre e _ ⟨hk, hs⟩
    exact ⟨known_step hk (step_effect _ e), stranded_step hk hs (step_effect _ e)⟩
  exact hboth.2

end

end Overhauled.Adi
