/-
  Overhauled.Adi.Lanes — the threads of `src/gpu_runtime_server.cpp` together: the threads of
  the clients draw queues in turn and push their tasks, the worker of each GPU takes them up
  on its sixteen lanes (`gpu_worker_thread`), and the models are in one table. A run is any
  interleaving of requests, pushes and turns of the workers. Between a thread's draw
  (`rr_counter.fetch_add`) and its push others may draw and push, so tasks can be in a queue
  in another order than they drew it.

  (1) The buffers on the device are grown before they are used. Whatever the peers send,
  every copy into and out of them is inside (`device_copies_inside`), and a lane's execution
  context, which may still be that of a model since replaced under its id, has room in them.

  (2) The accesses to the bytes the peers sent are inside exactly when each request has its
  word or header and each task taken up the input of its model (`host_accesses_inside_iff`).
  Payloads that are long enough for the largest model that is ever loaded see to that
  (`host_accesses_inside`).

  (3) Every task that was pushed is in one queue, on one lane or answered, and only once
  (`tasks_accounted`).

  Assumed: the model table is read and written as a whole, although `ModelManager` has no
  lock for it. A promise counts from its push, before which nobody waits for it. What a
  payload without its word or header leads to is undefined in the source; it is taken here
  for one with nothing behind them, and (2) says when there is none. A CUDA call that fails
  ends the process (`CUDA_CHECK`), and a run with it. More happens here than in the server: a
  client need not wait for its answer before its next request. What TensorRT makes of a file,
  and when a stream is done, is the environment's part.
-/

import Overhauled.Machine.Threads
import Overhauled.Adi.Inference

namespace Overhauled.Adi.Lanes

open Wire Machine Overhauled.Adi.Runtime Overhauled.Adi.Inference

structure InferenceTask where
  modelId : UInt32 := 0
  inputPayload : Bytes := []
  /-- Which of the promises made so far. -/
  promise : Nat := 0
  deriving DecidableEq

structure StreamLane where
  context : Option TrtModelInstance := none
  activeModelId : UInt32 := 0
  inputCap : UInt64 := 0
  outputCap : UInt64 := 0
  currentTask : InferenceTask := {}
  outputSize : UInt64 := 0
  inFlight : Bool := false

/-- The lane takes up a task. -/
def StreamLane.start (lane : StreamLane) (model : TrtModelInstance) (task : InferenceTask) : StreamLane :=
  let change := lane.activeModelId != task.modelId || lane.context.isNone
  { context := if change then some model else lane.context
    activeModelId := if change then task.modelId else lane.activeModelId
    inputCap := if lane.inputCap < model.totalInputBytes then model.totalInputBytes else lane.inputCap
    outputCap := if lane.outputCap < model.totalOutputBytes then model.totalOutputBytes else lane.outputCap
    outputSize := model.totalOutputBytes
    currentTask := task
    inFlight := true }

/-- And is done with it. -/
def StreamLane.land (lane : StreamLane) : StreamLane := { lane with inFlight := false }

/-- What a promise is given: an output of `size` bytes. -/
structure Answer where
  promise : Nat
  size : UInt64
  deriving DecidableEq

def numStreamsPerGpu : Nat := 16

structure Worker where
  queue : List InferenceTask := []
  lanes : List StreamLane := List.replicate numStreamsPerGpu {}

/-- A worker comes by a lane, in the first of its loops or in the second. -/
inductive Turn where
  /-- The lane's stream is done. -/
  | finish (lane : Nat)
  | launch (lane : Nat)

namespace Worker

/-- The lane, when it is free, and the task it takes from the queue. -/
def next (w : Worker) (i : Nat) : Option (StreamLane × InferenceTask) :=
  match w.lanes[i]?, w.queue with
  | some lane, task :: _ => if lane.inFlight then none else some (lane, task)
  | _, _ => none

/-- A free lane, the task it takes up and the task's model. -/
structure Uptake where
  lane : StreamLane
  task : InferenceTask
  model : TrtModelInstance

def uptake (models : Models) (w : Worker) (i : Nat) : Option Uptake :=
  match w.next i with
  | none => none
  | some (lane, task) => (models task.modelId).map fun model => ⟨lane, task, model⟩

/-- The lane, when it has a task to be done with. -/
def done (w : Worker) (i : Nat) : Option StreamLane := w.lanes[i]?.filter (·.inFlight)

def turn (models : Models) (w : Worker) : Turn → Worker × List Answer
  | .finish i =>
    match w.done i with
    | none => (w, [])
    | some lane => ({ w with lanes := w.lanes.modify i (·.land) }, [⟨lane.currentTask.promise, lane.outputSize⟩])
  | .launch i =>
    match w.next i with
    | none => (w, [])
    | some (_, task) =>
      match models task.modelId with
      | none => ({ w with queue := w.queue.tail }, [⟨task.promise, 0⟩])
      | some model => ({ queue := w.queue.tail, lanes := w.lanes.modify i (·.start model task) }, [])

end Worker

/-- A task in the hands of a client's thread, which has a queue for it. -/
structure Drawn where
  qIdx : Nat
  /-- Which of the draws it was. -/
  draw : Nat
  modelId : UInt32
  inputPayload : Bytes
  deriving DecidableEq

structure St where
  models : Models := fun _ => none
  workers : List Worker
  rrCounter : UInt32 := 0
  /-- How many draws there were. -/
  draws : Nat := 0
  /-- The tasks that are not pushed yet. -/
  drawn : List Drawn := []
  /-- The draws of those that were, in the order of the pushes. -/
  pushed : List Nat := []
  answers : List Answer := []

/-- How many promises were made. -/
def St.promises (s : St) : Nat := s.pushed.length

def start (numGpus : Nat) : St := { workers := List.replicate numGpus {} }

/-- `rr_counter.fetch_add(1) % queues.size()`. -/
def St.draw (s : St) (modelId : UInt32) (input : Bytes) : St :=
  { s with
    drawn := s.drawn ++ [⟨s.rrCounter.toNat % s.workers.length, s.draws, modelId, input⟩]
    rrCounter := s.rrCounter + 1
    draws := s.draws + 1 }

def Worker.push (w : Worker) (task : InferenceTask) : Worker := { w with queue := w.queue ++ [task] }

/-- The task, with the next promise. -/
def Drawn.task (d : Drawn) (promise : Nat) : InferenceTask := ⟨d.modelId, d.inputPayload, promise⟩

/-- `queues[q_idx]->push`, by the thread that has the `k`-th of the tasks. -/
def St.push (s : St) (k : Nat) : St :=
  match s.drawn[k]? with
  | none => s
  | some d =>
    { s with
      workers := s.workers.modify d.qIdx (·.push (d.task s.promises))
      drawn := s.drawn.eraseIdx k
      pushed := s.pushed ++ [d.draw] }

inductive Ev where
  /-- A client's thread has a request; `built` is what TensorRT makes of the file at a path. -/
  | request (p : Packet) (built : Bytes → Option TrtModelInstance)
  | push (k : Nat)
  | turn (gpu : Nat) (t : Turn)

section
variable (host : Host)

def step (s : St) : Ev → St
  | .request p built =>
    match p.handle host with
    | .load modelId onnxPath => { s with models := loadOnnxModel s.models modelId (built onnxPath) }
    | .infer modelId input => s.draw modelId input
    | .nothing => s
  | .push k => s.push k
  | .turn gpu t =>
    match s.workers[gpu]? with
    | none => s
    | some w =>
      { s with
        workers := s.workers.modify gpu fun w => (w.turn s.models t).1
        answers := s.answers ++ (w.turn s.models t).2 }

end

/-! ## What a turn does -/

namespace Worker

variable {models : Models} {w : Worker} {i : Nat}

theorem next_some {lane : StreamLane} {task : InferenceTask} (h : w.next i = some (lane, task)) :
    w.lanes[i]? = some lane ∧ lane.inFlight = false ∧ ∃ queue, w.queue = task :: queue := by
  unfold next at h
  split at h
  next lane' task' queue hlane hqueue =>
    split at h
    next => cases h
    next hfree =>
      cases h
      exact ⟨hlane, Bool.eq_false_of_not_eq_true hfree, queue, hqueue⟩
  next => cases h

theorem uptake_some {u : Uptake} (h : w.uptake models i = some u) :
    u.task ∈ w.queue ∧ models u.task.modelId = some u.model := by
  unfold uptake at h
  split at h
  next => cases h
  next lane task hnext =>
    obtain ⟨-, -, queue, hqueue⟩ := next_some hnext
    obtain ⟨model, hmodel, rfl⟩ := Option.map_eq_some_iff.mp h
    exact ⟨hqueue ▸ List.mem_cons_self, hmodel⟩

theorem done_some {lane : StreamLane} (h : w.done i = some lane) : w.lanes[i]? = some lane ∧ lane.inFlight = true :=
  Option.filter_eq_some_iff.mp h

/-- A turn does nothing, answers a task that is done, refuses one whose model is not there,
    or takes one up. -/
theorem turn_cases (models : Models) (w : Worker) (t : Turn) :
    w.turn models t = (w, []) ∨
      (∃ i lane, w.lanes[i]? = some lane ∧ lane.inFlight = true ∧
        w.turn models t = ({ w with lanes := w.lanes.modify i (·.land) }, [⟨lane.currentTask.promise, lane.outputSize⟩])) ∨
      ∃ i lane task queue, w.lanes[i]? = some lane ∧ lane.inFlight = false ∧ w.queue = task :: queue ∧
        (w.turn models t = ({ w with queue }, [⟨task.promise, 0⟩]) ∨
          ∃ model, models task.modelId = some model ∧
            w.turn models t = (⟨queue, w.lanes.modify i (·.start model task)⟩, [])) := by
  cases t with
  | finish i =>
    simp only [turn]
    cases hdone : w.done i with
    | none => exact Or.inl rfl
    | some lane => exact Or.inr (Or.inl ⟨i, lane, (done_some hdone).1, (done_some hdone).2, rfl⟩)
  | launch i =>
    simp only [turn]
    cases hnext : w.next i with
    | none => exact Or.inl rfl
    | some found =>
      obtain ⟨lane, task⟩ := found
      obtain ⟨hlane, hfree, queue, hqueue⟩ := next_some hnext
      refine Or.inr (Or.inr ⟨i, lane, task, queue, hlane, hfree, hqueue, ?_⟩)
      cases hmodel : models task.modelId with
      | none => exact Or.inl (by simp only [hmodel, hqueue, List.tail_cons])
      | some model => exact Or.inr ⟨model, rfl, by simp only [hmodel, hqueue, List.tail_cons]⟩

end Worker

/-- What every turn and every push keeps of a worker, every step keeps of all of them. -/
theorem forall_workers_step {host : Host} {P : Worker → Prop} {s : St} {e : Ev} (hs : ∀ w ∈ s.workers, P w)
    (hturn : ∀ w t, P w → P (w.turn s.models t).1)
    (hpush : ∀ d ∈ s.drawn, ∀ w, P w → P (w.push (d.task s.promises))) :
    ∀ w ∈ (step host s e).workers, P w := by
  cases e with
  | request p built =>
    simp only [step]
    split
    next => exact hs
    next => exact hs
    next => exact hs
  | push k =>
    simp only [step, St.push]
    split
    next => exact hs
    next d hd =>
      refine forall_mem_modify hs fun w hw => ?_
      exact hpush d (List.mem_of_getElem? hd) w (hs w (List.mem_of_getElem? hw))
  | turn gpu t =>
    simp only [step]
    split
    next => exact hs
    next => exact forall_mem_modify hs fun w hw => hturn w t (hs w (List.mem_of_getElem? hw))

/-! ## (1) The device -/

/-- Bytes of a buffer of `size` bytes. -/
structure Touch where
  access : Access
  size : Nat

def Touch.Inside (t : Touch) : Prop := t.access.InRange t.size

theorem Touch.read_inside {n size : Nat} (h : n ≤ size) : Touch.Inside ⟨.read 0 n, size⟩ :=
  Access.inRange_read_iff.mpr (Or.inr ((Nat.zero_add n).symm ▸ h))

/-- The copies from and to the buffers on the device, `d_output` and `d_input`. -/
def Worker.deviceCopies (models : Models) (w : Worker) : Turn → List Touch
  | .finish i =>
    match w.done i with
    | none => []
    | some lane => [⟨.read 0 lane.outputSize.toNat, lane.outputCap.toNat⟩]
  | .launch i =>
    match w.uptake models i with
    | none => []
    | some u => [⟨.read 0 u.model.totalInputBytes.toNat, (u.lane.start u.model u.task).inputCap.toNat⟩]

def deviceCopies (s : St) : Ev → Option (List Touch)
  | .request _ _ | .push _ => none
  | .turn gpu t => s.workers[gpu]?.map fun w => w.deviceCopies s.models t

/-- What is under way, and the engine of the lane's context, have room in its buffers. -/
structure StreamLane.Fits (lane : StreamLane) : Prop where
  output : lane.inFlight = true → lane.outputSize ≤ lane.outputCap
  context : ∀ model, lane.context = some model →
    model.totalInputBytes ≤ lane.inputCap ∧ model.totalOutputBytes ≤ lane.outputCap

/-- `cudaMalloc` after the comparison: the capacity covers the need, and never shrinks. -/
theorem grown (cap need : UInt64) :
    need ≤ (if cap < need then need else cap) ∧ cap ≤ (if cap < need then need else cap) := by
  split
  next h => exact ⟨UInt64.le_refl _, UInt64.le_of_lt h⟩
  next h => exact ⟨UInt64.not_lt.mp h, UInt64.le_refl _⟩

theorem StreamLane.Fits.start {lane : StreamLane} (h : lane.Fits) (model : TrtModelInstance) (task : InferenceTask) :
    (lane.start model task).Fits where
  output _ := (grown lane.outputCap model.totalOutputBytes).1
  context := by
    intro m hm
    have hin := grown lane.inputCap model.totalInputBytes
    have hout := grown lane.outputCap model.totalOutputBytes
    simp only [StreamLane.start] at hm
    split at hm
    next =>
      cases hm
      exact ⟨hin.1, hout.1⟩
    next =>
      -- the context of an earlier task, for which the buffers were large enough already
      obtain ⟨hold, hold'⟩ := h.context m hm
      exact ⟨UInt64.le_trans hold hin.2, UInt64.le_trans hold' hout.2⟩

theorem StreamLane.Fits.land {lane : StreamLane} (h : lane.Fits) : lane.land.Fits where
  output := by
    intro hflight
    cases hflight
  context := h.context

theorem Worker.fits_turn (models : Models) {w : Worker} (t : Turn) (h : ∀ lane ∈ w.lanes, lane.Fits) :
    ∀ lane ∈ (w.turn models t).1.lanes, lane.Fits := by
  rcases w.turn_cases models t with hturn | ⟨i, lane, hlane, -, hturn⟩ | ⟨i, lane, task, queue, hlane, -, -, hturn | ⟨model, -, hturn⟩⟩
  · rw [hturn]
    exact h
  · rw [hturn]
    exact forall_mem_modify h fun l hl => (h l (List.mem_of_getElem? hl)).land
  · rw [hturn]
    exact h
  · rw [hturn]
    exact forall_mem_modify h fun l hl => (h l (List.mem_of_getElem? hl)).start model task

theorem Worker.deviceCopies_inside (models : Models) {w : Worker} (t : Turn) (h : ∀ lane ∈ w.lanes, lane.Fits) :
    ∀ c ∈ w.deviceCopies models t, c.Inside := by
  intro c hc
  cases t with
  | finish i =>
    simp only [deviceCopies] at hc
    cases hdone : w.done i with
    | none => simp [hdone] at hc
    | some lane =>
      simp only [hdone, List.mem_singleton] at hc
      rw [hc]
      obtain ⟨hlane, hflight⟩ := done_some hdone
      exact Touch.read_inside (UInt64.le_iff_toNat_le.mp ((h lane (List.mem_of_getElem? hlane)).output hflight))
  | launch i =>
    simp only [deviceCopies] at hc
    cases huptake : w.uptake models i with
    | none => simp [huptake] at hc
    | some u =>
      simp only [huptake, List.mem_singleton] at hc
      rw [hc]
      exact Touch.read_inside (UInt64.le_iff_toNat_le.mp (grown u.lane.inputCap u.model.totalInputBytes).1)

section
variable {host : Host}

theorem lanes_fit (numGpus : Nat) (es : List Ev) :
    ∀ w ∈ (exec (step host) (start numGpus) es).workers, ∀ lane ∈ w.lanes, lane.Fits := by
  refine exec_induct (I := fun s : St => ∀ w ∈ s.workers, ∀ lane ∈ w.lanes, lane.Fits) ?_ fun pre e _ hs => ?_
  · intro w hw lane hlane
    rw [List.eq_of_mem_replicate hw] at hlane
    rw [List.eq_of_mem_replicate hlane]
    refine ⟨?_, ?_⟩
    · intro hflight
      cases hflight
    · intro model hmodel
      cases hmodel
  · exact forall_workers_step hs (fun w t hw => Worker.fits_turn _ t hw) fun _ _ w hw => hw

/-- Whatever the peers send and whichever models they load, every copy into and out of a
    buffer on the device is inside it. -/
theorem device_copies_inside (numGpus : Nat) (es : List Ev) :
    ∀ cs ∈ trace (step host) deviceCopies (start numGpus) es, ∀ c ∈ cs, c.Inside := by
  rw [forall_trace, eachStep_iff]
  intro pre e _ cs hcs
  cases e with
  | request p built => cases hcs
  | push k => cases hcs
  | turn gpu t =>
    obtain ⟨w, hw, rfl⟩ := Option.map_eq_some_iff.mp hcs
    exact Worker.deviceCopies_inside _ t (lanes_fit numGpus pre w (List.mem_of_getElem? hw))

/-- A model of four bytes is loaded as number 0, asked for and taken up. -/
def launchOne : List Ev :=
  [.request (Packet.ofPayload loadModel (List.replicate 5 0) (by decide)) fun _ => some fourBytes,
    .request (Packet.ofPayload executeInference (List.replicate 16 0) (by decide)) fun _ => none,
    .push 0, .turn 0 (.launch 0)]

theorem device_copies_inside_launchOne :
    [⟨.read 0 4, 4⟩] ∈ trace (step .little) deviceCopies (start 1) launchOne ∧ Touch.Inside ⟨.read 0 4, 4⟩ := by
  have hmem : [⟨.read 0 4, 4⟩] ∈ trace (step .little) deviceCopies (start 1) launchOne := List.mem_singleton_self _
  exact ⟨hmem, device_copies_inside 1 launchOne _ hmem _ (List.mem_singleton_self _)⟩

end

/-! ## (2) The bytes the peers sent -/

/-- What a worker reads of the input of a task it takes up. -/
def Worker.inputCopies (models : Models) (w : Worker) : Turn → List Touch
  | .finish _ => []
  | .launch i =>
    match w.uptake models i with
    | none => []
    | some u => [⟨copyIn u.model, u.task.inputPayload.length⟩]

def hostAccesses (s : St) : Ev → Option (List Touch)
  | .request p _ => some (p.accesses.map fun a => ⟨a, p.payload.length⟩)
  | .push _ => none
  | .turn gpu t => s.workers[gpu]?.map fun w => w.inputCopies s.models t

/-- The request has its word or header, the task taken up its model's input. -/
def LongEnough (s : St) : Ev → Prop
  | .request p _ =>
    (p.header.opcode = loadModel → 4 ≤ p.payload.length) ∧ (p.header.opcode = executeInference → 12 ≤ p.payload.length)
  | .push _ | .turn _ (.finish _) => True
  | .turn gpu (.launch i) =>
    ∀ w, s.workers[gpu]? = some w →
      ∀ u, w.uptake s.models i = some u → u.model.totalInputBytes.toNat ≤ u.task.inputPayload.length

theorem Worker.inputCopies_launch_iff {models : Models} {w : Worker} {i : Nat} :
    (∀ c ∈ w.inputCopies models (.launch i), c.Inside) ↔
      ∀ u, w.uptake models i = some u → u.model.totalInputBytes.toNat ≤ u.task.inputPayload.length := by
  simp only [inputCopies]
  cases w.uptake models i with
  | none => simp
  | some u => simp [Touch.Inside, copyIn_iff]

section
variable {host : Host}

theorem hostAccesses_inside_iff (s : St) (e : Ev) :
    (∀ cs, hostAccesses s e = some cs → ∀ c ∈ cs, c.Inside) ↔ LongEnough s e := by
  cases e with
  | request p built =>
    simp only [hostAccesses, LongEnough, Option.some.injEq, forall_eq', List.forall_mem_map]
    exact p.accesses_inside_iff
  | push k => simp [hostAccesses, LongEnough]
  | turn gpu t =>
    simp only [hostAccesses]
    cases hw : s.workers[gpu]? with
    | none => cases t <;> simp [LongEnough, hw]
    | some w =>
      cases t with
      | finish i => simp [LongEnough, Worker.inputCopies]
      | launch i => simp [LongEnough, hw, Worker.inputCopies_launch_iff]

/-- From any state, a run stays inside the bytes the peers sent exactly when each of its
    steps finds enough of them. -/
theorem host_accesses_inside_iff (s : St) (es : List Ev) :
    (∀ cs ∈ trace (step host) hostAccesses s es, ∀ c ∈ cs, c.Inside) ↔ EachStep (step host) LongEnough s es := by
  rw [forall_trace]
  exact eachStep_congr hostAccesses_inside_iff

/-- Requests that are long enough wherever a model takes at most `bound` bytes, and files that
    are such models. -/
def Generous (bound : Nat) : Ev → Prop
  | .request p built =>
    (p.header.opcode = loadModel → 4 ≤ p.payload.length) ∧
      (p.header.opcode = executeInference → 12 + bound ≤ p.payload.length) ∧
      ∀ path model, built path = some model → model.totalInputBytes.toNat ≤ bound
  | .push _ | .turn _ _ => True

/-- No model takes more than `bound` bytes, and no task on its way to a lane has fewer. -/
structure Ample (bound : Nat) (s : St) : Prop where
  models : ∀ modelId model, s.models modelId = some model → model.totalInputBytes.toNat ≤ bound
  drawn : ∀ d ∈ s.drawn, bound ≤ d.inputPayload.length
  tasks : ∀ w ∈ s.workers, ∀ task ∈ w.queue, bound ≤ task.inputPayload.length

theorem Worker.queue_turn (models : Models) {w : Worker} (t : Turn) {task : InferenceTask}
    (h : task ∈ (w.turn models t).1.queue) : task ∈ w.queue := by
  rcases w.turn_cases models t with hturn | ⟨i, lane, -, -, hturn⟩ | ⟨i, lane, task', queue, -, -, hqueue, hturn | ⟨model, -, hturn⟩⟩
  · rwa [hturn] at h
  · rwa [hturn] at h
  · rw [hturn] at h
    rw [hqueue]
    exact List.mem_cons_of_mem _ h
  · rw [hturn] at h
    rw [hqueue]
    exact List.mem_cons_of_mem _ h

theorem models_step {s : St} {e : Ev} {modelId : UInt32} {model : TrtModelInstance}
    (h : (step host s e).models modelId = some model) :
    s.models modelId = some model ∨ ∃ p built path, e = .request p built ∧ built path = some model := by
  cases e with
  | request p built =>
    simp only [step] at h
    split at h
    next id path _ =>
      cases hbuilt : built path with
      | none =>
        simp only [hbuilt, loadOnnxModel] at h
        exact Or.inl h
      | some m =>
        simp only [hbuilt, loadOnnxModel, Function.update_apply] at h
        split at h
        next =>
          cases h
          exact Or.inr ⟨p, built, path, rfl, hbuilt⟩
        next => exact Or.inl h
    next => exact Or.inl h
    next => exact Or.inl h
  | push k =>
    simp only [step, St.push] at h
    split at h
    next => exact Or.inl h
    next => exact Or.inl h
  | turn gpu t =>
    simp only [step] at h
    split at h
    next => exact Or.inl h
    next => exact Or.inl h

theorem drawn_step {s : St} {e : Ev} {d : Drawn} (h : d ∈ (step host s e).drawn) :
    d ∈ s.drawn ∨ ∃ p built, e = .request p built ∧ p.handle host = .infer d.modelId d.inputPayload := by
  cases e with
  | request p built =>
    simp only [step] at h
    split at h
    next => exact Or.inl h
    next modelId input hhandle =>
      rcases List.mem_append.mp h with h | h
      · exact Or.inl h
      · rw [List.mem_singleton.mp h]
        exact Or.inr ⟨p, built, rfl, hhandle⟩
    next => exact Or.inl h
  | push k =>
    simp only [step, St.push] at h
    split at h
    next => exact Or.inl h
    next => exact Or.inl (List.mem_of_mem_eraseIdx h)
  | turn gpu t =>
    simp only [step] at h
    split at h
    next => exact Or.inl h
    next => exact Or.inl h

theorem ample_step {bound : Nat} (s : St) (e : Ev) (hs : Ample bound s) (he : Generous bound e) :
    Ample bound (step host s e) where
  models := by
    intro modelId model hmodel
    rcases models_step hmodel with hold | ⟨p, built, path, rfl, hbuilt⟩
    · exact hs.models modelId model hold
    · exact he.2.2 path model hbuilt
  drawn := by
    intro d hd
    rcases drawn_step hd with hold | ⟨p, built, rfl, hhandle⟩
    · exact hs.drawn d hold
    · obtain ⟨hop, -, hinput⟩ := Packet.handle_infer_iff.mp hhandle
      have hlong := he.2.1 hop
      rw [hinput, List.length_drop]
      omega
  tasks := by
    refine forall_workers_step hs.tasks (fun w t hw task htask => hw task (Worker.queue_turn _ t htask)) ?_
    intro d hd w hw task htask
    rcases List.mem_append.mp htask with htask | htask
    · exact hw task htask
    · rw [List.mem_singleton.mp htask]
      exact hs.drawn d hd

theorem longEnough_of_ample {bound : Nat} {s : St} {e : Ev} (hs : Ample bound s) (he : Generous bound e) :
    LongEnough s e := by
  cases e with
  | request p built => exact ⟨he.1, fun hop => Nat.le_of_add_right_le (he.2.1 hop)⟩
  | push k => trivial
  | turn gpu t =>
    cases t with
    | finish i => trivial
    | launch i =>
      intro w hw u hu
      obtain ⟨hqueue, hmodel⟩ := Worker.uptake_some hu
      have hinput := hs.tasks w (List.mem_of_getElem? hw) u.task hqueue
      have htotal := hs.models _ _ hmodel
      omega

/-- With payloads that have room for the largest model, in whatever order things happen, the
    server stays inside the bytes its peers sent. -/
theorem host_accesses_inside (numGpus bound : Nat) (es : List Ev) (h : ∀ e ∈ es, Generous bound e) :
    ∀ cs ∈ trace (step host) hostAccesses (start numGpus) es, ∀ c ∈ cs, c.Inside := by
  rw [host_accesses_inside_iff]
  have hrun : EachStep (step host) (fun _ e => Generous bound e) (start numGpus) es := by
    refine eachStep_iff.mpr fun pre e hpre => h e (hpre.subset ?_)
    exact List.mem_append_right pre List.mem_cons_self
  refine hrun.mono (I := Ample bound) ⟨?_, ?_, ?_⟩ ample_step fun s e => longEnough_of_ample
  · intro modelId model hmodel
    cases hmodel
  · intro d hd
    cases hd
  · intro w hw task htask
    rw [List.eq_of_mem_replicate hw] at htask
    cases htask

end

/-! ## (3) Every task has its place -/

def StreamLane.holds (lane : StreamLane) : List Nat := if lane.inFlight then [lane.currentTask.promise] else []

def Worker.holds (w : Worker) : List Nat := w.queue.map (·.promise) ++ w.lanes.flatMap (·.holds)

theorem Worker.holds_push (w : Worker) (task : InferenceTask) : (w.push task).holds.Perm (task.promise :: w.holds) := by
  simp only [holds, push, List.map_append, List.map_cons, List.map_nil, List.append_assoc, List.singleton_append]
  exact List.perm_middle

/-- A turn answers some of what the worker holds, and holds the rest. -/
theorem Worker.holds_turn (models : Models) (w : Worker) (t : Turn) :
    ((w.turn models t).2.map (·.promise) ++ (w.turn models t).1.holds).Perm w.holds := by
  rcases w.turn_cases models t with
    hturn | ⟨i, lane, hlane, hflight, hturn⟩ | ⟨i, lane, task, queue, hlane, hfree, hqueue, hturn | ⟨model, -, hturn⟩⟩
  · rw [hturn]
    exact List.Perm.refl _
  · have hlanes := flatMap_modify_perm (g := StreamLane.holds) (·.land) hlane
    have hbefore : lane.holds = [lane.currentTask.promise] := if_pos hflight
    have hafter : lane.land.holds = [] := rfl
    rw [hbefore, hafter] at hlanes
    rw [hturn]
    show (lane.currentTask.promise :: (w.queue.map (·.promise) ++ (w.lanes.modify i (·.land)).flatMap (·.holds))).Perm _
    exact List.perm_middle.symm.trans (hlanes.append_left _)
  · rw [hturn]
    simp only [holds, hqueue]
    exact List.Perm.refl _
  · have hlanes := flatMap_modify_perm (g := StreamLane.holds) (·.start model task) hlane
    have hbefore : lane.holds = [] := if_neg (by rw [hfree]; exact Bool.false_ne_true)
    have hafter : (lane.start model task).holds = [task.promise] := rfl
    rw [hbefore, hafter] at hlanes
    rw [hturn]
    simp only [holds, hqueue]
    exact (hlanes.append_left _).trans List.perm_middle

/-- All that the workers hold, after one of them has had its turn. -/
theorem holds_modify_turn {workers : List Worker} {gpu : Nat} {w : Worker} (models : Models) (t : Turn)
    (hw : workers[gpu]? = some w) :
    ((w.turn models t).2.map (·.promise) ++ (workers.modify gpu fun w => (w.turn models t).1).flatMap (·.holds)).Perm
      (workers.flatMap (·.holds)) := by
  have hworkers := flatMap_modify_perm (g := Worker.holds) (fun w => (w.turn models t).1) hw
  -- what this worker held before is on both sides
  refine (List.perm_append_left_iff w.holds).mp ?_
  refine (List.perm_append_comm_assoc ..).trans ((hworkers.append_left _).trans ?_)
  rw [← List.append_assoc]
  exact (w.holds_turn models t).append_right _

theorem holds_modify_push {workers : List Worker} {gpu : Nat} {w : Worker} (task : InferenceTask)
    (hw : workers[gpu]? = some w) :
    ((workers.modify gpu (·.push task)).flatMap (·.holds)).Perm (task.promise :: workers.flatMap (·.holds)) := by
  have hworkers := flatMap_modify_perm (g := Worker.holds) (·.push task) hw
  refine (List.perm_append_left_iff w.holds).mp (hworkers.trans ?_)
  exact ((w.holds_push task).append_right _).trans List.perm_middle.symm

/-- There is a GPU, every draw is of a queue, and each promise made is in one place. -/
structure Accounted (s : St) : Prop where
  gpus : 0 < s.workers.length
  drawn : ∀ d ∈ s.drawn, d.qIdx < s.workers.length
  places : (s.answers.map (·.promise) ++ s.workers.flatMap (·.holds)).Perm (List.range s.promises)

section
variable {host : Host}

theorem Accounted.draw {s : St} (hs : Accounted s) (modelId : UInt32) (input : Bytes) : Accounted (s.draw modelId input) where
  gpus := hs.gpus
  drawn := by
    intro d hd
    rcases List.mem_append.mp hd with hd | hd
    · exact hs.drawn d hd
    · rw [List.mem_singleton.mp hd]
      exact Nat.mod_lt s.rrCounter.toNat hs.gpus
  places := hs.places

theorem Accounted.push {s : St} (hs : Accounted s) (k : Nat) : Accounted (s.push k) := by
  unfold St.push
  split
  next => exact hs
  next d hd =>
    have hidx := hs.drawn d (List.mem_of_getElem? hd)
    refine ⟨?_, ?_, ?_⟩
    · rw [List.length_modify]
      exact hs.gpus
    · intro d' hd'
      rw [List.length_modify]
      exact hs.drawn d' (List.mem_of_mem_eraseIdx hd')
    · have hw := holds_modify_push (d.task s.promises) (List.getElem?_eq_getElem hidx)
      have hlength : (s.pushed ++ [d.draw]).length = s.promises + 1 := List.length_append
      refine ((hw.append_left _).trans List.perm_middle).trans ?_
      show List.Perm _ (List.range (s.pushed ++ [d.draw]).length)
      rw [hlength, List.range_succ]
      exact (hs.places.cons _).trans (List.perm_append_singleton ..).symm

theorem Accounted.step {s : St} (hs : Accounted s) (e : Ev) : Accounted (step host s e) := by
  cases e with
  | request p built =>
    simp only [Lanes.step]
    split
    next => exact ⟨hs.gpus, hs.drawn, hs.places⟩
    next => exact hs.draw ..
    next => exact hs
  | push k => exact hs.push k
  | turn gpu t =>
    simp only [Lanes.step]
    split
    next => exact hs
    next w hw =>
      refine ⟨?_, ?_, ?_⟩
      · rw [List.length_modify]
        exact hs.gpus
      · rw [List.length_modify]
        exact hs.drawn
      · rw [List.map_append, List.append_assoc]
        exact ((holds_modify_turn s.models t hw).append_left _).trans hs.places

/-- On a machine with a GPU, whatever happens, every task pushed is answered, in a queue or on
    a lane, and there is no second place that holds its promise. -/
theorem tasks_accounted (numGpus : Nat) (hgpus : 0 < numGpus) (es : List Ev) :
    let s := exec (step host) (start numGpus) es
    (s.answers.map (·.promise) ++ s.workers.flatMap (·.holds)).Perm (List.range s.promises) := by
  have hinv : Accounted (exec (step host) (start numGpus) es) := by
    refine exec_induct ⟨?_, ?_, ?_⟩ fun _ e _ hs => hs.step e
    · rw [start, List.length_replicate]
      exact hgpus
    · intro d hd
      cases hd
    · have hnone : (start numGpus).workers.flatMap (·.holds) = [] := by
        refine List.flatMap_eq_nil_iff.mpr fun w hw => ?_
        rw [List.eq_of_mem_replicate hw]
        rfl
      rw [hnone]
      exact List.Perm.refl _
  exact hinv.places

/-- So `set_value`, which throws the second time, is called at most once on a promise. -/
theorem answers_nodup (numGpus : Nat) (hgpus : 0 < numGpus) (es : List Ev) :
    ((exec (step host) (start numGpus) es).answers.map (·.promise)).Nodup := by
  have hall := (@tasks_accounted host numGpus hgpus es).nodup_iff.mpr List.nodup_range
  exact hall.sublist (List.sublist_append_left ..)

end

end Overhauled.Adi.Lanes
