/-
  Overhauled.Adi.Projection — the two models of `AdiServer` are of one server: `Sessions`,
  with the bytes and the numbers, and `Shutdown`, where a promise is only kept or not.

  `Phase.view` and `WorkerState.view` forget what `Shutdown` leaves out, and `Projects`
  relates the two states. A step of `Sessions` is one step of `Shutdown` or none
  (`projects_step`): reading a part of a request, sending a part of a packet, drawing a home
  and giving it back are none. So every run of `Sessions` is a run of a started `Shutdown`
  (`sessions_project`).

  What `Shutdown` says of waiting sessions thereby holds of those with the bytes: while no
  task is put on the queue of a worker that has gone, whoever waits has its task with a
  worker (`waiters_served`); and a session that has none waits for good
  (`abandoned_forever`).
-/

import Overhauled.Adi.Sessions

namespace Overhauled.Adi.Sessions

open Wire Machine
open Gpu (GpuTopology)
open Wasm (Computed)

def WorkerAt.view : WorkerAt → Worker
  | .idle => .idle
  | .computing task => .holding task.promise
  | .exited => .exited

def WorkerState.view (w : WorkerState) : Adi.WorkerState :=
  { queue := w.queue.map (·.promise), stopping := w.stopping, worker := w.worker.view }

def Phase.view : Phase → Adi.Session
  | .starting | .storing | .top => .top
  | .readLen _ | .readBody _ => .reading
  | .received _ => .received
  | .placed _ gpu => .placed gpu
  | .waiting _ _ promise => .waiting promise
  | .sending _ _ _ _ | .sent _ _ | .outside => .sending
  | .lost | .leaving | .erasing | .closing | .closed => .left

/-- The coarse state is what is seen of the fine one; of the kept promises, which. -/
structure Projects (s : St) (t : Adi.St) : Prop where
  running : t.running = s.running
  gpus : t.gpus = s.gpus.map WorkerState.view
  sessions : t.sessions = s.sessions.map (·.phase.view)
  nextTask : t.nextTask = s.posted.length
  fulfilled : ∀ promise, promise ∈ t.fulfilled ↔ (s.kept promise).isSome = true

/-- If the step puts a task on a queue, the queue's worker has not exited. -/
def PostsLive (s : St) : Ev → Prop
  | .session i .enqueue => ∀ (x : Session) (request : GpuPayload) (gpu : Nat) (w : WorkerState), s.sessions[i]? = some x →
      x.phase = .placed request gpu → s.gpus[gpu]? = some w → w.worker ≠ .exited
  | _ => True

/-! ## One step -/

section
variable {host : Host} {sub : UInt64 → UInt64 → UInt64} {topo : GpuTopology} {backlogThreshold : Nat} {s s' : St}
  {t : Adi.St} {i gpu : Nat} {x x' : Session} {w w' : WorkerState}

theorem Projects.session (h : Projects s t) (hx : s.sessions[i]? = some x) : t.sessions[i]? = some x.phase.view := by
  rw [h.sessions, List.getElem?_map, hx]
  rfl

theorem Projects.worker (h : Projects s t) (hw : s.gpus[gpu]? = some w) : t.gpus[gpu]? = some w.view := by
  rw [h.gpus, List.getElem?_map, hw]
  rfl

/-- A session moves, as far as is seen or not. -/
theorem Projects.put (h : Projects s t) (hrunning : s'.running = s.running) (hgpus : s'.gpus = s.gpus)
    (hkept : s'.kept = s.kept) (hposted : s'.posted = s.posted)
    (hsessions : s'.sessions = s.sessions.modify i fun _ => x') : Projects s' (t.session i x'.phase.view) := by
  refine ⟨h.running.trans hrunning.symm, ?_, ?_, ?_, ?_⟩
  · rw [hgpus]
    exact h.gpus
  · show t.sessions.modify i _ = _
    rw [hsessions, map_modify_const, h.sessions]
  · rw [hposted]
    exact h.nextTask
  · rw [hkept]
    exact h.fulfilled

/-- Nothing is seen of the move. -/
theorem Projects.unseen (h : Projects s t) (hx : s.sessions[i]? = some x) (hview : x'.phase.view = x.phase.view)
    (hrunning : s'.running = s.running) (hgpus : s'.gpus = s.gpus) (hkept : s'.kept = s.kept)
    (hposted : s'.posted = s.posted) (hsessions : s'.sessions = s.sessions.modify i fun _ => x') : Projects s' t := by
  have hput := h.put hrunning hgpus hkept hposted hsessions
  rwa [hview, Adi.St.session, modify_const_self (h.session hx)] at hput

theorem Projects.work (h : Projects s t) : Projects (s.gpu gpu w') (t.gpu gpu w'.view) := by
  refine ⟨h.running, ?_, h.sessions, h.nextTask, h.fulfilled⟩
  show t.gpus.modify gpu _ = (s.gpus.modify gpu _).map _
  rw [map_modify_const, h.gpus]

/-- What is seen of a session that takes a turn. -/
inductive Seen (running : Bool) (kept : Nat → Option (Computed GpuPayload)) : Adi.Session → Adi.Session → Prop
  | same {p : Adi.Session} : Seen running kept p p
  | checks : Seen running kept .top (if running then .reading else .left)
  | reads (ok : Bool) : Seen running kept .reading (if ok then .received else .left)
  | gets {promise : Nat} (ok : Bool) : (kept promise).isSome = true →
      Seen running kept (.waiting promise) (if ok then .sending else .left)
  | sends (ok : Bool) : Seen running kept .sending (if ok then .top else .left)

theorem seen_recv {running : Bool} {kept : Nat → Option (Computed GpuPayload)} (x : Session) (b : Bytes) :
    Seen running kept x.phase.view (recvTurn host x b).phase.view := by
  unfold recvTurn
  split
  next got hp =>
    rw [hp]
    unfold readExact
    split
    next => exact .reads false
    next =>
      unfold gotLength
      dsimp only
      split
      next => exact .same
      next =>
        split
        next => exact .reads false
        next => exact .same
  next got hp =>
    rw [hp]
    unfold readExact
    split
    next => exact .reads false
    next =>
      unfold gotBody
      dsimp only
      split
      next => exact .same
      next => exact .reads true
  next => exact .same

/-- `send_packet` throws, or begins to send. -/
theorem view_startPacket (x : Session) (y : Exchange) (type : PacketType) (now : UInt64) (payload : GpuPayload) :
    (startPacket host x y type now payload).phase.view = .left ∨
      (startPacket host x y type now payload).phase.view = .sending := by
  unfold startPacket
  split
  next => exact Or.inl rfl
  next => exact Or.inr rfl

theorem seen_get {running : Bool} {kept : Nat → Option (Computed GpuPayload)} {request : GpuPayload} {promise : Nat}
    {outcome : Computed GpuPayload} (x : Session) (now : UInt64) (hkept : kept promise = some outcome) :
    Seen running kept (.waiting promise) (getTurn host x request gpu now outcome).phase.view := by
  have hsome : (kept promise).isSome = true := by rw [hkept]; rfl
  cases outcome with
  | threw what => exact .gets false hsome
  | escaped => exact .gets false hsome
  | returned current =>
    rcases @view_startPacket host x { request, gpu, current, primaryAt := now } .primary now current with hview | hview
    · rw [getTurn, hview]
      exact .gets false hsome
    · rw [getTurn, hview]
      exact .gets true hsome

theorem seen_next {running : Bool} {kept : Nat → Option (Computed GpuPayload)} (x : Session) (y : Exchange) (now : UInt64)
    (type : PacketType) : Seen running kept .sending (nextTurn host sub x y now type).phase.view := by
  cases type with
  | delta => exact .sends true
  | primary =>
    simp only [nextTurn]
    split
    next => exact .sends true
    next =>
      split
      next => exact .same
      next delta hdelta =>
        rcases @view_startPacket host x { y with deltaAt := now } .delta now delta with hview | hview
        · rw [hview]
          exact .sends false
        · rw [hview]
          exact .same

theorem seen_turn (running : Bool) (kept : Nat → Option (Computed GpuPayload)) (x : Session) (u : Turn) :
    Seen running kept x.phase.view (turn host sub running kept x u).phase.view := by
  cases u with
  | check =>
    simp only [turn]
    split
    next hp =>
      rw [hp]
      cases running with
      | false => exact .checks
      | true => exact .checks
    next => exact .same
  | recv b => exact seen_recv x b
  | get now =>
    simp only [turn]
    split
    next request gpu promise hp =>
      split
      next => exact .same
      next outcome hkept =>
        rw [hp]
        exact seen_get x now hkept
    next => exact .same
  | send n =>
    simp only [turn]
    split
    next y type left words hp =>
      rw [hp]
      unfold sendTurn
      split
      next => exact .sends false
      next =>
        dsimp only
        split
        next => exact .same
        next =>
          split
          next => exact .same
          next => exact .same
    next => exact .same
  | next now =>
    simp only [turn]
    split
    next y type hp =>
      rw [hp]
      exact seen_next x y now type
    next => exact .same

/-- The coarse machine comes to see the state, and puts no task on a dead queue if the
    condition holds. -/
def Matched (topo : GpuTopology) (backlogThreshold : Nat) (live : Prop) (t : Adi.St) (s' : St) : Prop :=
  ∃ ds, Projects s' (exec (Adi.step topo backlogThreshold) t ds) ∧
    (live → EachStep (Adi.step topo backlogThreshold) EnqueuesLive t ds)

theorem Matched.none {live : Prop} (h : Projects s' t) : Matched topo backlogThreshold live t s' :=
  ⟨[], h, fun _ => trivial⟩

/-- By a step that puts no task on a queue. -/
theorem Matched.one {live : Prop} {t' : Adi.St} (d : Adi.Ev) (hstep : Adi.step topo backlogThreshold t d = t')
    (hd : ∀ i, d ≠ .enqueue i) (h : Projects s' t') : Matched topo backlogThreshold live t s' := by
  refine ⟨[d], by rwa [exec_cons, hstep], fun _ => ⟨?_, trivial⟩⟩
  intro i _ _ hi
  exact absurd hi (hd i)

theorem matched_turn {live : Prop} (h : Projects s t) (hx : s.sessions[i]? = some x) (u : Turn) :
    Matched topo backlogThreshold live t (s.put i (turn host sub s.running s.kept x u)) := by
  have hp := h.session hx
  have hput : Projects (s.put i (turn host sub s.running s.kept x u))
      (t.session i (turn host sub s.running s.kept x u).phase.view) := h.put rfl rfl rfl rfl rfl
  have hseen := @seen_turn host sub s.running s.kept x u
  generalize (turn host sub s.running s.kept x u).phase.view = q at hseen hput
  generalize x.phase.view = p at hseen hp
  cases hseen with
  | same =>
    rw [Adi.St.session, modify_const_self hp] at hput
    exact .none hput
  | checks =>
    refine .one (.check i) ?_ (by simp) hput
    simp only [Adi.step, hp, if_true, h.running]
  | reads ok =>
    refine .one (.read i ok) ?_ (by simp) hput
    simp only [Adi.step, hp, if_true]
  | gets ok hkept =>
    refine .one (.get i ok) ?_ (by simp) hput
    simp only [Adi.step, hp, (h.fulfilled _).mpr hkept, if_true]
  | sends ok =>
    refine .one (.send i ok) ?_ (by simp) hput
    simp only [Adi.step, hp, if_true]

theorem matched_enqueue {request : GpuPayload} (h : Projects s t) (hx : s.sessions[i]? = some x)
    (hp : x.phase = .placed request gpu) (hw : s.gpus[gpu]? = some w) :
    Matched topo backlogThreshold (PostsLive s (.session i .enqueue)) t (enqueueStep s i x request gpu w) := by
  have hplaced := h.session hx
  have hqueue := h.worker hw
  rw [hp] at hplaced
  refine ⟨[.enqueue i], ?_, fun hlive => ⟨?_, trivial⟩⟩
  · simp only [exec_cons, exec_nil, Adi.step, hplaced, hqueue, Phase.view]
    refine ⟨h.running, ?_, ?_, ?_, h.fulfilled⟩
    · show t.gpus.modify gpu _ = (s.gpus.modify gpu _).map _
      rw [map_modify_const, h.gpus, h.nextTask]
      simp [WorkerState.view]
    · show t.sessions.modify i _ = (s.sessions.modify i _).map _
      rw [map_modify_const, h.sessions, h.nextTask]
      rfl
    · show t.nextTask + 1 = (s.posted ++ [(request, gpu)]).length
      rw [h.nextTask, List.length_append]
      rfl
  · intro j g v hj hsession hgpu
    cases hj
    cases hplaced.symm.trans hsession
    cases hqueue.symm.trans hgpu
    intro hexited
    refine hlive x request gpu w hx hp hw ?_
    cases hworker : w.worker <;> simp_all [WorkerState.view, WorkerAt.view]

theorem matched_fulfil {live : Prop} {task : GpuTask} {outcome : Computed GpuPayload} (h : Projects s t)
    (hw : s.gpus[gpu]? = some w) (htask : w.worker = .computing task) :
    Matched topo backlogThreshold live t
      { s.gpu gpu { w with worker := .idle } with kept := Function.update s.kept task.promise (some outcome) } := by
  have hqueue := h.worker hw
  refine .one (.fulfil gpu) rfl (by simp) ?_
  simp only [Adi.step, hqueue, WorkerState.view, htask, WorkerAt.view]
  have hwork : Projects (s.gpu gpu { w with worker := .idle }) (t.gpu gpu (WorkerState.view { w with worker := .idle })) := h.work
  refine ⟨hwork.running, hwork.gpus, hwork.sessions, hwork.nextTask, ?_⟩
  intro promise
  by_cases hpromise : promise = task.promise
  · subst hpromise
    simp
  · have hother : promise ∈ task.promise :: t.fulfilled ↔ promise ∈ t.fulfilled := by simp [hpromise]
    have hsame : Function.update s.kept task.promise (some outcome) promise = s.kept promise :=
      Function.update_of_ne hpromise _ _
    exact hother.trans ((h.fulfilled promise).trans (by rw [← hsame]))

theorem projects_step (h : Projects s t) (e : Ev) :
    Matched topo backlogThreshold (PostsLive s e) t (step host sub topo backlogThreshold s e) := by
  have heff := @step_effect host sub topo backlogThreshold s e
  generalize step host sub topo backlogThreshold s e = s' at heff
  cases heff with
  | idle => exact .none h
  | accepts =>
    refine .one .accept rfl (by simp) ⟨h.running, h.gpus, ?_, h.nextTask, h.fulfilled⟩
    simp [Adi.step, h.sessions, Phase.view]
  | exhausts => exact .none ⟨h.running, h.gpus, h.sessions, h.nextTask, h.fulfilled⟩
  | @turns i x u hx => exact matched_turn h hx u
  | @draws i x hx hp => exact .none (h.unseen hx (by rw [hp]; rfl) rfl rfl rfl rfl rfl)
  | @stores i x hx hp => exact .none (h.unseen hx (by rw [hp]; rfl) rfl rfl rfl rfl rfl)
  | @places i x request depth hx hp =>
    have hreceived := h.session hx
    rw [hp] at hreceived
    refine .one (.place i (some ⟨(findHome s.affinity x.clientId).map Int.ofNat, s.rrCounter, depth⟩)) ?_ (by simp)
      (h.put rfl rfl rfl rfl rfl)
    simp only [Adi.step, hreceived, Phase.view, if_true, Adi.placeStep]
  | posts hx hp hw => exact matched_enqueue h hx hp hw
  | @releases i x hx hp => exact .none (h.unseen hx (by rw [hp]; rfl) rfl rfl rfl rfl rfl)
  | @erases i x hx hp => exact .none (h.unseen hx (by rw [hp]; rfl) rfl rfl rfl rfl rfl)
  | @closes i x hx hp => exact .none (h.unseen hx (by rw [hp]; rfl) rfl rfl rfl rfl rfl)
  | @exits gpu w hw hidle hq hstopping =>
    refine .one (.work gpu) ?_ (by simp) h.work
    simp only [Adi.step, h.worker hw, WorkerState.view, hidle, WorkerAt.view, if_true, Adi.workStep, hq, List.map_nil, hstopping]
  | @takes gpu task queue w hw hidle hq =>
    refine .one (.work gpu) ?_ (by simp) h.work
    simp only [Adi.step, h.worker hw, WorkerState.view, hidle, WorkerAt.view, if_true, Adi.workStep, hq, List.map_cons]
  | fulfils hw htask => exact matched_fulfil h hw htask
  | stops => exact .one .stop rfl (by simp) ⟨rfl, h.gpus, h.sessions, h.nextTask, h.fulfilled⟩
  | shuts =>
    refine .none ⟨h.running, h.gpus, ?_, h.nextTask, h.fulfilled⟩
    rw [h.sessions, List.map_map]
    refine List.map_congr_left fun x _ => ?_
    simp only [Function.comp]
    split <;> rfl
  | @flags gpu w hw hstopped =>
    refine .one (.flag gpu) ?_ (by simp) h.work
    simp only [Adi.step, h.worker hw, h.running, hstopped, Bool.false_eq_true, if_false, WorkerState.view]

end

/-! ## Whole runs -/

section
variable (host : Host) (sub : UInt64 → UInt64 → UInt64) (topo : GpuTopology) (backlogThreshold : Nat)

theorem projects_start : Projects (init topo) (Adi.run topo backlogThreshold [.start]) := by
  have hstart : Adi.run topo backlogThreshold [.start] = { running := true, gpus := List.replicate topo.numGpus { worker := .idle } } := by
    have hleft : ∀ p ∈ (Adi.init topo).sessions, p = .left := by simp [Adi.init]
    have hexited : ∀ w ∈ (Adi.init topo).gpus, w.worker = .exited := by
      intro w hw
      rw [List.eq_of_mem_replicate hw]
    rw [Adi.run, exec_cons, exec_nil, Adi.step, if_pos ⟨rfl, hleft, hexited⟩]
    simp [Adi.init]
  rw [hstart]
  refine ⟨rfl, ?_, rfl, rfl, ?_⟩
  · simp [init, WorkerState.view, WorkerAt.view]
  · intro promise
    simp [init]

variable {topo backlogThreshold} in
/-- From related states on, whatever is done. -/
theorem projects_exec {s : St} {t : Adi.St} (h : Projects s t) (es : List Ev) :
    ∃ ds, Projects (exec (step host sub topo backlogThreshold) s es) (exec (Adi.step topo backlogThreshold) t ds) := by
  have hstep : ∀ (s : St) (t : Adi.St) (e : Ev), Projects s t → True →
      ∃ ds, Projects (step host sub topo backlogThreshold s e) (exec (Adi.step topo backlogThreshold) t ds) ∧
        EachStep (Adi.step topo backlogThreshold) (fun _ _ => True) t ds := by
    intro s t e h _
    obtain ⟨ds, hnext, -⟩ := projects_step h e
    exact ⟨ds, hnext, eachStep_iff.mpr fun _ _ _ => trivial⟩
  obtain ⟨ds, hds, -⟩ := exec_projects (eachStep_iff.mpr fun _ _ _ => trivial) h hstep
  exact ⟨ds, hds⟩

/-- Every run of the sessions is a run of the server that `Shutdown` starts. -/
theorem sessions_project (es : List Ev) :
    ∃ evs, Projects (run host sub topo backlogThreshold es) (Adi.run topo backlogThreshold (.start :: evs)) :=
  projects_exec host sub (projects_start topo backlogThreshold) es

end

/-! ## Who waits -/

/-- A worker that has not exited computes the promise's task, or has it on its queue. -/
def Served (s : St) (promise : Nat) : Prop :=
  ∃ w ∈ s.gpus, w.worker ≠ .exited ∧ ∃ task ∈ w.tasks, task.promise = promise

/-- Session `i` waits for a promise that no worker is there to keep. -/
def Abandoned (s : St) (i : Nat) : Prop :=
  ∃ x request gpu promise, s.sessions[i]? = some x ∧ x.phase = .waiting request gpu promise ∧
    s.kept promise = none ∧ ¬ Served s promise

section
variable {host : Host} {sub : UInt64 → UInt64 → UInt64} {topo : GpuTopology} {backlogThreshold : Nat} {s : St}
  {t : Adi.St} {i promise : Nat}

theorem serves_view (w : WorkerState) (promise : Nat) :
    w.view.Serves promise ↔ w.worker ≠ .exited ∧ ∃ task ∈ w.tasks, task.promise = promise := by
  unfold Adi.WorkerState.Serves WorkerState.view WorkerState.tasks
  cases w.worker with
  | idle => simp [WorkerAt.view]
  | exited => simp [WorkerAt.view]
  | computing task => simp [WorkerAt.view]

theorem Projects.served (h : Projects s t) : Adi.Served t promise ↔ Served s promise := by
  simp only [Adi.Served, Served, h.gpus, List.mem_map, exists_exists_and_eq_and, serves_view]

theorem Projects.unkept (h : Projects s t) : promise ∉ t.fulfilled ↔ s.kept promise = none := by
  rw [h.fulfilled, Bool.not_eq_true, Option.isSome_eq_false_iff, Option.isNone_iff_eq_none]

theorem Projects.waiting (h : Projects s t) : t.sessions[i]? = some (.waiting promise) ↔
    ∃ x request gpu, s.sessions[i]? = some x ∧ x.phase = .waiting request gpu promise := by
  rw [h.sessions, List.getElem?_map, Option.map_eq_some_iff]
  refine ⟨?_, ?_⟩
  · rintro ⟨x, hx, hview⟩
    cases hp : x.phase <;> simp_all [Phase.view]
  · rintro ⟨x, request, gpu, hx, hp⟩
    exact ⟨x, hx, by rw [hp]; rfl⟩

theorem Projects.abandoned (h : Projects s t) : Stranded t i ↔ Abandoned s i := by
  unfold Stranded Abandoned
  simp only [h.waiting, h.unkept, h.served]
  refine ⟨?_, ?_⟩
  · rintro ⟨promise, ⟨x, request, gpu, hx, hp⟩, hkept, hnone⟩
    exact ⟨x, request, gpu, promise, hx, hp, hkept, hnone⟩
  · rintro ⟨x, request, gpu, promise, hx, hp, hkept, hnone⟩
    exact ⟨promise, ⟨x, request, gpu, hx, hp⟩, hkept, hnone⟩

/-- Until a session puts its task on the queue of a worker that has gone, whoever waits has
    its task with a worker that will come to it. -/
theorem waiters_served {es : List Ev}
    (hrun : EachStep (step host sub topo backlogThreshold) PostsLive (init topo) es) {x : Session} {request : GpuPayload}
    {gpu : Nat} (hx : x ∈ (run host sub topo backlogThreshold es).sessions) (hp : x.phase = .waiting request gpu promise)
    (hkept : (run host sub topo backlogThreshold es).kept promise = none) :
    Served (run host sub topo backlogThreshold es) promise := by
  have hstep : ∀ (s : St) (t : Adi.St) (e : Ev), Projects s t → PostsLive s e →
      ∃ ds, Projects (step host sub topo backlogThreshold s e) (exec (Adi.step topo backlogThreshold) t ds) ∧
        EachStep (Adi.step topo backlogThreshold) EnqueuesLive t ds := by
    intro s t e h hlive
    obtain ⟨ds, hnext, hds⟩ := projects_step h e
    exact ⟨ds, hnext, hds hlive⟩
  obtain ⟨ds, hends, hds⟩ := exec_projects hrun (projects_start topo backlogThreshold) hstep
  have hnobody : AllServed (Adi.run topo backlogThreshold [.start]) := by
    intro i task hi
    rw [(projects_start topo backlogThreshold).sessions] at hi
    cases hi
  have hserved : AllServed (exec (Adi.step topo backlogThreshold) (Adi.run topo backlogThreshold [.start]) ds) :=
    exec_each (I := AllServed) hds hnobody fun t d ht hlive => allServed_step ht hlive (Adi.step_effect t d)
  obtain ⟨i, hi⟩ := List.mem_iff_getElem?.mp hx
  exact hends.served.mp (hserved i promise (hends.waiting.mpr ⟨x, request, gpu, hi, hp⟩) (hends.unkept.mpr hkept))

/-- A session that waits for nobody's answer does so for good, and `join_all` with it. -/
theorem abandoned_forever (es later : List Ev) (h : Abandoned (run host sub topo backlogThreshold es) i) :
    Abandoned (run host sub topo backlogThreshold (es ++ later)) i := by
  obtain ⟨evs, hbefore⟩ := sessions_project host sub topo backlogThreshold es
  obtain ⟨ds, hafter⟩ := projects_exec host sub hbefore later
  have hstranded := stranded_forever (.start :: evs) ds (hbefore.abandoned.mpr h)
  rw [Adi.run, exec_append] at hstranded
  rw [run, exec_append]
  exact hafter.abandoned.mp hstranded

end

end Overhauled.Adi.Sessions
