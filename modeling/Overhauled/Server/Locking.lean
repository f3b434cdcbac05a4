/-
  Overhauled.Server.Locking — the mutexes and joins of the broker server, its service, the
  sandbox manager, the placer and the Ethos-U executor, and when they bring it to a stop
  (`src/broker_server.cpp`, `src/broker_server_main.cpp`, `src/broker_service.cpp`,
  `src/wasm_sandbox.cpp`, `include/nvlink_placement.h`, `src/ethosu_u85_drm_executor.cpp`).

  Each function is followed for the locks it takes, along the branches its own model takes:
  what it reads that others may change is its argument (`Meets`). A Prepare calls the GPU
  selector with the manager's mutex held; the selector looks the source up and places it;
  `assign_home` runs under `client_mutex_`, and every reading of a queue's depth under
  `affinity_mutex_`. The accepting thread joins sessions and a session joins its workers,
  neither with a lock held. A socket call, a sleep and a computation are work that comes to
  an end; a compute callback of the embedder's takes no lock of the broker's.

  The shipped program stops the server from a signal handler, which runs on any thread and
  in the middle of anything that thread does (`Ev.signal`). What `stop` takes, the server's
  `client_mutex_`, is therefore the last in the order of the locks (`Lock.rank`); nothing is
  taken under it. But it is not recursive: a handler on the thread that holds it waits for
  itself.

  Threads may start at any time. Every state of a run can be run to its end exactly when no
  handler that finds the server running interrupts a thread with that mutex in its hands;
  over such a run no two hold one mutex, and some thread can go on as long as one has not
  finished (`never_deadlocked`).
-/

import Overhauled.Gpu.Placer
import Overhauled.Machine.Locks
import Overhauled.Server.Session

namespace Overhauled.Server.Locking

open Wire Broker Machine
open Gpu (GpuTopology Placing)
open Wasm (Manager WasmLifecycleRequest WasmTaskRequest)

inductive Lock where
  /-- `client_mutex_` of the server. -/
  | serverClients
  | write (session : Nat)
  | manager
  /-- `client_mutex_` of the service. -/
  | client
  | affinity
  | inflight
  | npu
  deriving DecidableEq, Repr

def Lock.rank : Lock → Nat
  | .write _ => 0
  | .manager => 1
  | .client => 2
  | .affinity => 3
  | .inflight => 4
  | .npu => 5
  | .serverClients => 6

inductive Name where
  | accepting
  | session (k : Nat)
  | worker (k n : Nat)
  | caller
  deriving DecidableEq, Repr

def Name.level : Name → Nat
  | .accepting => 0
  | .session _ => 1
  | .worker _ _ => 2
  | .caller => 3

abbrev Acts := List (Act Lock Name)

/-- What a call of `handle_request` meets: the state of the manager, the clock, the GPU it
    is placed on, whether its source has an id, the placer, and whose NPU it is. -/
structure Meets where
  manager : Manager := {}
  clock : Clock := {}
  gpu : Placement := ⟨.escaped, 0⟩
  known : Bool := false
  placing : Placing := {}
  ethosu : Bool := false

/-! ## The service -/

/-- One reading of a queue's depth. -/
def depthActs : Acts := locked .inflight []

def assignHomeActs : Acts := [.work] ++ locked .affinity []

def getOrAssignClientIdActs (known : Bool) : Acts := locked .client (if known then [] else assignHomeActs)

section
variable (svc : BrokerService) (topo : GpuTopology) (backlogThreshold : Nat)

def placeActs (p : Placing) : Acts :=
  let home := Gpu.homeOf topo p
  let leastActs := (List.range topo.numGpus).flatMap fun _ => depthActs
  locked .affinity
    (depthActs ++
      if p.depth 0 home < backlogThreshold then []
      else
        match Gpu.bestPeer topo home with
        | some peer => depthActs ++ if p.depth 1 peer < backlogThreshold then [] else leastActs
        | none => leastActs)

def gpuSelectorActs (meets : Meets) (targetGpu : Int32) : Acts :=
  if targetGpu ≥ 0 then []
  else getOrAssignClientIdActs meets.known ++ placeActs topo backlogThreshold meets.placing

def assignGpuActs (meets : Meets) (request : WasmLifecycleRequest) : Acts :=
  if request.targetGpu ≥ 0 then []
  else if meets.manager.forceCpu then []
  else
    match meets.manager.gpuSelector with
    | some _ => gpuSelectorActs topo backlogThreshold meets request.targetGpu
    | none => []

def prepareActs (meets : Meets) (request : WasmLifecycleRequest) : Acts :=
  locked .manager
    (if request.sandboxId = [] ∨ request.moduleId = [] ∨ request.moduleVersion = [] then []
     else
      match meets.manager.modules (Wasm.lifecycleKey request) with
      | none => assignGpuActs topo backlogThreshold meets request
      | some record =>
        if record.state = .prepared ∨ record.state = .active then []
        else if record.state = .draining ∨ record.state = .stopped then []
        else assignGpuActs topo backlogThreshold meets request)

def handleLifecycleActs (meets : Meets) (request : WasmLifecycleRequest) : Acts :=
  if request.action = .prepare then prepareActs topo backlogThreshold meets request
  else if request.action = .drain then locked .manager []
  else if request.action = .release then locked .manager []
  else if request.action = .query then locked .manager []
  else []

def handleTaskActs (meets : Meets) (request : WasmTaskRequest) : Acts :=
  locked .manager [] ++
    match (Wasm.taskBegin meets.manager request).2 with
    | .error _ => []
    | .ok _ => [.work] ++ locked .manager []

def runOnGpuActs (meets : Meets) : Acts :=
  getOrAssignClientIdActs meets.known ++ placeActs topo backlogThreshold meets.placing ++ locked .inflight [] ++
    if meets.gpu.inflight + 1 > svc.config.maxInflightPerGpu then [] else [.work] ++ locked .inflight []

/-- The simulated executor has no mutex. -/
def npuRunActs (meets : Meets) : Acts := if meets.ethosu then locked .npu [.work] else [.work]

/-- The last action is the CPU's, when it comes to that. -/
def handleInferenceActs (meets : Meets) (request : BrokerRequest) : Acts :=
  match decodePayloadAsDoubles request.payload with
  | .error _ => []
  | .ok _ =>
    match selectBackend (backendPolicy svc request) (effectiveProfile request) with
    | .cpu => [.work]
    | .gpu => runOnGpuActs svc topo backlogThreshold meets ++ [.work]
    | .npu => npuRunActs meets ++ [.work]

def dispatchActs (meets : Meets) (request : BrokerRequest) : Acts :=
  let limits := wasmLimits svc.config.protocolLimits
  if request.kind = Geo.kGeospatialFrameKind then [.work]
  else if request.kind = Media.kMediaStreamKind then [.work]
  else if request.kind = Wasm.kWasmTaskKind then
    match Wasm.decodeWasmTaskRequest request.payload limits with
    | .error _ => []
    | .ok wasmReq => handleTaskActs meets wasmReq
  else if isLifecycleKind request.kind then
    match Wasm.decodeWasmLifecycleRequest request.payload limits with
    | .error _ => []
    | .ok wasmReq =>
      handleLifecycleActs topo backlogThreshold meets
        { wasmReq with action := actionOfKind request.kind wasmReq.action }
  else handleInferenceActs svc topo backlogThreshold meets request

def handleRequestActs (meets : Meets) (request : BrokerRequest) : Acts :=
  match validateRequest request svc.config.protocolLimits with
  | some _ => []
  | none =>
    [.work] ++
      if sleptThrough svc meets.clock request then [] else dispatchActs svc topo backlogThreshold meets request

/-! ## The threads -/

/-- `stop`; only the first finds the server running. -/
def stopActs (running : Bool) : Acts := [.work] ++ if running then locked .serverClients [.work] else []

/-- One turn of `accept_loop`: the sessions it reaps, and whether there is a client. -/
structure AcceptTurn where
  reaped : List Nat := []
  client : Bool := true

def AcceptTurn.acts (t : AcceptTurn) : Acts :=
  t.reaped.flatMap (fun k => [.join (.session k)]) ++ [.work] ++ if t.client then locked .serverClients [.work] else []

/-- One turn of `session_loop`: the workers it reaps, and whether it writes a reply itself. -/
structure ReadTurn where
  reaped : List Nat := []
  replies : Bool := false

def ReadTurn.acts (k : Nat) (t : ReadTurn) : Acts :=
  t.reaped.flatMap (fun n => [.join (.worker k n)]) ++ [.work] ++ if t.replies then locked (.write k) [.work] else []

inductive Task where
  /-- `run`: `accept_loop`, `stop` if an exception ended it, and `join_all`. -/
  | accepting (turns : List AcceptTurn) (stopped : Option Bool) (sessions : List Nat)
  /-- `session_loop`; `pending` are the workers it joins at its end. -/
  | session (k : Nat) (turns : List ReadTurn) (pending : List Nat)
  | worker (k n : Nat) (meets : Meets) (request : BrokerRequest) (writes : Bool)
  /-- A call of `stop` by a thread of the embedder's. -/
  | stop (running : Bool)
  /-- A call of the service by somebody else. -/
  | call (meets : Meets) (request : BrokerRequest)
  /-- A look at the manager: `is_module_active` and the like, and its setters. -/
  | inspect

def Task.name : Task → Name
  | .accepting _ _ _ => .accepting
  | .session k _ _ => .session k
  | .worker k n _ _ _ => .worker k n
  | .stop _ => .caller
  | .call _ _ => .caller
  | .inspect => .caller

def Task.acts : Task → Acts
  | .accepting turns stopped sessions =>
    turns.flatMap AcceptTurn.acts ++ stopped.elim [] stopActs ++ sessions.flatMap fun k => [.join (.session k)]
  | .session k turns pending =>
    turns.flatMap (ReadTurn.acts k) ++ locked .serverClients [] ++ [.work] ++
      pending.flatMap fun n => [.join (.worker k n)]
  | .worker k _ meets request writes =>
    handleRequestActs svc topo backlogThreshold meets request ++ if writes then locked (.write k) [.work] else []
  | .stop running => stopActs running
  | .call meets request => handleRequestActs svc topo backlogThreshold meets request
  | .inspect => locked .manager []

inductive Ev where
  | start (t : Task)
  | step (i : Nat)
  /-- `signal_handler` runs on the `i`-th thread, and its `stop` finds the server running or
      not. -/
  | signal (i : Nat) (running : Bool)

def step (ts : List (Locker Lock Name)) : Ev → List (Locker Lock Name)
  | .start t => ts ++ [{ name := t.name, todo := t.acts svc topo backlogThreshold }]
  | .step i => lockStep ts i
  | .signal i running => interrupt ts i (stopActs running)

end

/-- A handler that is about to take the server's `client_mutex_` does not run on a thread
    that holds it. -/
def Clear (ts : List (Locker Lock Name)) : Ev → Prop
  | .signal i true => ∀ t, ts[i]? = some t → t.todo ≠ [] → Lock.serverClients ∉ t.held
  | _ => True

/-- The threads can all be run to their ends. -/
def CanFinish (ts : List (Locker Lock Name)) : Prop :=
  ∃ is : List Nat, ∀ t ∈ exec lockStep ts is, t.todo = [] ∧ t.held = []

/-! ## Every function keeps the order -/

section
variable {svc : BrokerService} {topo : GpuTopology} {backlogThreshold : Nat} {self : Name} {r : Nat}

/-- A mutex with nothing but work under it. -/
theorem block_locked (l : Lock) (hl : r ≤ l.rank) : Block Lock.rank Name.level self r (locked l []) := .locked hl .nil

theorem block_locked_work (l : Lock) (hl : r ≤ l.rank) : Block Lock.rank Name.level self r (locked l [.work]) :=
  .locked hl .work

theorem block_if {c : Prop} [Decidable c] {acts acts' : Acts} (h : Block Lock.rank Name.level self r acts)
    (h' : Block Lock.rank Name.level self r acts') : Block Lock.rank Name.level self r (if c then acts else acts') := by
  split
  next => exact h
  next => exact h'

theorem block_place (p : Placing) :
    Block Lock.rank Name.level self Lock.affinity.rank (placeActs topo backlogThreshold p) := by
  have hdepth : Block Lock.rank Name.level self (Lock.affinity.rank + 1) depthActs := block_locked .inflight (by decide)
  have hleast : Block Lock.rank Name.level self (Lock.affinity.rank + 1)
      ((List.range topo.numGpus).flatMap fun _ => depthActs) := .flatMap _ fun _ _ => hdepth
  refine .locked (Nat.le_refl _) (hdepth.append (block_if .nil ?_))
  split
  next => exact hdepth.append (block_if .nil hleast)
  next => exact hleast

theorem block_getOrAssignClientId (known : Bool) :
    Block Lock.rank Name.level self Lock.client.rank (getOrAssignClientIdActs known) :=
  .locked (Nat.le_refl _) (block_if .nil (Block.append .work (block_locked .affinity (by decide))))

/-- A source is looked up, and placed. -/
theorem block_lookup_place (known : Bool) (p : Placing) :
    Block Lock.rank Name.level self Lock.client.rank
      (getOrAssignClientIdActs known ++ placeActs topo backlogThreshold p) :=
  (block_getOrAssignClientId known).append ((block_place p).mono (by decide))

theorem block_assignGpu (meets : Meets) (request : WasmLifecycleRequest) :
    Block Lock.rank Name.level self Lock.client.rank (assignGpuActs topo backlogThreshold meets request) := by
  refine block_if .nil (block_if .nil ?_)
  split
  next => exact block_if .nil (block_lookup_place meets.known meets.placing)
  next => exact .nil

theorem block_prepare (meets : Meets) (request : WasmLifecycleRequest) :
    Block Lock.rank Name.level self Lock.manager.rank (prepareActs topo backlogThreshold meets request) := by
  refine .locked (Nat.le_refl _) (block_if .nil ?_)
  split
  next => exact block_assignGpu meets request
  next => exact block_if .nil (block_if .nil (block_assignGpu meets request))

theorem block_handleLifecycle (meets : Meets) (request : WasmLifecycleRequest) :
    Block Lock.rank Name.level self Lock.manager.rank (handleLifecycleActs topo backlogThreshold meets request) := by
  have hone : Block Lock.rank Name.level self Lock.manager.rank (locked Lock.manager []) :=
    block_locked .manager (Nat.le_refl _)
  exact block_if (block_prepare meets request) (block_if hone (block_if hone (block_if hone .nil)))

theorem block_handleTask (meets : Meets) (request : WasmTaskRequest) :
    Block Lock.rank Name.level self Lock.manager.rank (handleTaskActs meets request) := by
  have hone : Block Lock.rank Name.level self Lock.manager.rank (locked Lock.manager []) :=
    block_locked .manager (Nat.le_refl _)
  refine hone.append ?_
  split
  next => exact .nil
  next => exact Block.append .work hone

theorem block_handleInference (meets : Meets) (request : BrokerRequest) :
    Block Lock.rank Name.level self Lock.client.rank (handleInferenceActs svc topo backlogThreshold meets request) := by
  have hinflight : Block Lock.rank Name.level self Lock.client.rank (locked Lock.inflight []) :=
    block_locked .inflight (by decide)
  unfold handleInferenceActs
  split
  next => exact .nil
  next =>
    split
    next => exact .work
    next =>
      refine Block.append ?_ .work
      refine ((block_lookup_place meets.known meets.placing).append hinflight).append (block_if .nil ?_)
      exact Block.append .work hinflight
    next => exact Block.append (block_if (block_locked_work .npu (by decide)) .work) .work

theorem block_handleRequest (meets : Meets) (request : BrokerRequest) :
    Block Lock.rank Name.level self Lock.manager.rank (handleRequestActs svc topo backlogThreshold meets request) := by
  unfold handleRequestActs
  split
  next => exact .nil
  next =>
    refine Block.append .work (block_if .nil ?_)
    unfold dispatchActs
    refine block_if .work (block_if .work (block_if ?_ (block_if ?_ ?_)))
    · split
      next => exact .nil
      next => exact block_handleTask meets _
    · split
      next => exact .nil
      next => exact block_handleLifecycle meets _
    · exact (block_handleInference meets request).mono (by decide)

theorem block_stop (running : Bool) :
    Block Lock.rank Name.level self Lock.serverClients.rank (stopActs running) :=
  Block.append .work (block_if (block_locked_work .serverClients (Nat.le_refl _)) .nil)

theorem piece_task (t : Task) : Piece Lock.rank Name.level t.name (t.acts svc topo backlogThreshold) := by
  have hclients : ∀ n, Piece Lock.rank Name.level n (locked Lock.serverClients [.work]) :=
    fun _ => (block_locked_work (r := 0) .serverClients (Nat.zero_le _)).piece
  have hwork : ∀ n, Piece Lock.rank Name.level n [.work] := fun _ => (Block.work (r := 0)).piece
  have hnil : ∀ n, Piece Lock.rank Name.level n [] := fun _ => (Block.nil (r := 0)).piece
  have hif : ∀ (n : Name) (c : Bool) (acts : Acts), Piece Lock.rank Name.level n acts →
      Piece Lock.rank Name.level n (if c then acts else []) := by
    intro n c acts h
    cases c with
    | false => exact hnil n
    | true => exact h
  cases t with
  | accepting turns stopped sessions =>
    have hjoins : ∀ ks : List Nat, Piece Lock.rank Name.level .accepting (ks.flatMap fun k => [.join (.session k)]) :=
      fun ks => .flatMap ks fun _ _ => .join Nat.zero_lt_one
    refine Piece.append (Piece.append (.flatMap turns fun turn _ => ?_) ?_) (hjoins sessions)
    · exact ((hjoins turn.reaped).append (hwork _)).append (hif _ _ _ (hclients _))
    · cases stopped with
      | none => exact hnil _
      | some running => exact (block_stop running).piece
  | session k turns pending =>
    have hjoins : ∀ ns : List Nat, Piece Lock.rank Name.level (.session k) (ns.flatMap fun n => [.join (.worker k n)]) :=
      fun ns => .flatMap ns fun _ _ => .join Nat.one_lt_two
    have hwrite : Piece Lock.rank Name.level (.session k) (locked (Lock.write k) [.work]) :=
      (block_locked_work (.write k) (Nat.le_refl _)).piece
    refine Piece.append (Piece.append (Piece.append (.flatMap turns fun turn _ => ?_) ?_) (hwork _)) (hjoins pending)
    · exact ((hjoins turn.reaped).append (hwork _)).append (hif _ _ _ hwrite)
    · exact (block_locked (r := 0) .serverClients (Nat.zero_le _)).piece
  | worker k n meets request writes =>
    exact (block_handleRequest meets request).piece.append
      (hif _ _ _ (block_locked_work (.write k) (Nat.le_refl _)).piece)
  | stop running => exact (block_stop running).piece
  | call meets request => exact (block_handleRequest meets request).piece
  | inspect => exact (block_locked .manager (Nat.le_refl _)).piece

theorem below_serverClients {held : List Lock} (h : Lock.serverClients ∉ held) :
    ∀ l ∈ held, l.rank < Lock.serverClients.rank := by
  intro l hl
  cases l with
  | serverClients => exact absurd hl h
  | _ => simp [Lock.rank]

theorem sound_step {ts : List (Locker Lock Name)} (e : Ev) (h : Sound Lock.rank Name.level ts) (hclear : Clear ts e) :
    Sound Lock.rank Name.level (step svc topo backlogThreshold ts e) := by
  cases e with
  | start t => exact h.spawn (piece_task t)
  | step i => exact h.step i
  | signal i running =>
    cases running with
    | false =>
      refine h.interrupt (r := Lock.serverClients.rank + 1) (fun _ => Block.append .work .nil) ?_
      intro t _ l _
      cases l <;> simp [Lock.rank]
    | true =>
      refine h.interrupt (fun _ => block_stop true) ?_
      intro t ht
      by_cases hbusy : t.todo = []
      · -- a thread that has finished holds nothing
        have hord := h.ordered t (List.mem_of_getElem? ht)
        rw [hbusy] at hord
        rw [show t.held = [] from hord]
        exact fun l hl => absurd hl List.not_mem_nil
      · exact below_serverClients (hclear t ht hbusy)

/-- A handler on the thread that holds the mutex. -/
theorem doomed_signal {ts : List (Locker Lock Name)} {i : Nat} {t : Locker Lock Name} (ht : ts[i]? = some t)
    (hbusy : t.todo ≠ []) (hheld : Lock.serverClients ∈ t.held) :
    ∃ t, (step svc topo backlogThreshold ts (.signal i true))[i]? = some t ∧ Doomed Lock.serverClients t := by
  have hsome : t.todo.isEmpty = false := by simpa using hbusy
  simp only [step, interrupt, ht, hsome, Bool.false_eq_true, if_false]
  exact ⟨_, modify_same _ ht, hheld, 1, _, rfl⟩

theorem clear_of_canFinish (ts : List (Locker Lock Name)) (e : Ev)
    (h : CanFinish (step svc topo backlogThreshold ts e)) : Clear ts e := by
  cases e with
  | signal i running =>
    cases running with
    | false => trivial
    | true =>
      intro t ht hbusy hheld
      obtain ⟨is, hend⟩ := h
      obtain ⟨u, hu, hunfinished⟩ := Doomed.exec (doomed_signal ht hbusy hheld) is
      exact hunfinished (hend u hu).1
  | _ => trivial

end

/-- However many clients, requests, lifecycle operations and stops there are, and in
    whatever order their threads run: the server can be run until all have finished, at every
    moment, exactly when no handler of a signal that finds it running interrupts a thread
    that holds its `client_mutex_`. Then no mutex is held by two, and some thread can go on
    while one has not finished. -/
theorem never_deadlocked (svc : BrokerService) (topo : GpuTopology) (backlogThreshold : Nat) (es : List Ev) :
    ((∀ pre, pre <+: es → CanFinish (exec (step svc topo backlogThreshold) [] pre)) ↔
        EachStep (step svc topo backlogThreshold) Clear [] es) ∧
      (EachStep (step svc topo backlogThreshold) Clear [] es →
        let ts := exec (step svc topo backlogThreshold) [] es
        (ts.Pairwise fun t u => ∀ l ∈ t.held, l ∉ u.held) ∧
          ((∃ t ∈ ts, t.todo ≠ []) → ∃ t ∈ ts, Enabled ts t)) := by
  have hstart : Sound Lock.rank Name.level ([] : List (Locker Lock Name)) := by
    refine ⟨?_, List.Pairwise.nil⟩
    intro t ht
    cases ht
  refine ⟨?_, ?_⟩
  · exact forall_prefix_iff (I := fun ts => Sound Lock.rank Name.level ts) hstart (fun _ h => h.finish)
      (fun _ e h hclear => sound_step e h hclear) fun ts e _ h => clear_of_canFinish ts e h
  · intro hclear
    have h := exec_each (I := fun ts => Sound Lock.rank Name.level ts) hclear hstart fun _ e h hclear => sound_step e h hclear
    exact ⟨h.exclusive, h.progress⟩

def threeGpus : GpuTopology :=
  { numGpus := 3, linkKind := fun _ _ => .nvlink, linkBandwidth := fun _ _ => 1000, counted := by decide }

/-- The accepting thread is in `admit_client` when a thread gets the signal. -/
def signalled (i : Nat) : List Ev :=
  [.start (.accepting [{}] none []), .start (.session 0 [{}] []), .step 0, .step 0, .signal i true]

theorem never_deadlocked_signalled :
    CanFinish (exec (step {} threeGpus 32) [] (signalled 1)) ∧
      ¬ ∀ pre, pre <+: signalled 0 → CanFinish (exec (step {} threeGpus 32) [] pre) := by
  refine ⟨(never_deadlocked {} threeGpus 32 (signalled 1)).1.mpr ⟨trivial, trivial, trivial, trivial, ?_, trivial⟩ _ List.prefix_rfl, ?_⟩
  · intro t ht _
    cases ht
    simp
  · rw [(never_deadlocked {} threeGpus 32 (signalled 0)).1]
    rintro ⟨-, -, -, -, hclear, -⟩
    exact hclear _ rfl (by decide +kernel) (by decide +kernel)

end Overhauled.Server.Locking
