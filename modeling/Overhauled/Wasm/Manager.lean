/-
  Overhauled.Wasm.Manager — `WasmSandboxManager` (`src/wasm_sandbox.cpp`): module
  versions, their hotswap lifecycle, and the tasks that run on them.

  Each public call is one section under the manager's mutex, so a function from a
  manager to the next one and a reply. `handle_task` is the exception: it holds the
  mutex to admit the task (`taskBegin`), lets it go for the compute callback, and takes
  it again to count the task out (`taskEnd`), looking the record up by key each time.

  A record is found by one string, `make_key`. The GPU selector is the owner's
  callback; it may throw, and `prepare_module` then throws before it changed anything.
-/

import Overhauled.Wire.Host
import Overhauled.Wasm.Wsm1

namespace Overhauled.Wasm

open Wire

/-- How a call is left: by return, by a `std::exception`, or by anything else. -/
inductive Computed (α : Type) where
  | returned (result : α)
  | threw (what : Bytes)
  | escaped
  deriving DecidableEq, Repr

/-- What is made of the result; an exception passes by. -/
def Computed.map {α β : Type} (f : α → β) : Computed α → Computed β
  | .returned result => .returned (f result)
  | .threw what => .threw what
  | .escaped => .escaped

theorem Computed.map_eq_returned {α β : Type} {f : α → β} {c : Computed α} {b : β} :
    c.map f = .returned b ↔ ∃ a, c = .returned a ∧ f a = b := by
  cases c <;> simp [map]

/-- The result, if there is one. -/
def Computed.result {α : Type} : Computed α → Option α
  | .returned result => some result
  | .threw _ => none
  | .escaped => none

theorem Computed.result_eq_some {α : Type} {c : Computed α} {a : α} : c.result = some a ↔ c = .returned a := by
  cases c <;> simp [result]

abbrev GpuSelectorFn := Bytes → Int32 → Computed Int32

structure ModuleRecord where
  sandboxId : Bytes
  moduleId : Bytes
  version : Bytes
  state : WasmModuleState := .prepared
  assignedGpu : Int32 := -1
  leaseToken : Bytes := []
  activeTasks : UInt32 := 0
  deriving DecidableEq, Repr

structure Manager where
  modules : Bytes → Option ModuleRecord := fun _ => none
  forceCpu : Bool := false
  gpuSelector : Option GpuSelectorFn := none
  nextLeaseId : UInt64 := 1

def makeKey (sandboxId moduleId version : Bytes) : Bytes := sandboxId ++ ascii ":" ++ moduleId ++ ascii ":" ++ version

def lifecycleKey (request : WasmLifecycleRequest) : Bytes :=
  makeKey request.sandboxId request.moduleId request.moduleVersion

def taskKey (request : WasmTaskRequest) : Bytes := makeKey request.sandboxId request.moduleId request.moduleVersion

/-- `modules_[key] = record`, or the erasure of the key. -/
def setModule (m : Manager) (key : Bytes) (record : Option ModuleRecord) : Manager :=
  { m with modules := Function.update m.modules key record }

def setForceCpu (m : Manager) (forceCpu : Bool) : Manager := { m with forceCpu }

def setGpuSelector (m : Manager) (gpuSelector : Option GpuSelectorFn) : Manager := { m with gpuSelector }

/-! ## Lifecycle -/

/-- What every lifecycle reply starts from. -/
def lifecycleReply (action : WasmLifecycleAction) (request : WasmLifecycleRequest) : WasmLifecycleResponse :=
  { action, requestId := request.requestId, sandboxId := request.sandboxId, moduleId := request.moduleId
    moduleVersion := request.moduleVersion }

/-- A reply of status Ok that reports the record. -/
def recordReply (action : WasmLifecycleAction) (request : WasmLifecycleRequest) (record : ModuleRecord) :
    WasmLifecycleResponse :=
  { lifecycleReply action request with
    status := .ok, state := record.state, assignedGpu := record.assignedGpu, activeTasks := record.activeTasks
    leaseToken := record.leaseToken }

def assignGpu (m : Manager) (request : WasmLifecycleRequest) : Computed Int32 :=
  if request.targetGpu ≥ 0 then .returned request.targetGpu
  else if m.forceCpu then .returned (-1)
  else
    match m.gpuSelector with
    | some selector => selector request.sandboxId request.targetGpu
    | none => .returned (-1)

def newLease (m : Manager) (request : WasmLifecycleRequest) : Bytes :=
  ascii "lease-" ++ request.sandboxId ++ ascii "-" ++ request.moduleId ++ ascii "-" ++ request.moduleVersion ++
    ascii "-" ++ decimal m.nextLeaseId.toNat

/-- The part of `prepare_module` that stores a new record under the key. -/
def createModule (m : Manager) (request : WasmLifecycleRequest) : Manager × Computed WasmLifecycleResponse :=
  match assignGpu m request with
  | .threw what => (m, .threw what)
  | .escaped => (m, .escaped)
  | .returned assignedGpu =>
    let record : ModuleRecord :=
      { sandboxId := request.sandboxId, moduleId := request.moduleId, version := request.moduleVersion
        state := .prepared, assignedGpu, leaseToken := newLease m request, activeTasks := 0 }
    (setModule { m with nextLeaseId := m.nextLeaseId + 1 } (lifecycleKey request) (some record),
      .returned (recordReply .prepare request record))

/-- What the GPU selector throws passes through. -/
def prepareModule (m : Manager) (request : WasmLifecycleRequest) : Manager × Computed WasmLifecycleResponse :=
  let resp := lifecycleReply .prepare request
  if request.sandboxId = [] ∨ request.moduleId = [] ∨ request.moduleVersion = [] then
    (m, .returned { resp with
      status := .rejected, error := ascii "sandbox_id, module_id, and module_version must be non-empty" })
  else
    match m.modules (lifecycleKey request) with
    | none => createModule m request
    | some record =>
      if record.state = .prepared ∨ record.state = .active then (m, .returned (recordReply .prepare request record))
      else if record.state = .draining ∨ record.state = .stopped then
        (m, .returned { resp with
          status := .busy, state := record.state
          error := ascii "module version is currently draining or stopped; cannot prepare until released" })
      else createModule m request

def drainModule (m : Manager) (request : WasmLifecycleRequest) : Manager × WasmLifecycleResponse :=
  let resp := lifecycleReply .drain request
  match m.modules (lifecycleKey request) with
  | none => (m, { resp with status := .notFound, error := ascii "module version not registered" })
  | some record =>
    if record.state = .released then
      (m, { resp with status := .notFound, error := ascii "module version already released" })
    else
      let record := { record with state := if record.activeTasks = 0 then .stopped else .draining }
      (setModule m (lifecycleKey request) (some record), recordReply .drain request record)

def releaseModule (m : Manager) (request : WasmLifecycleRequest) : Manager × WasmLifecycleResponse :=
  let resp := lifecycleReply .release request
  match m.modules (lifecycleKey request) with
  | none => (m, { resp with status := .notFound, error := ascii "module version not registered" })
  | some record =>
    if record.activeTasks > 0 then
      (m, { recordReply .release request record with
        status := .busy
        error := ascii "cannot release module version while tasks are in-flight; wait for drain to complete" })
    else
      (setModule m (lifecycleKey request) none,
        { recordReply .release request record with state := .released, activeTasks := 0 })

def queryModule (m : Manager) (request : WasmLifecycleRequest) : WasmLifecycleResponse :=
  match m.modules (lifecycleKey request) with
  | none =>
    { lifecycleReply .query request with
      status := .notFound, state := .unknown, error := ascii "module version not registered" }
  | some record => recordReply .query request record

def handleLifecycle (m : Manager) (request : WasmLifecycleRequest) : Manager × Computed WasmLifecycleResponse :=
  if request.action = .prepare then prepareModule m request
  else if request.action = .drain then ((drainModule m request).1, .returned (drainModule m request).2)
  else if request.action = .release then ((releaseModule m request).1, .returned (releaseModule m request).2)
  else if request.action = .query then (m, .returned (queryModule m request))
  else (m, .returned { lifecycleReply request.action request with
    status := .error, error := ascii "unknown lifecycle action" })

/-! ## State queries -/

def isModuleActive (m : Manager) (sandboxId moduleId version : Bytes) : Bool :=
  match m.modules (makeKey sandboxId moduleId version) with
  | none => false
  | some record => record.state = .prepared ∨ record.state = .active

def getModuleState (m : Manager) (sandboxId moduleId version : Bytes) : WasmModuleState :=
  match m.modules (makeKey sandboxId moduleId version) with
  | none => .unknown
  | some record => record.state

def getActiveTasks (m : Manager) (sandboxId moduleId version : Bytes) : UInt32 :=
  match m.modules (makeKey sandboxId moduleId version) with
  | none => 0
  | some record => record.activeTasks

/-! ## Tasks -/

def taskReply (request : WasmTaskRequest) : WasmTaskResponse :=
  { taskId := request.taskId, bufferDescriptors := request.bufferDescriptors }

/-- `handle_task`'s first locked block: the GPU the task was admitted on, or the reply
    that refuses it. -/
def taskBegin (m : Manager) (request : WasmTaskRequest) : Manager × Except WasmTaskResponse Int32 :=
  let resp := taskReply request
  match m.modules (taskKey request) with
  | none =>
    (m, .error { resp with
      status := .moduleNotFound
      error := ascii "module version " ++ request.moduleVersion ++ ascii " is not registered" })
  | some record =>
    if record.state = .draining then
      (m, .error { resp with
        status := .moduleDraining
        error := ascii "module version " ++ request.moduleVersion ++ ascii " is draining; hotswap in progress" })
    else if record.state = .stopped ∨ record.state = .released then
      (m, .error { resp with
        status := .rejected
        error := ascii "module version " ++ request.moduleVersion ++ ascii " is stopped or released" })
    else
      let record := { record with state := .active, activeTasks := record.activeTasks + 1 }
      (setModule m (taskKey request) (some record), .ok record.assignedGpu)

/-- The record after one of its tasks was counted out. -/
def countOut (record : ModuleRecord) : ModuleRecord :=
  let activeTasks := if record.activeTasks > 0 then record.activeTasks - 1 else record.activeTasks
  { record with
    activeTasks, state := if record.state = .draining ∧ activeTasks = 0 then .stopped else record.state }

/-- `handle_task`'s last locked block. -/
def taskEnd (m : Manager) (request : WasmTaskRequest) : Manager :=
  match m.modules (taskKey request) with
  | none => m
  | some record => setModule m (taskKey request) (some (countOut record))

abbrev ComputeFn := Int32 → WasmTaskRequest → Computed Bytes

/-- The `i`-th eight bytes of a payload. -/
def eight (payload : Bytes) (i : Nat) : Bytes := (payload.drop (8 * i)).take 8

/-- `default_gpu_compute` of a build without CUDA. -/
def defaultGpuCompute (values : List UInt64) : List UInt64 := values.map twice

/-- What `handle_task` does without a callback; the doubles are in the host's order. -/
def defaultCompute (host : Host) (payload : Bytes) : Bytes :=
  if payload = [] then []
  else if payload.length % 8 = 0 then
    let doubles := (List.range (payload.length / 8)).map fun i => UInt64.ofNat (ofMemory host (eight payload i))
    (defaultGpuCompute doubles).flatMap fun value => memory host 8 value.toNat
  else payload

def compute (host : Host) (computeFn : Option ComputeFn) (gpu : Int32) (request : WasmTaskRequest) :
    Computed Bytes :=
  match computeFn with
  | some f => f gpu request
  | none => .returned (defaultCompute host request.payload)

/-- `handle_task` run without other callers in between; `latencyMs` is what its clock
    says. A `std::exception` of the callback is caught here, any other leaves the call. -/
def handleTask (host : Host) (m : Manager) (request : WasmTaskRequest) (computeFn : Option ComputeFn)
    (latencyMs : UInt64) : Manager × Computed WasmTaskResponse :=
  match taskBegin m request with
  | (m, .error resp) => (m, .returned resp)
  | (m, .ok assignedGpu) =>
    let resp := { taskReply request with selectedGpu := assignedGpu, latencyMs }
    match compute host computeFn assignedGpu request with
    | .returned result => (taskEnd m request, .returned { resp with status := .ok, result })
    | .threw what => (taskEnd m request, .returned { resp with status := .error, error := what })
    | .escaped => (m, .escaped)

/-! ## The shape of the replies -/

theorem length_eight_words {payload : Bytes} (h : payload.length % 8 = 0) (enc : UInt64 → Bytes)
    (henc : ∀ v, (enc v).length = 8) (f : Nat → UInt64) (g : UInt64 → UInt64) :
    (((List.range (payload.length / 8)).map f).map g |>.flatMap enc).length = payload.length := by
  have hmap : (((List.range (payload.length / 8)).map f).map g).length = payload.length / 8 := by simp
  rw [List.length_flatMap, List.map_congr_left fun v _ => henc v, List.map_const', List.sum_replicate, hmap]
  simp only [smul_eq_mul]
  omega

theorem length_defaultCompute (host : Host) (payload : Bytes) : (defaultCompute host payload).length = payload.length := by
  unfold defaultCompute
  split
  · rename_i h
    rw [h]
  split
  · rename_i h
    exact length_eight_words h _ (fun v => length_memory host 8 _) _ _
  · rfl

theorem handleLifecycle_replies {m : Manager} (hm : m.gpuSelector = none) (request : WasmLifecycleRequest) :
    ∃ m' resp, handleLifecycle m request = (m', .returned resp) := by
  have hgpu : ∃ gpu, assignGpu m request = .returned gpu := by
    unfold assignGpu
    rw [hm]
    split
    · exact ⟨_, rfl⟩
    split <;> exact ⟨_, rfl⟩
  have hcreate : ∃ m' resp, createModule m request = (m', .returned resp) := by
    obtain ⟨gpu, hgpu⟩ := hgpu
    unfold createModule
    rw [hgpu]
    exact ⟨_, _, rfl⟩
  have hprepare : ∃ m' resp, prepareModule m request = (m', .returned resp) := by
    unfold prepareModule
    simp only
    split
    · exact ⟨_, _, rfl⟩
    split
    · exact hcreate
    split
    · exact ⟨_, _, rfl⟩
    split
    · exact ⟨_, _, rfl⟩
    · exact hcreate
  unfold handleLifecycle
  split
  · exact hprepare
  split
  · exact ⟨_, _, rfl⟩
  split
  · exact ⟨_, _, rfl⟩
  split <;> exact ⟨_, _, rfl⟩

end Overhauled.Wasm
