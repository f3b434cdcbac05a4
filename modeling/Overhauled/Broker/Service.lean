/-
  Overhauled.Broker.Service — `BrokerService::handle_request` (`src/broker_service.cpp`):
  one request in, one response out.

  Four kinds have handlers of their own: geospatial and media frames are decoded and
  encoded again, WASM tasks and lifecycle operations go to the sandbox manager. Every
  other kind is an inference task over packed doubles, dispatched to the CPU, a GPU or
  an NPU. `finish_response` stamps the latency and turns a late answer into a timeout.

  What the call meets outside itself is its argument: the clock (`Clock`), and on the
  GPU path the placer's choice and the GPU's occupancy (`Placement`). A callback may
  return, throw a `std::exception`, or throw something else. The latter no handler
  catches; of the former only what the GPU selector throws leaves the call.
-/

import Overhauled.Broker.Brk1
import Overhauled.Geo.Nxr1
import Overhauled.Media.Med1
import Overhauled.Wasm.Manager

namespace Overhauled.Broker

open Wire
open Wasm (Computed Manager)
open Geo (kGeospatialFrameKind)
open Media (kMediaStreamKind)

structure NpuExecutor where
  available : Bool
  run : List UInt64 → Computed (List UInt64)

structure BrokerServiceConfig where
  maxInflightPerGpu : Nat := 1024
  forceCpuFallback : Bool := false
  defaultBackend : BackendKind := .cpu
  gpuOffloadThresholdBytes : Nat := 1024 * 1024
  gpuOffloadThresholdFlops : Nat := 0
  npuEnabled : Bool := false
  npuExecutor : Option NpuExecutor := none
  gpuComputeFn : Option (List UInt64 → Int32 → Computed (List UInt64)) := none
  simulatedLatencyMs : UInt32 := 0
  protocolLimits : ProtocolLimits := {}

structure BrokerService where
  config : BrokerServiceConfig := {}
  useGpuPlacement : Bool := false
  host : Host := .little

/-- What the steady clock says, in nanoseconds since the request started. -/
structure Clock where
  /-- After the simulated latency. -/
  woken : Nat := 0
  /-- In `finish_response`. -/
  ended : Nat := 0
  /-- Between the two readings of `handle_task`. -/
  task : Nat := 0

/-- What `run_on_gpu` meets: how the placer is left, and how many computations the GPU it
    chose already runs. -/
structure Placement where
  place : Computed Int32
  inflight : Nat := 0

/-! ## Doubles in a payload -/

def decodePayloadAsDoubles (payload : Bytes) : Except Bytes (List UInt64) :=
  if payload.length % 8 ≠ 0 then .error (ascii "payload must be a packed array of doubles")
  else .ok ((List.range (payload.length / 8)).map fun i => UInt64.ofNat (ofBe (Wasm.eight payload i)))

def encodeDoublesAsPayload (values : List UInt64) : Bytes := values.flatMap fun value => be 8 value.toNat

def cpuCompute (values : List UInt64) : List UInt64 := values.map twice

/-! ## The dedicated handlers -/

def handleGeospatialFrameRequest (svc : BrokerService) (request : BrokerRequest) : BrokerResponse :=
  let response : BrokerResponse := { taskId := request.taskId }
  match Geo.decodeNxr1Frame svc.host request.payload svc.config.protocolLimits.maxPayloadBytes with
  | .error e => { response with status := .rejected, error := e.text }
  | .ok frame =>
    match Geo.encodeNxr1Frame svc.host frame svc.config.protocolLimits.maxPayloadBytes with
    | .error e => { response with status := .error, error := e }
    | .ok encoded => { response with status := .ok, result := encoded }

def handleMediaStreamRequest (svc : BrokerService) (request : BrokerRequest) : BrokerResponse :=
  let response : BrokerResponse := { taskId := request.taskId }
  let limits := svc.config.protocolLimits
  match Media.decodeMediaStreamFrame request.payload limits.maxPayloadBytes limits.maxStringBytes with
  | .error e => { response with status := .rejected, error := e.text }
  | .ok frame =>
    match Media.encodeMediaStreamFrame frame limits.maxPayloadBytes limits.maxStringBytes with
    | .error e => { response with status := .error, error := e }
    | .ok encoded => { response with status := .ok, result := encoded }

def wasmLimits (limits : ProtocolLimits) : Wasm.WasmLimits :=
  { maxPayloadBytes := limits.maxPayloadBytes, maxFrameBytes := limits.maxFrameBytes
    maxStringBytes := limits.maxStringBytes }

def taskStatusOf (status : Wasm.WasmTaskStatus) : TaskStatus :=
  if status = .ok then .ok
  else if status = .timeout then .timeout
  else if status = .rejected ∨ status = .moduleDraining ∨ status = .moduleNotFound ∨ status = .versionMismatch then
    .rejected
  else .error

def handleWasmTaskRequest (svc : BrokerService) (m : Manager) (clock : Clock) (request : BrokerRequest) :
    Manager × Computed BrokerResponse :=
  let response : BrokerResponse := { taskId := request.taskId }
  let limits := wasmLimits svc.config.protocolLimits
  match Wasm.decodeWasmTaskRequest request.payload limits with
  | .error e =>
    (m, .returned { response with status := .rejected, error := ascii "failed to decode WASM task request: " ++ e.text })
  | .ok wasmReq =>
    match Wasm.handleTask svc.host m wasmReq none (UInt64.ofNat (clock.task / 10 ^ 6)) with
    | (m, .threw what) => (m, .threw what)
    | (m, .escaped) => (m, .escaped)
    | (m, .returned wasmResp) =>
      match Wasm.encodeWasmTaskResponse wasmResp limits with
      | .error e =>
        (m, .returned { response with status := .error, error := ascii "failed to encode WASM task response: " ++ e })
      | .ok encoded =>
        (m, .returned { response with
          status := taskStatusOf wasmResp.status, selectedGpu := wasmResp.selectedGpu, result := encoded
          error := wasmResp.error })

/-- The kind, where it names an action, decides over the action in the frame. -/
def actionOfKind (kind : Bytes) (action : Wasm.WasmLifecycleAction) : Wasm.WasmLifecycleAction :=
  if kind = Wasm.kWasmLifecyclePrepareKind then .prepare
  else if kind = Wasm.kWasmLifecycleDrainKind then .drain
  else if kind = Wasm.kWasmLifecycleReleaseKind then .release
  else if kind = Wasm.kWasmLifecycleQueryKind then .query
  else action

def lifecycleStatusOf (status : Wasm.WasmLifecycleStatus) : TaskStatus :=
  if status = .ok then .ok
  else if status = .rejected ∨ status = .notFound ∨ status = .busy then .rejected
  else .error

def handleWasmLifecycleRequest (svc : BrokerService) (m : Manager) (request : BrokerRequest) :
    Manager × Computed BrokerResponse :=
  let response : BrokerResponse := { taskId := request.taskId }
  let limits := wasmLimits svc.config.protocolLimits
  match Wasm.decodeWasmLifecycleRequest request.payload limits with
  | .error e =>
    (m, .returned { response with
      status := .rejected, error := ascii "failed to decode WASM lifecycle request: " ++ e.text })
  | .ok wasmReq =>
    match Wasm.handleLifecycle m { wasmReq with action := actionOfKind request.kind wasmReq.action } with
    | (m, .threw what) => (m, .threw what)
    | (m, .escaped) => (m, .escaped)
    | (m, .returned wasmResp) =>
      match Wasm.encodeWasmLifecycleResponse wasmResp limits with
      | .error e =>
        (m, .returned { response with status := .error, error := ascii "failed to encode WASM lifecycle response: " ++ e })
      | .ok encoded =>
        (m, .returned { response with
          status := lifecycleStatusOf wasmResp.status, selectedGpu := wasmResp.assignedGpu, result := encoded
          error := wasmResp.error })

/-! ## Inference tasks -/

/-- `run_on_gpu`; the GPU's occupancy is given back before it answers. -/
def runOnGpu (svc : BrokerService) (gpu : Placement) (request : BrokerRequest) (input : List UInt64) :
    Computed BrokerResponse :=
  let response : BrokerResponse := { taskId := request.taskId, backend := .gpu }
  match gpu.place with
  | .escaped => .escaped
  | .threw what => .returned { response with status := .error, error := what }
  | .returned selectedGpu =>
    let response := { response with selectedGpu }
    if gpu.inflight + 1 > svc.config.maxInflightPerGpu then
      .returned { response with status := .rejected, error := ascii "selected GPU queue is at capacity" }
    else
      match (match svc.config.gpuComputeFn with
        | some f => f input selectedGpu
        | none => .returned (Wasm.defaultGpuCompute input)) with
      | .returned output => .returned { response with status := .ok, result := encodeDoublesAsPayload output }
      | .threw what => .returned { response with status := .error, error := what }
      | .escaped => .escaped

def npuAvailable (svc : BrokerService) : Bool :=
  svc.config.npuEnabled && svc.config.npuExecutor.any (·.available)

/-- The profile a device preference of the wire stands for. -/
def effectiveProfile (request : BrokerRequest) : Option TaskProfile :=
  match request.profile with
  | some p => some p
  | none =>
    if request.devicePreference = ascii "npu" then
      some { isInference := true, fallbackSafe := true, estimatedBytes := request.payload.length }
    else if request.devicePreference = ascii "gpu" then
      some { isDataParallel := true, estimatedBytes := request.payload.length, fallbackSafe := true }
    else none

def backendPolicy (svc : BrokerService) (request : BrokerRequest) : BackendPolicy :=
  { defaultBackend := svc.config.defaultBackend
    gpuOffloadThresholdBytes := svc.config.gpuOffloadThresholdBytes
    gpuOffloadThresholdFlops := svc.config.gpuOffloadThresholdFlops
    forceCpu := svc.config.forceCpuFallback ||
      (decide (request.profile = none) && decide (request.devicePreference = ascii "cpu"))
    gpuAvailable := svc.useGpuPlacement
    npuAvailable := npuAvailable svc }

/-- The CPU baseline, also the fallback of a failed accelerator. -/
def runOnCpu (request : BrokerRequest) (input : List UInt64) (fellBackToCpu : Bool) : BrokerResponse :=
  { taskId := request.taskId, status := .ok, backend := .cpu, selectedGpu := -1, fellBackToCpu
    result := encodeDoublesAsPayload (cpuCompute input) }

/-- The default kinds, up to `finish_response`. -/
def handleInferenceRequest (svc : BrokerService) (gpu : Placement) (request : BrokerRequest) :
    Computed BrokerResponse :=
  let response : BrokerResponse := { taskId := request.taskId }
  let fallbackSafe := (effectiveProfile request).any (·.fallbackSafe)
  match decodePayloadAsDoubles request.payload with
  | .error what => .returned { response with status := .error, error := what }
  | .ok input =>
    match selectBackend (backendPolicy svc request) (effectiveProfile request) with
    | .cpu => .returned (runOnCpu request input false)
    | .gpu =>
      match runOnGpu svc gpu request input with
      | .returned gpuResponse =>
        if gpuResponse.status = .ok ∨ fallbackSafe = false then .returned gpuResponse
        else .returned (runOnCpu request input true)
      | .threw what => .returned { response with status := .error, error := what }
      | .escaped => .escaped
    | .npu =>
      match (match svc.config.npuExecutor with | some npu => npu.run input | none => .escaped) with
      | .returned output =>
        .returned { response with result := encodeDoublesAsPayload output, status := .ok, backend := .npu }
      | .threw what =>
        if fallbackSafe then .returned (runOnCpu request input true)
        else .returned { response with status := .error, error := what, backend := .npu }
      | .escaped => .escaped

/-! ## The whole call -/

def deadline (request : BrokerRequest) : Nat := request.timeoutMs.toNat * 10 ^ 6

def finishResponse (clock : Clock) (request : BrokerRequest) (result : BrokerResponse) : BrokerResponse :=
  let result := { result with latencyMs := UInt64.ofNat (clock.ended / 10 ^ 6) }
  if clock.ended ≥ deadline request then
    { result with status := .timeout, result := [], error := ascii "request timed out" }
  else result

def isLifecycleKind (kind : Bytes) : Bool :=
  kind = Wasm.kWasmLifecycleKind ∨ kind = Wasm.kWasmLifecyclePrepareKind ∨ kind = Wasm.kWasmLifecycleDrainKind ∨
    kind = Wasm.kWasmLifecycleReleaseKind ∨ kind = Wasm.kWasmLifecycleQueryKind

/-- The handler of the request's kind. -/
def dispatch (svc : BrokerService) (m : Manager) (clock : Clock) (gpu : Placement) (request : BrokerRequest) :
    Manager × Computed BrokerResponse :=
  if request.kind = kGeospatialFrameKind then (m, .returned (handleGeospatialFrameRequest svc request))
  else if request.kind = kMediaStreamKind then (m, .returned (handleMediaStreamRequest svc request))
  else if request.kind = Wasm.kWasmTaskKind then handleWasmTaskRequest svc m clock request
  else if isLifecycleKind request.kind then handleWasmLifecycleRequest svc m request
  else (m, handleInferenceRequest svc gpu request)

/-- The simulated latency used up the deadline. -/
def sleptThrough (svc : BrokerService) (clock : Clock) (request : BrokerRequest) : Bool :=
  svc.config.simulatedLatencyMs > 0 ∧ clock.woken ≥ deadline request

def handleRequest (svc : BrokerService) (m : Manager) (clock : Clock) (gpu : Placement) (request : BrokerRequest) :
    Manager × Computed BrokerResponse :=
  match validateRequest request svc.config.protocolLimits with
  | some error => (m, .returned { taskId := request.taskId, status := .rejected, error })
  | none =>
    if sleptThrough svc clock request then (m, .returned (finishResponse clock request { taskId := request.taskId }))
    else
      match dispatch svc m clock gpu request with
      | (m, answer) => (m, answer.map (finishResponse clock request))

end Overhauled.Broker
