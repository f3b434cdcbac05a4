/-
  Overhauled.Broker.Answers — how a call of the service, and each of its handlers, can end:
  one inversion for each, over all its branches. What is proved elsewhere about answers is
  a case analysis of these.
-/

import Overhauled.Wasm.Outcome
import Overhauled.Broker.Service

namespace Overhauled.Broker

open Wire
open Wasm (Computed Manager)
open Geo (kGeospatialFrameKind)
open Media (kMediaStreamKind)

/-- The kinds with a handler of their own. -/
def dedicatedKind (kind : Bytes) : Bool :=
  kind = kGeospatialFrameKind ∨ kind = kMediaStreamKind ∨ kind = Wasm.kWasmTaskKind ∨ isLifecycleKind kind = true

theorem lifecycle_dedicated {kind : Bytes} (h : isLifecycleKind kind = true) :
    kind ≠ Wasm.kWasmTaskKind ∧ dedicatedKind kind = true := by
  simp only [isLifecycleKind, decide_eq_true_eq] at h
  rcases h with rfl | rfl | rfl | rfl | rfl
  all_goals decide

/-! ## How a call ends -/

section
variable (svc : BrokerService) (m : Manager) (clock : Clock) (gpu : Placement) (request : BrokerRequest)

/-- The request gets to the handler of its kind. -/
def Reaches : Prop :=
  validateRequest request svc.config.protocolLimits = none ∧ sleptThrough svc clock request = false

instance : Decidable (Reaches svc clock request) := inferInstanceAs (Decidable (_ ∧ _))

inductive Handled : Manager → Computed BrokerResponse → Prop
  | invalid {error : Bytes} : ¬ Reaches svc clock request →
      validateRequest request svc.config.protocolLimits = some error →
      Handled m (.returned { taskId := request.taskId, status := .rejected, error })
  | slept : ¬ Reaches svc clock request → Handled m (.returned (finishResponse clock request { taskId := request.taskId }))
  | geospatial : Reaches svc clock request → request.kind = kGeospatialFrameKind →
      Handled m (.returned (finishResponse clock request (handleGeospatialFrameRequest svc request)))
  | media : Reaches svc clock request → request.kind = kMediaStreamKind →
      Handled m (.returned (finishResponse clock request (handleMediaStreamRequest svc request)))
  | task : Reaches svc clock request → request.kind = Wasm.kWasmTaskKind →
      Handled (handleWasmTaskRequest svc m clock request).1
        ((handleWasmTaskRequest svc m clock request).2.map (finishResponse clock request))
  | lifecycle : Reaches svc clock request → isLifecycleKind request.kind = true →
      Handled (handleWasmLifecycleRequest svc m request).1
        ((handleWasmLifecycleRequest svc m request).2.map (finishResponse clock request))
  | inference : Reaches svc clock request → dedicatedKind request.kind = false →
      Handled m ((handleInferenceRequest svc gpu request).map (finishResponse clock request))

variable {svc m clock gpu request} in
theorem handleRequest_reaches (h : Reaches svc clock request) :
    handleRequest svc m clock gpu request =
      ((dispatch svc m clock gpu request).1, (dispatch svc m clock gpu request).2.map (finishResponse clock request)) := by
  unfold handleRequest
  rw [h.1, if_neg (by rw [h.2]; decide)]

theorem handleRequest_handled : Handled svc m clock gpu request (handleRequest svc m clock gpu request).1
    (handleRequest svc m clock gpu request).2 := by
  by_cases hr : Reaches svc clock request
  · rw [handleRequest_reaches hr]
    unfold dispatch
    split
    next hk => exact .geospatial hr hk
    next hgeo =>
      split
      next hk => exact .media hr hk
      next hmedia =>
        split
        next hk => exact .task hr hk
        next htask =>
          split
          next hk => exact .lifecycle hr hk
          next hlife => exact .inference hr (by simp [dedicatedKind, hgeo, hmedia, htask, hlife])
  · unfold handleRequest
    split
    next error hv => exact .invalid hr hv
    next hv =>
      rw [if_pos (by simpa [Reaches, hv] using hr)]
      exact .slept hr

variable {clock request} {r : BrokerResponse}

theorem finishResponse_late (h : clock.ended ≥ deadline request) :
    finishResponse clock request r =
      { r with
        latencyMs := UInt64.ofNat (clock.ended / 10 ^ 6), status := .timeout, result := []
        error := ascii "request timed out" } := by
  rw [finishResponse, if_pos h]

theorem finishResponse_early (h : ¬ clock.ended ≥ deadline request) :
    finishResponse clock request r = { r with latencyMs := UInt64.ofNat (clock.ended / 10 ^ 6) } := by
  rw [finishResponse, if_neg h]

/-- `finish_response` leaves alone whose answer it is, and where the task ran. -/
theorem finishResponse_keeps (r : BrokerResponse) :
    (finishResponse clock request r).taskId = r.taskId ∧
      (finishResponse clock request r).selectedGpu = r.selectedGpu ∧
      (finishResponse clock request r).backend = r.backend := by
  by_cases h : clock.ended ≥ deadline request
  · rw [finishResponse_late h]
    exact ⟨rfl, rfl, rfl⟩
  · rw [finishResponse_early h]
    exact ⟨rfl, rfl, rfl⟩

end

/-! ## How the geospatial and the media handler end -/

/-- A frame that decodes is sent back as it came. -/
inductive EchoAnswer {α : Type} (request : BrokerRequest) (decoded : Except Stop α) : BrokerResponse → Prop
  | undecoded {e : Stop} : decoded = .error e →
      EchoAnswer request decoded { taskId := request.taskId, status := .rejected, error := e.text }
  | echoed : EchoAnswer request decoded { taskId := request.taskId, status := .ok, result := request.payload }

/-- What both echo handlers do: decode, encode again, and answer with the outcome. -/
def echoResponse {α : Type} (request : BrokerRequest) (decoded : Except Stop α) (encode : α → Except Bytes Bytes) :
    BrokerResponse :=
  match decoded with
  | .error e => { taskId := request.taskId, status := .rejected, error := e.text }
  | .ok frame =>
    match encode frame with
    | .error e => { taskId := request.taskId, status := .error, error := e }
    | .ok encoded => { taskId := request.taskId, status := .ok, result := encoded }

section
variable {α : Type} {request : BrokerRequest} {decoded : Except Stop α} {encode : α → Except Bytes Bytes}

theorem echoResponse_ok {frame : α} {bytes : Bytes} (hdec : decoded = .ok frame) (henc : encode frame = .ok bytes) :
    echoResponse request decoded encode = { taskId := request.taskId, status := .ok, result := bytes } := by
  subst hdec
  simp only [echoResponse, henc]

theorem echoResponse_error {e : Stop} (hdec : decoded = .error e) :
    echoResponse request decoded encode = { taskId := request.taskId, status := .rejected, error := e.text } := by
  subst hdec
  simp only [echoResponse]

/-- Where what decodes is encoded to itself again, the payload comes back or is refused. -/
theorem echo_answer (hround : ∀ frame, decoded = .ok frame → encode frame = .ok request.payload) :
    EchoAnswer request decoded (echoResponse request decoded encode) := by
  cases hdec : decoded with
  | error e =>
    rw [echoResponse_error rfl]
    exact .undecoded rfl
  | ok frame =>
    rw [echoResponse_ok rfl (hround frame hdec)]
    exact .echoed

end

section
variable (svc : BrokerService) (request : BrokerRequest)

theorem geospatial_eq_echo : handleGeospatialFrameRequest svc request =
    echoResponse request (Geo.decodeNxr1Frame svc.host request.payload svc.config.protocolLimits.maxPayloadBytes)
      fun frame => Geo.encodeNxr1Frame svc.host frame svc.config.protocolLimits.maxPayloadBytes := by
  unfold handleGeospatialFrameRequest
  cases Geo.decodeNxr1Frame svc.host request.payload svc.config.protocolLimits.maxPayloadBytes with
  | error e => rfl
  | ok frame =>
    cases henc : Geo.encodeNxr1Frame svc.host frame svc.config.protocolLimits.maxPayloadBytes with
    | error e => simp only [echoResponse, henc]
    | ok encoded => simp only [echoResponse, henc]

theorem media_eq_echo : handleMediaStreamRequest svc request =
    echoResponse request
      (Media.decodeMediaStreamFrame request.payload svc.config.protocolLimits.maxPayloadBytes
        svc.config.protocolLimits.maxStringBytes)
      fun frame => Media.encodeMediaStreamFrame frame svc.config.protocolLimits.maxPayloadBytes
        svc.config.protocolLimits.maxStringBytes := by
  unfold handleMediaStreamRequest
  dsimp only
  cases Media.decodeMediaStreamFrame request.payload svc.config.protocolLimits.maxPayloadBytes
    svc.config.protocolLimits.maxStringBytes with
  | error e => rfl
  | ok frame =>
    cases henc : Media.encodeMediaStreamFrame frame svc.config.protocolLimits.maxPayloadBytes
      svc.config.protocolLimits.maxStringBytes with
    | error e => simp only [echoResponse, henc]
    | ok encoded => simp only [echoResponse, henc]

theorem geospatial_answer : EchoAnswer request
    (Geo.decodeNxr1Frame svc.host request.payload svc.config.protocolLimits.maxPayloadBytes)
    (handleGeospatialFrameRequest svc request) := by
  rw [geospatial_eq_echo]
  exact echo_answer fun _ hdec => Geo.encodeNxr1Frame_ok.mpr (Geo.decodeNxr1Frame_ok.mp hdec)

theorem media_answer : EchoAnswer request
    (Media.decodeMediaStreamFrame request.payload svc.config.protocolLimits.maxPayloadBytes
      svc.config.protocolLimits.maxStringBytes)
    (handleMediaStreamRequest svc request) := by
  rw [media_eq_echo]
  exact echo_answer fun _ hdec => Media.encodeMediaStreamFrame_ok.mpr (Media.decodeMediaStreamFrame_ok.mp hdec)

end

/-! ## How an inference task ends -/

section
variable (svc : BrokerService) (gpu : Placement) (request : BrokerRequest)

/-- The accelerator the request is for throws `what`, and the CPU may not stand in. -/
def AcceleratorThrows (what : Bytes) : Prop :=
  ∃ input, decodePayloadAsDoubles request.payload = .ok input ∧
    (effectiveProfile request).any (·.fallbackSafe) = false ∧
    (selectBackend (backendPolicy svc request) (effectiveProfile request) = .gpu ∧
        (gpu.place = .threw what ∨ ∃ selectedGpu f, gpu.place = .returned selectedGpu ∧
          gpu.inflight + 1 ≤ svc.config.maxInflightPerGpu ∧ svc.config.gpuComputeFn = some f ∧
          f input selectedGpu = .threw what) ∨
      selectBackend (backendPolicy svc request) (effectiveProfile request) = .npu ∧
        ∃ npu, svc.config.npuExecutor = some npu ∧ npu.run input = .threw what)

inductive InferenceAnswer : BrokerResponse → Prop
  | unpacked : InferenceAnswer
      { taskId := request.taskId, status := .error, error := ascii "payload must be a packed array of doubles" }
  | cpu {input : List UInt64} {fellBackToCpu : Bool} : InferenceAnswer (runOnCpu request input fellBackToCpu)
  | gpu {selectedGpu : Int32} {output : List UInt64} : gpu.place = .returned selectedGpu → InferenceAnswer
      { taskId := request.taskId, status := .ok, backend := .gpu, selectedGpu, result := encodeDoublesAsPayload output }
  | full {selectedGpu : Int32} : InferenceAnswer
      { taskId := request.taskId, status := .rejected, backend := .gpu, selectedGpu
        error := ascii "selected GPU queue is at capacity" }
  | npu {output : List UInt64} : InferenceAnswer
      { taskId := request.taskId, status := .ok, backend := .npu, result := encodeDoublesAsPayload output }
  | threw {what : Bytes} {backend : BackendKind} {selectedGpu : Int32} : AcceleratorThrows svc gpu request what →
      InferenceAnswer { taskId := request.taskId, status := .error, error := what, backend, selectedGpu }

variable {svc gpu request}

/-- `run_on_gpu` has a catch of its own. -/
theorem runOnGpu_catches {input : List UInt64} (what : Bytes) : runOnGpu svc gpu request input ≠ .threw what := by
  unfold runOnGpu
  dsimp only
  repeat' split
  all_goals simp

theorem gpu_answer {input : List UInt64} {r : BrokerResponse}
    (hdec : decodePayloadAsDoubles request.payload = .ok input)
    (hsel : selectBackend (backendPolicy svc request) (effectiveProfile request) = .gpu)
    (hr : runOnGpu svc gpu request input = .returned r)
    (hkept : r.status = .ok ∨ (effectiveProfile request).any (·.fallbackSafe) = false) :
    InferenceAnswer svc gpu request r := by
  have hthrew : ∀ {what selectedGpu}, r = { taskId := request.taskId, status := .error, error := what, backend := .gpu, selectedGpu } →
      (gpu.place = .threw what ∨ ∃ selectedGpu f, gpu.place = .returned selectedGpu ∧
        gpu.inflight + 1 ≤ svc.config.maxInflightPerGpu ∧ svc.config.gpuComputeFn = some f ∧
        f input selectedGpu = .threw what) → InferenceAnswer svc gpu request r := by
    intro what selectedGpu hr hwhat
    subst hr
    exact .threw ⟨input, hdec, hkept.resolve_left (by dsimp only; decide), Or.inl ⟨hsel, hwhat⟩⟩
  unfold runOnGpu at hr
  dsimp only at hr
  split at hr
  · cases hr
  next what hplace => exact hthrew (Computed.returned.inj hr).symm (Or.inl hplace)
  next selectedGpu hplace =>
    split at hr
    · cases hr
      exact .full
    next hroom =>
      cases hf : svc.config.gpuComputeFn with
      | none =>
        rw [hf] at hr
        cases hr
        exact .gpu hplace
      | some f =>
        rw [hf] at hr
        dsimp only at hr
        split at hr
        · cases hr
          exact .gpu hplace
        next what hcall =>
          exact hthrew (Computed.returned.inj hr).symm (Or.inr ⟨selectedGpu, f, hplace, by omega, hf, hcall⟩)
        · cases hr

theorem inference_answer {r : BrokerResponse} (hr : handleInferenceRequest svc gpu request = .returned r) :
    InferenceAnswer svc gpu request r := by
  unfold handleInferenceRequest at hr
  dsimp only at hr
  split at hr
  next what hdec =>
    cases hr
    have hwhat : what = ascii "payload must be a packed array of doubles" := by
      unfold decodePayloadAsDoubles at hdec
      split at hdec <;> cases hdec
      rfl
    rw [hwhat]
    exact .unpacked
  next input hdec =>
    split at hr
    next =>
      cases hr
      exact .cpu
    next hsel =>
      split at hr
      next gpuResponse hgpu =>
        split at hr
        next hkept =>
          cases hr
          exact gpu_answer hdec hsel hgpu hkept
        next =>
          cases hr
          exact .cpu
      next what hgpu => exact absurd hgpu (runOnGpu_catches what)
      · cases hr
    next hsel =>
      cases hnpu : svc.config.npuExecutor with
      | none =>
        rw [hnpu] at hr
        cases hr
      | some npu =>
        rw [hnpu] at hr
        dsimp only at hr
        split at hr
        next =>
          cases hr
          exact .npu
        next what hcall =>
          split at hr
          next =>
            cases hr
            exact .cpu
          next hsafe =>
            cases hr
            exact .threw ⟨input, hdec, by simpa using hsafe, Or.inr ⟨hsel, npu, hnpu, hcall⟩⟩
        next => cases hr

/-- What the accelerator throws is the error of the answer. -/
theorem accelerator_error {what : Bytes} (h : AcceleratorThrows svc gpu request what) {r : BrokerResponse}
    (hr : handleInferenceRequest svc gpu request = .returned r) : r.error = what := by
  obtain ⟨input, hdec, hsafe, ⟨hsel, hplace | ⟨selectedGpu, f, hplace, hroom, hf, hcall⟩⟩ | ⟨hsel, npu, hnpu, hcall⟩⟩ := h
  · simp only [handleInferenceRequest, runOnGpu, hdec, hsel, hplace, hsafe, or_true, if_true] at hr
    cases hr
    rfl
  · have hroom : ¬ gpu.inflight + 1 > svc.config.maxInflightPerGpu := by omega
    simp only [handleInferenceRequest, runOnGpu, hdec, hsel, hplace, hroom, if_false, hf, hcall, hsafe, or_true,
      if_true] at hr
    cases hr
    rfl
  · simp only [handleInferenceRequest, hdec, hsel, hnpu, hcall, hsafe, Bool.false_eq_true, if_false] at hr
    cases hr
    rfl

end

/-! ## How the WASM handlers end -/

section
variable (svc : BrokerService) (m : Manager) (clock : Clock) (request : BrokerRequest)

/-- The operation a lifecycle request asks the manager for. -/
def forKind (kind : Bytes) (req : Wasm.WasmLifecycleRequest) : Wasm.WasmLifecycleRequest :=
  { req with action := actionOfKind kind req.action }

inductive LifecycleAnswer : Manager → Computed BrokerResponse → Prop
  | undecoded {e : Stop} :
      Wasm.decodeWasmLifecycleRequest request.payload (wasmLimits svc.config.protocolLimits) = .error e →
      LifecycleAnswer m (.returned { taskId := request.taskId, status := .rejected
                                     error := ascii "failed to decode WASM lifecycle request: " ++ e.text })
  | threw {req : Wasm.WasmLifecycleRequest} {m' : Manager} {what : Bytes} :
      Wasm.decodeWasmLifecycleRequest request.payload (wasmLimits svc.config.protocolLimits) = .ok req →
      Wasm.handleLifecycle m (forKind request.kind req) = (m', .threw what) → LifecycleAnswer m' (.threw what)
  | escaped {req : Wasm.WasmLifecycleRequest} {m' : Manager} :
      Wasm.decodeWasmLifecycleRequest request.payload (wasmLimits svc.config.protocolLimits) = .ok req →
      Wasm.handleLifecycle m (forKind request.kind req) = (m', .escaped) → LifecycleAnswer m' .escaped
  | unencoded {req : Wasm.WasmLifecycleRequest} {m' : Manager} {resp : Wasm.WasmLifecycleResponse} {e : Bytes} :
      Wasm.decodeWasmLifecycleRequest request.payload (wasmLimits svc.config.protocolLimits) = .ok req →
      Wasm.handleLifecycle m (forKind request.kind req) = (m', .returned resp) →
      Wasm.encodeWasmLifecycleResponse resp (wasmLimits svc.config.protocolLimits) = .error e →
      LifecycleAnswer m' (.returned { taskId := request.taskId, status := .error
                                      error := ascii "failed to encode WASM lifecycle response: " ++ e })
  | answered {req : Wasm.WasmLifecycleRequest} {m' : Manager} {resp : Wasm.WasmLifecycleResponse} {encoded : Bytes} :
      Wasm.decodeWasmLifecycleRequest request.payload (wasmLimits svc.config.protocolLimits) = .ok req →
      Wasm.handleLifecycle m (forKind request.kind req) = (m', .returned resp) →
      Wasm.encodeWasmLifecycleResponse resp (wasmLimits svc.config.protocolLimits) = .ok encoded →
      LifecycleAnswer m' (.returned { taskId := request.taskId, status := lifecycleStatusOf resp.status
                                      selectedGpu := resp.assignedGpu, result := encoded, error := resp.error })

theorem lifecycle_answer : LifecycleAnswer svc m request (handleWasmLifecycleRequest svc m request).1
    (handleWasmLifecycleRequest svc m request).2 := by
  unfold handleWasmLifecycleRequest
  dsimp only
  split
  next hdec => exact .undecoded hdec
  next hdec =>
    split
    next hcall => exact .threw hdec hcall
    next hcall => exact .escaped hdec hcall
    next hcall =>
      split
      next henc => exact .unencoded hdec hcall henc
      next henc => exact .answered hdec hcall henc

variable {svc m request} in
/-- A reply that is not encoded is an Error, and what the manager did stays done. -/
theorem lifecycle_unencoded {req : Wasm.WasmLifecycleRequest} {m' : Manager} {resp : Wasm.WasmLifecycleResponse}
    {e : Bytes}
    (hdec : Wasm.decodeWasmLifecycleRequest request.payload (wasmLimits svc.config.protocolLimits) = .ok req)
    (hcall : Wasm.handleLifecycle m (forKind request.kind req) = (m', .returned resp))
    (henc : Wasm.encodeWasmLifecycleResponse resp (wasmLimits svc.config.protocolLimits) = .error e) :
    handleWasmLifecycleRequest svc m request = (m', .returned
      { taskId := request.taskId, status := .error
        error := ascii "failed to encode WASM lifecycle response: " ++ e }) := by
  rw [forKind] at hcall
  simp only [handleWasmLifecycleRequest, hdec, hcall, henc]

/-- Without a callback the manager always replies to a task. -/
inductive TaskAnswer : Manager → Computed BrokerResponse → Prop
  | undecoded {e : Stop} :
      Wasm.decodeWasmTaskRequest request.payload (wasmLimits svc.config.protocolLimits) = .error e →
      TaskAnswer m (.returned { taskId := request.taskId, status := .rejected
                                error := ascii "failed to decode WASM task request: " ++ e.text })
  | unencoded {req : Wasm.WasmTaskRequest} {m' : Manager} {resp : Wasm.WasmTaskResponse} {e : Bytes} :
      Wasm.decodeWasmTaskRequest request.payload (wasmLimits svc.config.protocolLimits) = .ok req →
      Wasm.TaskOutcome svc.host m req (UInt64.ofNat (clock.task / 10 ^ 6)) m' resp →
      Wasm.encodeWasmTaskResponse resp (wasmLimits svc.config.protocolLimits) = .error e →
      TaskAnswer m' (.returned { taskId := request.taskId, status := .error
                                 error := ascii "failed to encode WASM task response: " ++ e })
  | answered {req : Wasm.WasmTaskRequest} {m' : Manager} {resp : Wasm.WasmTaskResponse} {encoded : Bytes} :
      Wasm.decodeWasmTaskRequest request.payload (wasmLimits svc.config.protocolLimits) = .ok req →
      Wasm.TaskOutcome svc.host m req (UInt64.ofNat (clock.task / 10 ^ 6)) m' resp →
      Wasm.encodeWasmTaskResponse resp (wasmLimits svc.config.protocolLimits) = .ok encoded →
      TaskAnswer m' (.returned { taskId := request.taskId, status := taskStatusOf resp.status
                                 selectedGpu := resp.selectedGpu, result := encoded, error := resp.error })

theorem task_answer : TaskAnswer svc m clock request (handleWasmTaskRequest svc m clock request).1
    (handleWasmTaskRequest svc m clock request).2 := by
  unfold handleWasmTaskRequest
  dsimp only
  split
  next hdec => exact .undecoded hdec
  next req hdec =>
    obtain ⟨m', resp, hcall, hout⟩ :=
      @Wasm.handleTask_outcome m req svc.host (UInt64.ofNat (clock.task / 10 ^ 6))
    rw [hcall]
    dsimp only
    split
    next henc => exact .unencoded hdec hout henc
    next henc => exact .answered hdec hout henc

end

/-! ## Every answer carries the request's task id -/

section
variable (svc : BrokerService) (m : Manager) (clock : Clock) (gpu : Placement) (request : BrokerRequest)

def Carries (answer : Computed BrokerResponse) : Prop := ∀ r, answer = .returned r → r.taskId = request.taskId

theorem carries_returned {r : BrokerResponse} (h : r.taskId = request.taskId) : Carries request (.returned r) := by
  intro r' hr
  cases hr
  exact h

theorem carries_finish {answer : Computed BrokerResponse} (h : Carries request answer) :
    Carries request (answer.map (finishResponse clock request)) := by
  intro r hr
  obtain ⟨r', hr', rfl⟩ := Computed.map_eq_returned.mp hr
  exact (finishResponse_keeps r').1.trans (h r' hr')

theorem carries_echo {α : Type} {decoded : Except Stop α} {r : BrokerResponse} (h : EchoAnswer request decoded r) :
    Carries request (.returned r) := by
  cases h <;> exact carries_returned request rfl

theorem carries_task {m' : Manager} {answer : Computed BrokerResponse} (h : TaskAnswer svc m clock request m' answer) :
    Carries request answer := by
  cases h <;> exact carries_returned request rfl

theorem carries_lifecycle {m' : Manager} {answer : Computed BrokerResponse} (h : LifecycleAnswer svc m request m' answer) :
    Carries request answer := by
  cases h with
  | threw =>
    intro r hr
    cases hr
  | escaped =>
    intro r hr
    cases hr
  | undecoded => exact carries_returned request rfl
  | unencoded => exact carries_returned request rfl
  | answered => exact carries_returned request rfl

theorem carries_inference : Carries request (handleInferenceRequest svc gpu request) := by
  intro r hr
  cases inference_answer hr <;> rfl

theorem carries_handled {m' : Manager} {answer : Computed BrokerResponse} (h : Handled svc m clock gpu request m' answer) :
    Carries request answer := by
  cases h with
  | invalid => exact carries_returned request rfl
  | slept => exact carries_returned request (finishResponse_keeps _).1
  | geospatial => exact carries_finish clock request (carries_echo request (geospatial_answer svc request))
  | media => exact carries_finish clock request (carries_echo request (media_answer svc request))
  | task => exact carries_finish clock request (carries_task svc m clock request (task_answer svc m clock request))
  | lifecycle => exact carries_finish clock request (carries_lifecycle svc m request (lifecycle_answer svc m request))
  | inference => exact carries_finish clock request (carries_inference svc gpu request)

theorem carries_handleRequest : Carries request (handleRequest svc m clock gpu request).2 :=
  carries_handled svc m clock gpu request (handleRequest_handled svc m clock gpu request)

end

end Overhauled.Broker
