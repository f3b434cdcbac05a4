/-
  Overhauled.Broker.Offload — tasks of the default kinds and the accelerators
  (`broker_service.cpp`, `backend_dispatch.h`).

  (1) Which kernels a call hands its task to, and what its answer says of them
  (`default_kind_dispatch`). `tracedInference` is `handle_request`'s dispatch with a
  record of every kernel it calls; without the record it is the dispatch itself
  (`tracedInference_answer`). An accelerator is called only where `select_backend` chose
  it, the answer's backend is the kernel its result comes from, and the CPU stands in
  for an accelerator that failed or was full exactly when the profile allows it.

  (2) The preference "gpu" of the wire (`preference_keeps_gpu_iff`). It stands for a
  profile, and a profile is held to the size threshold; a request without one follows
  the operator's default, whatever its size. So a small task that would run on the GPU
  runs on the CPU when it asks for the GPU (`asking_for_the_gpu_moves_a_small_task_off_it`).
-/

import Overhauled.Broker.Answers

namespace Overhauled.Broker

open Wire
open Wasm (Computed Manager)

/-! ## (1) Kernels and answers -/

/-- A kernel, called with its input. -/
inductive KernelCall where
  | cpu (input : List UInt64)
  | gpu (input : List UInt64) (selectedGpu : Int32)
  | npu (input : List UInt64)

namespace KernelCall

def backend : KernelCall → BackendKind
  | .cpu _ => .cpu
  | .gpu _ _ => .gpu
  | .npu _ => .npu

def input : KernelCall → List UInt64
  | .cpu input => input
  | .gpu input _ => input
  | .npu input => input

end KernelCall

def gpuKernel (svc : BrokerService) (input : List UInt64) (selectedGpu : Int32) : Computed (List UInt64) :=
  match svc.config.gpuComputeFn with
  | some f => f input selectedGpu
  | none => .returned (Wasm.defaultGpuCompute input)

def npuKernel (svc : BrokerService) (input : List UInt64) : Computed (List UInt64) :=
  match svc.config.npuExecutor with
  | some npu => npu.run input
  | none => .escaped

/-- How a kernel is left. -/
def runKernel (svc : BrokerService) : KernelCall → Computed (List UInt64)
  | .cpu input => .returned (cpuCompute input)
  | .gpu input selectedGpu => gpuKernel svc input selectedGpu
  | .npu input => npuKernel svc input

section
variable (svc : BrokerService) (gpu : Placement) (request : BrokerRequest) (input : List UInt64)

def chosenBackend : BackendKind := selectBackend (backendPolicy svc request) (effectiveProfile request)

def fallbackSafe : Bool := (effectiveProfile request).any (·.fallbackSafe)

/-- `run_on_gpu`, with the kernel calls it makes. -/
def tracedRunOnGpu : List KernelCall × Computed BrokerResponse :=
  let response : BrokerResponse := { taskId := request.taskId, backend := .gpu }
  match gpu.place with
  | .escaped => ([], .escaped)
  | .threw what => ([], .returned { response with status := .error, error := what })
  | .returned selectedGpu =>
    let response := { response with selectedGpu }
    if gpu.inflight + 1 > svc.config.maxInflightPerGpu then
      ([], .returned { response with status := .rejected, error := ascii "selected GPU queue is at capacity" })
    else
      match gpuKernel svc input selectedGpu with
      | .returned output =>
        ([.gpu input selectedGpu], .returned { response with status := .ok, result := encodeDoublesAsPayload output })
      | .threw what => ([.gpu input selectedGpu], .returned { response with status := .error, error := what })
      | .escaped => ([.gpu input selectedGpu], .escaped)

/-- The dispatch of a default kind, with the kernel calls it makes. -/
def tracedInference : List KernelCall × Computed BrokerResponse :=
  let response : BrokerResponse := { taskId := request.taskId }
  match decodePayloadAsDoubles request.payload with
  | .error what => ([], .returned { response with status := .error, error := what })
  | .ok input =>
    match chosenBackend svc request with
    | .cpu => ([.cpu input], .returned (runOnCpu request input false))
    | .gpu =>
      match tracedRunOnGpu svc gpu request input with
      | (calls, .returned gpuResponse) =>
        if gpuResponse.status = .ok ∨ fallbackSafe request = false then (calls, .returned gpuResponse)
        else (calls ++ [.cpu input], .returned (runOnCpu request input true))
      | (calls, .threw what) => (calls, .returned { response with status := .error, error := what })
      | (calls, .escaped) => (calls, .escaped)
    | .npu =>
      match npuKernel svc input with
      | .returned output =>
        ([.npu input], .returned { response with result := encodeDoublesAsPayload output, status := .ok, backend := .npu })
      | .threw what =>
        if fallbackSafe request then ([.npu input, .cpu input], .returned (runOnCpu request input true))
        else ([.npu input], .returned { response with status := .error, error := what, backend := .npu })
      | .escaped => ([.npu input], .escaped)

theorem tracedRunOnGpu_answer : (tracedRunOnGpu svc gpu request input).2 = runOnGpu svc gpu request input := by
  unfold tracedRunOnGpu runOnGpu gpuKernel
  cases gpu.place with
  | escaped => rfl
  | threw what => rfl
  | returned selectedGpu =>
    dsimp only
    split
    · rfl
    cases svc.config.gpuComputeFn with
    | none => rfl
    | some f =>
      dsimp only
      cases f input selectedGpu <;> rfl

theorem tracedInference_answer : (tracedInference svc gpu request).2 = handleInferenceRequest svc gpu request := by
  unfold tracedInference handleInferenceRequest
  cases decodePayloadAsDoubles request.payload with
  | error what => rfl
  | ok input =>
    dsimp only
    rw [← tracedRunOnGpu_answer]
    unfold chosenBackend npuKernel fallbackSafe
    cases selectBackend (backendPolicy svc request) (effectiveProfile request) with
    | cpu => rfl
    | gpu =>
      dsimp only
      obtain ⟨calls, answer⟩ := tracedRunOnGpu svc gpu request input
      cases answer with
      | threw what => rfl
      | escaped => rfl
      | returned gpuResponse =>
        dsimp only
        split <;> rfl
    | npu =>
      cases svc.config.npuExecutor with
      | none => rfl
      | some npu =>
        dsimp only
        cases npu.run input with
        | returned output => rfl
        | escaped => rfl
        | threw what =>
          dsimp only
          split <;> rfl

/-- The kernels and the placer are left by return or by a `std::exception`. -/
structure StdOnly : Prop where
  gpuCompute : ∀ f, svc.config.gpuComputeFn = some f → ∀ input selectedGpu, f input selectedGpu ≠ .escaped
  npuRun : ∀ executor, svc.config.npuExecutor = some executor → ∀ input, executor.run input ≠ .escaped
  place : svc.useGpuPlacement = true → gpu.place ≠ .escaped

/-- The accelerator failed, or was at capacity. -/
inductive Fails : BackendKind → Prop
  | unplaced {what : Bytes} : gpu.place = .threw what → Fails .gpu
  | full {selectedGpu : Int32} : gpu.place = .returned selectedGpu →
      gpu.inflight + 1 > svc.config.maxInflightPerGpu → Fails .gpu
  | gpu {selectedGpu : Int32} {what : Bytes} : gpu.place = .returned selectedGpu →
      ¬ gpu.inflight + 1 > svc.config.maxInflightPerGpu → gpuKernel svc input selectedGpu = .threw what → Fails .gpu
  | npu {what : Bytes} : npuKernel svc input = .threw what → Fails .npu

/-- What has to be so for an accelerator to be called. -/
structure Allowed (backend : BackendKind) : Prop where
  chosen : chosenBackend svc request = backend
  notForced : svc.config.forceCpuFallback = false
  profile : ∀ p, effectiveProfile request = some p → profileRequiresCpu p = false
  preference : ¬ (request.profile = none ∧ request.devicePreference = ascii "cpu")
  gpuAvailable : backend = .gpu → svc.useGpuPlacement = true
  npuAvailable : backend = .npu → npuAvailable svc = true

/-- What the calls and the answer of a dispatch have to do with each other. -/
structure Dispatched (calls : List KernelCall) (r : BrokerResponse) : Prop where
  allowed : ∀ call ∈ calls, call.backend ≠ .cpu → Allowed svc request call.backend
  ok : r.status = .ok → ∃ call ∈ calls, ∃ output, call.backend = r.backend ∧ call.input = input ∧
    runKernel svc call = .returned output ∧ r.result = encodeDoublesAsPayload output
  fellBack : r.fellBackToCpu = true ↔ Fails svc gpu input (chosenBackend svc request) ∧ fallbackSafe request = true
  fallback : r.fellBackToCpu = true → r.backend = .cpu ∧ r.selectedGpu = -1 ∧ r.error = []
  failed : Fails svc gpu input (chosenBackend svc request) → fallbackSafe request = false →
    r.status ≠ .ok ∧ r.backend = chosenBackend svc request

/-! ### How a dispatch goes -/

inductive Path : List KernelCall → BrokerResponse → Prop
  | cpu : chosenBackend svc request = .cpu → Path [.cpu input] (runOnCpu request input false)
  | ran {call : KernelCall} {output : List UInt64} {r : BrokerResponse} : call.backend = chosenBackend svc request →
      ¬ Fails svc gpu input (chosenBackend svc request) → call.input = input → runKernel svc call = .returned output →
      r.backend = call.backend → r.result = encodeDoublesAsPayload output → r.fellBackToCpu = false → Path [call] r
  | fellBack {calls : List KernelCall} : Fails svc gpu input (chosenBackend svc request) →
      (∀ call ∈ calls, call.backend = chosenBackend svc request) → fallbackSafe request = true →
      Path (calls ++ [.cpu input]) (runOnCpu request input true)
  | failed {calls : List KernelCall} {r : BrokerResponse} : (∀ call ∈ calls, call.backend = chosenBackend svc request) →
      fallbackSafe request = false → r.status ≠ .ok → r.backend = chosenBackend svc request →
      r.fellBackToCpu = false → Path calls r

inductive GpuPath : List KernelCall → BrokerResponse → Prop
  | ran {selectedGpu : Int32} {output : List UInt64} {r : BrokerResponse} : ¬ Fails svc gpu input .gpu →
      gpuKernel svc input selectedGpu = .returned output → r.status = .ok → r.backend = .gpu →
      r.result = encodeDoublesAsPayload output → r.fellBackToCpu = false → GpuPath [.gpu input selectedGpu] r
  | failed {calls : List KernelCall} {r : BrokerResponse} : Fails svc gpu input .gpu →
      (∀ call ∈ calls, call.backend = .gpu) → r.status ≠ .ok → r.backend = .gpu → r.fellBackToCpu = false →
      GpuPath calls r

variable {svc gpu request input}

theorem StdOnly.gpuKernel (h : StdOnly svc gpu) (selectedGpu : Int32) : gpuKernel svc input selectedGpu ≠ .escaped := by
  unfold Broker.gpuKernel
  split
  next f hf => exact h.gpuCompute f hf input selectedGpu
  next => simp

theorem npuExecutor_of_available (h : npuAvailable svc = true) : ∃ executor, svc.config.npuExecutor = some executor := by
  cases hnpu : svc.config.npuExecutor with
  | none => simp [npuAvailable, hnpu] at h
  | some executor => exact ⟨executor, rfl⟩

theorem StdOnly.npuKernel (h : StdOnly svc gpu) (havailable : npuAvailable svc = true) : npuKernel svc input ≠ .escaped := by
  obtain ⟨executor, hexecutor⟩ := npuExecutor_of_available havailable
  rw [Broker.npuKernel, hexecutor]
  exact h.npuRun executor hexecutor input

/-- Everything `select_backend` looks at before it answers with an accelerator. -/
theorem selectBackend_accelerator {policy : BackendPolicy} {profile : Option TaskProfile}
    (h : selectBackend policy profile ≠ .cpu) :
    policy.forceCpu = false ∧ (∀ p, profile = some p → profileRequiresCpu p = false) ∧
      (selectBackend policy profile = .gpu → policy.gpuAvailable = true) ∧
      (selectBackend policy profile = .npu → policy.npuAvailable = true) := by
  have hforce : policy.forceCpu = false := by
    by_contra hforced
    exact h (selectBackend_forced (by simpa using hforced) profile)
  cases profile with
  | none =>
    refine ⟨hforce, by simp, ?_, ?_⟩
    · intro hgpu
      by_contra hnone
      simp [selectBackend, hforce, hnone] at hgpu
    · intro hnpu
      simp only [selectBackend, hforce, Bool.false_eq_true, if_false] at hnpu
      split at hnpu <;> simp at hnpu
  | some p =>
    have hprofile : profileRequiresCpu p = false := by
      by_contra hrequires
      exact h (by simp [selectBackend, hforce, hrequires])
    refine ⟨hforce, fun q hq => by cases hq; exact hprofile, ?_, ?_⟩
    · intro hgpu
      by_contra hnone
      simp only [selectBackend, hforce, hprofile, hnone, and_false, Bool.false_eq_true, if_false] at hgpu
      split at hgpu <;> simp at hgpu
    · intro hnpu
      by_contra hnone
      simp only [selectBackend, hforce, hprofile, hnone, and_false, Bool.false_eq_true, if_false] at hnpu
      split at hnpu
      · split at hnpu <;> simp at hnpu
      · simp at hnpu

theorem allowed_of_chosen (h : chosenBackend svc request ≠ .cpu) : Allowed svc request (chosenBackend svc request) := by
  obtain ⟨hforce, hprofile, hgpu, hnpu⟩ := selectBackend_accelerator h
  have hforce : svc.config.forceCpuFallback = false ∧
      ¬ (request.profile = none ∧ request.devicePreference = ascii "cpu") := by
    simpa [backendPolicy] using hforce
  exact ⟨rfl, hforce.1, hprofile, hforce.2, hgpu, hnpu⟩

theorem tracedRunOnGpu_path (hstd : StdOnly svc gpu) (havailable : svc.useGpuPlacement = true) :
    ∃ calls r, tracedRunOnGpu svc gpu request input = (calls, .returned r) ∧ GpuPath svc gpu input calls r := by
  unfold tracedRunOnGpu
  cases hplace : gpu.place with
  | escaped => exact absurd hplace (hstd.place havailable)
  | threw what => exact ⟨_, _, rfl, .failed (.unplaced hplace) (by simp) (by simp) rfl rfl⟩
  | returned selectedGpu =>
    dsimp only
    split
    next hfull => exact ⟨_, _, rfl, .failed (.full hplace hfull) (by simp) (by simp) rfl rfl⟩
    next hroom =>
      cases hkernel : Broker.gpuKernel svc input selectedGpu with
      | escaped => exact absurd hkernel (hstd.gpuKernel selectedGpu)
      | threw what => exact ⟨_, _, rfl, .failed (.gpu hplace hroom hkernel) (by simp [KernelCall.backend]) (by simp) rfl rfl⟩
      | returned output =>
        refine ⟨_, _, rfl, .ran ?_ hkernel rfl rfl rfl rfl⟩
        intro hfails
        cases hfails with
        | unplaced h => simp [hplace] at h
        | full h hfull => exact hroom hfull
        | gpu h _ hthrew =>
          rw [hplace] at h
          cases h
          rw [hkernel] at hthrew
          cases hthrew

theorem tracedInference_path (hstd : StdOnly svc gpu) (hdec : decodePayloadAsDoubles request.payload = .ok input) :
    ∃ calls r, tracedInference svc gpu request = (calls, .returned r) ∧ Path svc gpu request input calls r := by
  unfold tracedInference
  rw [hdec]
  dsimp only
  cases hchosen : chosenBackend svc request with
  | cpu => exact ⟨_, _, rfl, .cpu hchosen⟩
  | gpu =>
    have hallowed : Allowed svc request (chosenBackend svc request) := allowed_of_chosen (by rw [hchosen]; decide)
    obtain ⟨calls, r, htraced, hpath⟩ :=
      @tracedRunOnGpu_path svc gpu request input hstd (hallowed.gpuAvailable hchosen)
    dsimp only
    rw [htraced]
    cases hpath with
    | @ran selectedGpu output _ hdone hkernel hstatus hbackend hresult hfell =>
      refine ⟨_, _, if_pos (Or.inl hstatus), ?_⟩
      exact .ran hchosen.symm (by rwa [hchosen]) rfl hkernel hbackend hresult hfell
    | failed hfails hcalls hstatus hbackend hfell =>
      rw [← hchosen] at hfails hcalls hbackend
      cases hsafe : fallbackSafe request with
      | false => exact ⟨_, _, if_pos (Or.inr rfl), .failed hcalls hsafe hstatus hbackend hfell⟩
      | true => exact ⟨_, _, if_neg (by simp [hstatus]), .fellBack hfails hcalls hsafe⟩
  | npu =>
    have hallowed : Allowed svc request (chosenBackend svc request) := allowed_of_chosen (by rw [hchosen]; decide)
    dsimp only
    cases hkernel : Broker.npuKernel svc input with
    | escaped => exact absurd hkernel (hstd.npuKernel (hallowed.npuAvailable hchosen))
    | returned output =>
      have hbackend : (KernelCall.npu input).backend = chosenBackend svc request := hchosen.symm
      refine ⟨_, _, rfl, .ran hbackend ?_ rfl hkernel rfl rfl rfl⟩
      intro hfails
      rw [hchosen] at hfails
      cases hfails with
      | npu hthrew =>
        rw [hkernel] at hthrew
        cases hthrew
    | threw what =>
      have hfails : Fails svc gpu input (chosenBackend svc request) := by
        rw [hchosen]
        exact .npu hkernel
      have hcall : ∀ call ∈ [KernelCall.npu input], call.backend = chosenBackend svc request := by
        simp [hchosen, KernelCall.backend]
      dsimp only
      cases hsafe : fallbackSafe request with
      | false => exact ⟨_, _, rfl, .failed hcall hsafe (by simp) hchosen.symm rfl⟩
      | true => exact ⟨_, _, rfl, .fellBack hfails hcall hsafe⟩

theorem Path.dispatched {calls : List KernelCall} {r : BrokerResponse} (h : Path svc gpu request input calls r) :
    Dispatched svc gpu request input calls r := by
  have hcpu : ∀ fell, ∃ call ∈ [KernelCall.cpu input], ∃ output, call.backend = (runOnCpu request input fell).backend ∧
      call.input = input ∧ runKernel svc call = .returned output ∧
      (runOnCpu request input fell).result = encodeDoublesAsPayload output :=
    fun fell => ⟨.cpu input, by simp, cpuCompute input, rfl, rfl, rfl, rfl⟩
  cases h with
  | cpu hchosen =>
    have hnever : ¬ Fails svc gpu input (chosenBackend svc request) := by
      rw [hchosen]
      intro h
      cases h
    exact
      { allowed := by simp [KernelCall.backend]
        ok := fun _ => hcpu false
        fellBack := by simp [runOnCpu, hnever]
        fallback := by simp [runOnCpu]
        failed := fun hfails => absurd hfails hnever }
  | @ran call output _ hcall hdone hinput hkernel hbackend hresult hfell =>
    refine
      { allowed := ?_
        ok := fun _ => ⟨call, by simp, output, hbackend.symm, hinput, hkernel, hresult⟩
        fellBack := by simp [hfell, hdone]
        fallback := by simp [hfell]
        failed := fun hfails => absurd hfails hdone }
    intro c hc hne
    rw [List.mem_singleton.mp hc, hcall] at hne ⊢
    exact allowed_of_chosen hne
  | @fellBack accelerated hfails hcalls hsafe =>
    refine
      { allowed := ?_
        ok := ?_
        fellBack := by simp [runOnCpu, hfails, hsafe]
        fallback := fun _ => ⟨rfl, rfl, rfl⟩
        failed := fun _ hunsafe => by simp [hsafe] at hunsafe }
    · intro c hc hne
      rcases List.mem_append.mp hc with hc | hc
      · rw [hcalls c hc] at hne ⊢
        exact allowed_of_chosen hne
      · rw [List.mem_singleton.mp hc] at hne
        exact absurd rfl hne
    · intro _
      obtain ⟨call, hcall, hrest⟩ := hcpu true
      exact ⟨call, List.mem_append_right _ hcall, hrest⟩
  | failed hcalls hunsafe hstatus hbackend hfell =>
    refine
      { allowed := ?_
        ok := fun hok => absurd hok hstatus
        fellBack := by simp [hfell, hunsafe]
        fallback := by simp [hfell]
        failed := fun _ _ => ⟨hstatus, hbackend⟩ }
    intro c hc hne
    rw [hcalls c hc] at hne ⊢
    exact allowed_of_chosen hne

end

theorem dispatch_default {svc : BrokerService} {m : Manager} {clock : Clock} {gpu : Placement} {request : BrokerRequest}
    (hkind : dedicatedKind request.kind = false) :
    dispatch svc m clock gpu request = (m, handleInferenceRequest svc gpu request) := by
  simp only [dedicatedKind, decide_eq_false_iff_not, not_or] at hkind
  obtain ⟨hgeo, hmedia, htask, hlife⟩ := hkind
  rw [dispatch, if_neg hgeo, if_neg hmedia, if_neg htask, if_neg hlife]

/-- Every call for a valid packed payload of a default kind is answered, up to the deadline,
    by a response that gives a true account of the kernels the task was handed to. -/
theorem default_kind_dispatch (svc : BrokerService) (gpu : Placement) (request : BrokerRequest)
    (hvalid : validateRequest request svc.config.protocolLimits = none) (hkind : dedicatedKind request.kind = false)
    (hpacked : request.payload.length % 8 = 0) (hstd : StdOnly svc gpu) :
    ∃ input calls r, decodePayloadAsDoubles request.payload = .ok input ∧
      tracedInference svc gpu request = (calls, .returned r) ∧
      (∀ m clock, sleptThrough svc clock request = false →
        handleRequest svc m clock gpu request = (m, .returned (finishResponse clock request r))) ∧
      Dispatched svc gpu request input calls r := by
  obtain ⟨input, hdec⟩ : ∃ input, decodePayloadAsDoubles request.payload = .ok input :=
    ⟨_, by rw [decodePayloadAsDoubles, if_neg (by omega)]⟩
  obtain ⟨calls, r, htraced, hpath⟩ := tracedInference_path hstd hdec
  refine ⟨input, calls, r, hdec, htraced, ?_, hpath.dispatched⟩
  intro m clock hslept
  have hanswer : handleInferenceRequest svc gpu request = .returned r := by rw [← tracedInference_answer, htraced]
  rw [handleRequest_reaches ⟨hvalid, hslept⟩, dispatch_default hkind, hanswer]
  rfl

/-- A service whose GPU is lost, and a task that may run on the CPU then. -/
def lostGpu : BrokerService :=
  { config := { gpuComputeFn := some fun _ _ => .threw (ascii "gpu lost") }, useGpuPlacement := true }

def parallelTask (fallbackSafe : Bool) : BrokerRequest :=
  { taskId := ascii "t", source := ascii "a", destination := ascii "b", kind := ascii "inference", timeoutMs := 1000
    payload := [0x3f, 0xf0, 0, 0, 0, 0, 0, 0]
    profile := some { isDataParallel := true, estimatedBytes := 4 * 1024 * 1024, fallbackSafe } }

theorem lostGpu_std : StdOnly lostGpu { place := .returned 1 } := by
  refine ⟨?_, ?_, by simp⟩
  · intro f hf input selectedGpu
    cases hf
    simp
  · intro executor hexecutor
    cases hexecutor

theorem default_kind_dispatch_lostGpu :
    ∃ calls r, tracedInference lostGpu { place := .returned 1 } (parallelTask true) = (calls, .returned r) ∧
      r.fellBackToCpu = true ∧ r.backend = .cpu ∧ r.selectedGpu = -1 := by
  obtain ⟨input, calls, r, hdec, htraced, -, hdispatched⟩ :=
    default_kind_dispatch lostGpu { place := .returned 1 } (parallelTask true) (by decide) (by decide) (by decide) lostGpu_std
  have hkernel : gpuKernel lostGpu input 1 = .threw (ascii "gpu lost") := rfl
  have hfails : Fails lostGpu { place := .returned 1 } input (chosenBackend lostGpu (parallelTask true)) :=
    .gpu rfl (by decide) hkernel
  have hfell := hdispatched.fellBack.mpr ⟨hfails, rfl⟩
  obtain ⟨hbackend, hgpu, -⟩ := hdispatched.fallback hfell
  exact ⟨calls, r, htraced, hfell, hbackend, hgpu⟩

/-! ## (2) The preference "gpu" -/

/-- The request, with no profile and the given preference. -/
def preferring (request : BrokerRequest) (devicePreference : Bytes) : BrokerRequest :=
  { request with profile := none, devicePreference }

section
variable {svc : BrokerService} {request : BrokerRequest}

theorem chosen_unset : chosenBackend svc (preferring request []) = .gpu ↔
    svc.config.forceCpuFallback = false ∧ svc.config.defaultBackend = .gpu ∧ svc.useGpuPlacement = true := by
  have hprofile : effectiveProfile (preferring request []) = none := rfl
  have hforce : (backendPolicy svc (preferring request [])).forceCpu = svc.config.forceCpuFallback := Bool.or_false _
  rw [chosenBackend, hprofile, selectBackend, hforce]
  cases svc.config.forceCpuFallback with
  | true => simp
  | false =>
    rw [if_neg Bool.false_ne_true]
    split
    next h => simpa [backendPolicy] using h
    next h => simpa [backendPolicy] using h

theorem chosen_gpu : chosenBackend svc (preferring request (ascii "gpu")) = .gpu ↔
    svc.config.forceCpuFallback = false ∧ svc.useGpuPlacement = true ∧
      svc.config.gpuOffloadThresholdBytes ≤ request.payload.length := by
  have hprofile : effectiveProfile (preferring request (ascii "gpu")) =
      some { isDataParallel := true, estimatedBytes := request.payload.length, fallbackSafe := true } := rfl
  have hforce : (backendPolicy svc (preferring request (ascii "gpu"))).forceCpu = svc.config.forceCpuFallback :=
    Bool.or_false _
  rw [chosenBackend, hprofile, selectBackend, hforce]
  cases svc.config.forceCpuFallback with
  | true => simp
  | false =>
    rw [if_neg Bool.false_ne_true, if_neg (by simp [profileRequiresCpu]), if_neg (by simp)]
    cases havailable : svc.useGpuPlacement with
    | false => simp [backendPolicy, havailable]
    | true =>
      by_cases hsize : svc.config.gpuOffloadThresholdBytes ≤ request.payload.length
      · simp [backendPolicy, havailable, hsize]
      -- no flops are estimated, so their threshold, when there is one, is not met either
      have hflops : ¬ (0 < svc.config.gpuOffloadThresholdFlops ∧ svc.config.gpuOffloadThresholdFlops = 0) := by omega
      simpa [backendPolicy, havailable, hsize] using hflops

end

/-- A task that goes to the GPU without a preference stays there when it asks for the GPU, if
    and only if the operator's default does not send a task below the threshold there. -/
theorem preference_keeps_gpu_iff (svc : BrokerService) (request : BrokerRequest) :
    (chosenBackend svc (preferring request []) = .gpu → chosenBackend svc (preferring request (ascii "gpu")) = .gpu) ↔
      ¬ (svc.config.forceCpuFallback = false ∧ svc.config.defaultBackend = .gpu ∧ svc.useGpuPlacement = true ∧
        request.payload.length < svc.config.gpuOffloadThresholdBytes) := by
  rw [chosen_unset, chosen_gpu]
  refine ⟨?_, ?_⟩
  · intro hkeeps hsmall
    obtain ⟨hforce, hdefault, havailable, hsize⟩ := hsmall
    have := (hkeeps ⟨hforce, hdefault, havailable⟩).2.2
    omega
  · intro hbig hunset
    obtain ⟨hforce, hdefault, havailable⟩ := hunset
    refine ⟨hforce, havailable, ?_⟩
    by_contra hsize
    exact hbig ⟨hforce, hdefault, havailable, by omega⟩

/-- Eight bytes, on a service that sends tasks to its GPU by default. -/
theorem asking_for_the_gpu_moves_a_small_task_off_it :
    chosenBackend { config := { defaultBackend := .gpu }, useGpuPlacement := true } (preferring (parallelTask true) []) = .gpu ∧
      chosenBackend { config := { defaultBackend := .gpu }, useGpuPlacement := true }
        (preferring (parallelTask true) (ascii "gpu")) = .cpu := by
  decide

end Overhauled.Broker
