/-
  Overhauled.Broker.History — a broker service from its construction on: a sequence of
  requests, the sandbox manager they leave behind, and what each answer says about where
  a task ran.

  `Setup` is what `BrokerService`'s constructor gets, and what it finds; from it come the
  topology, the manager and its GPU selector. A `Call` is a request with what it meets:
  the clock, the placer's state, the GPU's occupancy. The calls of a history follow each
  other; `answers` are the responses, each with its request.

  (1) A service told to stay on the CPU (`cpu_only_until_pinned`): it has no topology and
      its manager assigns no GPU, except that `prepare_module` looks at the GPU a request
      pins before it looks at the flag. Until some Prepare pins one, no answer names a
      GPU; `a_pinned_prepare_names_a_gpu` is what happens then.
  (2) The backend an Ok answer reports (`backend_truthful_iff`): inference tasks report
      the GPU backend exactly when they report a GPU. A WASM task reports the GPU of its
      module's record, and always the CPU backend: `a_wasm_task_on_a_gpu_reports_cpu`.
-/

import Overhauled.Gpu.Placer
import Overhauled.Machine.Run
import Overhauled.Broker.Brk2Grammar
import Overhauled.Broker.Answers

namespace Overhauled.Broker

open Wire
open Gpu (GpuTopology Placing)
open Machine (EachStep EachStep.mono eachStep_congr trace forall_trace)
open Wasm (Computed Manager GpuSelectorFn)

structure Setup where
  config : BrokerServiceConfig := {}
  backlogThreshold : Nat := 32
  syntheticGpuCount : Int32 := -1
  /-- A manager of the caller's. -/
  wasmManager : Option Manager := none
  /-- What `GpuTopology::detect` finds; nothing when `get_gpu_count` finds no GPU. -/
  detected : Option GpuTopology := none
  host : Host := .little

structure Call where
  request : BrokerRequest
  clock : Clock := {}
  /-- How the placer is called: it meets a state, or a `std::exception` or another is
      thrown on the way. -/
  placing : Computed Placing := .returned {}
  /-- How many computations the GPU it chooses already runs. -/
  inflight : Nat := 0
  /-- The selector of a manager of the caller's, during this call. -/
  selector : Option GpuSelectorFn := none

namespace Setup

variable (s : Setup)

def topology : Option GpuTopology :=
  if s.config.forceCpuFallback then none
  else if s.syntheticGpuCount ≥ 0 then GpuTopology.synthetic s.syntheticGpuCount
  else s.detected

def service : BrokerService := { config := s.config, useGpuPlacement := s.topology.isSome, host := s.host }

/-- The manager at the start; its selector is set for each call. -/
def manager : Manager :=
  match s.wasmManager with
  | some m => m
  | none => { forceCpu := s.config.forceCpuFallback || !s.topology.isSome }

def placed (topo : GpuTopology) : Computed Placing → Computed Int32
  | .returned p => .returned (Int32.ofNat (Gpu.place topo s.backlogThreshold p))
  | .threw what => .threw what
  | .escaped => .escaped

/-- Without a topology no task is sent to `run_on_gpu`. -/
def placement (call : Call) : Placement :=
  { place := match s.topology with
      | some topo => s.placed topo call.placing
      | none => .escaped
    inflight := call.inflight }

def selector (call : Call) : Option GpuSelectorFn :=
  match s.wasmManager with
  | some _ => call.selector
  | none => s.topology.map fun topo _ targetGpu =>
    if targetGpu ≥ 0 then .returned targetGpu else s.placed topo call.placing

def handle (m : Manager) (call : Call) : Manager × Computed BrokerResponse :=
  handleRequest s.service (Wasm.setGpuSelector m (s.selector call)) call.clock (s.placement call) call.request

def serve (m : Manager) (call : Call) : Manager := (s.handle m call).1

def answer (m : Manager) (call : Call) : Option (BrokerRequest × BrokerResponse) :=
  (s.handle m call).2.result.map fun r => (call.request, r)

/-- The responses to a sequence of calls, each with its request. -/
def answers (calls : List Call) : List (BrokerRequest × BrokerResponse) := trace s.serve s.answer s.manager calls

theorem answer_eq {m : Manager} {call : Call} {a : BrokerRequest × BrokerResponse} :
    s.answer m call = some a ↔ (s.handle m call).2 = .returned a.2 ∧ call.request = a.1 := by
  unfold answer
  rw [Option.map_eq_some_iff]
  refine ⟨?_, ?_⟩
  · intro h
    obtain ⟨r, hr, rfl⟩ := h
    exact ⟨Computed.result_eq_some.mp hr, rfl⟩
  · intro h
    exact ⟨a.2, Computed.result_eq_some.mpr h.1, Prod.ext h.2 rfl⟩

end Setup

/-! ## (1) A service told to stay on the CPU -/

/-- The call has the manager store a new record for the GPU the request names. -/
def PinsGpu (svc : BrokerService) (m : Manager) (call : Call) : Prop :=
  Reaches svc call.clock call.request ∧ isLifecycleKind call.request.kind = true ∧
    ∃ req, Wasm.decodeWasmLifecycleRequest call.request.payload (wasmLimits svc.config.protocolLimits) = .ok req ∧
      (forKind call.request.kind req).action = .prepare ∧ Wasm.Vacant m req ∧ 0 ≤ req.targetGpu

/-- The manager assigns no GPU by itself, and has assigned none. -/
structure NoGpu (m : Manager) : Prop where
  forced : m.forceCpu = true
  records : ∀ key record, m.modules key = some record → record.assignedGpu = -1

section
variable {svc : BrokerService} {m : Manager} {request : BrokerRequest} {clock : Clock}

theorem noGpu_set (h : NoGpu m) (key : Bytes) {o : Option Wasm.ModuleRecord}
    (ho : ∀ record, o = some record → record.assignedGpu = -1) : NoGpu (Wasm.setModule m key o) := by
  refine ⟨h.forced, ?_⟩
  intro key' record hrec
  by_cases hkey : key' = key
  · subst hkey
    simp only [Wasm.setModule, Function.update_self] at hrec
    exact ho record hrec
  · simp only [Wasm.setModule, Function.update_of_ne hkey] at hrec
    exact h.records key' record hrec

theorem noGpu_lifecycle {req : Wasm.WasmLifecycleRequest} {m' : Manager} {resp : Computed Wasm.WasmLifecycleResponse}
    (h : NoGpu m) (hpin : ¬ (req.action = .prepare ∧ Wasm.Vacant m req ∧ 0 ≤ req.targetGpu))
    (hout : Wasm.Outcome m req m' resp) : NoGpu m' ∧ ∀ reply, resp = .returned reply → reply.assignedGpu = -1 := by
  cases hout with
  | throws =>
    refine ⟨h, ?_⟩
    intro reply hreply
    cases hreply
  | escapes =>
    refine ⟨h, ?_⟩
    intro reply hreply
    cases hreply
  | keeps _ hgpu _ =>
    refine ⟨h, ?_⟩
    intro reply hreply
    cases hreply
    rcases hgpu with hgpu | ⟨record, hrec, hgpu⟩
    · exact hgpu
    · rw [hgpu]
      exact h.records _ record hrec
  | @creates gpu hc ha hgpu =>
    -- nothing pinned, so the flag decides
    have hnone : gpu = -1 := by
      have htarget : ¬ req.targetGpu ≥ 0 := fun hpos => hpin ⟨ha, ((Wasm.commits_prepare ha).mp hc).2.1, hpos⟩
      rw [Wasm.assignGpu, if_neg htarget, if_pos h.forced] at hgpu
      exact (Computed.returned.inj hgpu).symm
    have hm : NoGpu { m with nextLeaseId := m.nextLeaseId + 1 } := ⟨h.forced, h.records⟩
    refine ⟨noGpu_set hm _ ?_, ?_⟩
    · intro record hrec
      cases hrec
      exact hnone
    · intro reply hreply
      cases hreply
      exact hnone
  | @drains record _ _ hrec _ =>
    have hgpu : record.assignedGpu = -1 := h.records _ record hrec
    refine ⟨noGpu_set h _ ?_, ?_⟩
    · intro record' hrec'
      cases hrec'
      exact hgpu
    · intro reply hreply
      cases hreply
      exact hgpu
  | @releases record _ _ hrec =>
    have hgpu : record.assignedGpu = -1 := h.records _ record hrec
    refine ⟨noGpu_set h _ ?_, ?_⟩
    · intro record' hrec'
      cases hrec'
    · intro reply hreply
      cases hreply
      exact hgpu

theorem noGpu_task {host : Host} {req : Wasm.WasmTaskRequest} {latencyMs : UInt64} {m' : Manager}
    {resp : Wasm.WasmTaskResponse} (h : NoGpu m) (hout : Wasm.TaskOutcome host m req latencyMs m' resp) :
    NoGpu m' ∧ resp.selectedGpu = -1 := by
  cases hout with
  | refused => exact ⟨h, rfl⟩
  | @ran record _ hrec =>
    have hgpu : record.assignedGpu = -1 := h.records _ record hrec
    refine ⟨noGpu_set h _ ?_, hgpu⟩
    intro record' hrec'
    cases hrec'
    exact hgpu

end

theorem selectedGpu_echo {α : Type} {request : BrokerRequest} {decoded : Except Stop α} {r : BrokerResponse}
    (h : EchoAnswer request decoded r) : r.selectedGpu = -1 := by
  cases h <;> rfl

theorem selectedGpu_inference {svc : BrokerService} {gpu : Placement} {request : BrokerRequest} {r : BrokerResponse}
    (hforce : svc.config.forceCpuFallback = true) (hr : handleInferenceRequest svc gpu request = .returned r) :
    r.selectedGpu = -1 := by
  have hcpu : selectBackend (backendPolicy svc request) (effectiveProfile request) = .cpu :=
    selectBackend_forced (by simp [backendPolicy, hforce]) _
  unfold handleInferenceRequest at hr
  dsimp only at hr
  split at hr
  · cases hr
    rfl
  · rw [hcpu] at hr
    cases hr
    rfl

section
variable {svc : BrokerService} {m : Manager} {call : Call} {gpu : Placement}

/-- One call of a service that stays on the CPU. -/
theorem noGpu_handled {m' : Manager} {answer : Computed BrokerResponse} (hforce : svc.config.forceCpuFallback = true)
    (h : NoGpu m) (hpin : ¬ PinsGpu svc m call) (hcall : Handled svc m call.clock gpu call.request m' answer) :
    NoGpu m' ∧ ∀ r, answer = .returned r → r.selectedGpu = -1 := by
  have hfinish : ∀ {o : Computed BrokerResponse}, (∀ r, o = .returned r → r.selectedGpu = -1) →
      ∀ r, o.map (finishResponse call.clock call.request) = .returned r → r.selectedGpu = -1 := by
    intro o ho r hr
    obtain ⟨r', hr', rfl⟩ := Computed.map_eq_returned.mp hr
    exact (finishResponse_keeps r').2.1.trans (ho r' hr')
  have hreturned : ∀ {r : BrokerResponse}, r.selectedGpu = -1 → ∀ r', Computed.returned r = .returned r' → r'.selectedGpu = -1 := by
    intro r hr r' h
    cases h
    exact hr
  cases hcall with
  | invalid => exact ⟨h, hreturned rfl⟩
  | slept => exact ⟨h, hreturned (finishResponse_keeps _).2.1⟩
  | geospatial => exact ⟨h, hfinish (hreturned (selectedGpu_echo (geospatial_answer svc call.request)))⟩
  | media => exact ⟨h, hfinish (hreturned (selectedGpu_echo (media_answer svc call.request)))⟩
  | task =>
    have hanswer := task_answer svc m call.clock call.request
    generalize handleWasmTaskRequest svc m call.clock call.request = done at hanswer ⊢
    obtain ⟨m', r⟩ := done
    dsimp only at hanswer ⊢
    cases hanswer with
    | undecoded => exact ⟨h, hfinish (hreturned rfl)⟩
    | unencoded _ hout _ => exact ⟨(noGpu_task h hout).1, hfinish (hreturned rfl)⟩
    | answered _ hout _ => exact ⟨(noGpu_task h hout).1, hfinish (hreturned (noGpu_task h hout).2)⟩
  | lifecycle hreach hkind =>
    have hanswer := lifecycle_answer svc m call.request
    generalize handleWasmLifecycleRequest svc m call.request = done at hanswer ⊢
    obtain ⟨m', r⟩ := done
    dsimp only at hanswer ⊢
    have hkept : ∀ {req resp}, Wasm.decodeWasmLifecycleRequest call.request.payload (wasmLimits svc.config.protocolLimits) = .ok req →
        Wasm.handleLifecycle m (forKind call.request.kind req) = (m', resp) →
        NoGpu m' ∧ ∀ reply, resp = .returned reply → reply.assignedGpu = -1 := by
      intro req resp hdec hact
      have hout := @Wasm.handleLifecycle_outcome m (forKind call.request.kind req)
      rw [hact] at hout
      refine noGpu_lifecycle h ?_ hout
      intro hbad
      exact hpin ⟨hreach, hkind, req, hdec, hbad⟩
    cases hanswer with
    | undecoded => exact ⟨h, hfinish (hreturned rfl)⟩
    | threw hdec hact =>
      refine ⟨(hkept hdec hact).1, hfinish ?_⟩
      intro r hr
      cases hr
    | escaped hdec hact =>
      refine ⟨(hkept hdec hact).1, hfinish ?_⟩
      intro r hr
      cases hr
    | unencoded hdec hact _ => exact ⟨(hkept hdec hact).1, hfinish (hreturned rfl)⟩
    | answered hdec hact _ => exact ⟨(hkept hdec hact).1, hfinish (hreturned ((hkept hdec hact).2 _ rfl))⟩
  | inference => exact ⟨h, hfinish fun r hr => selectedGpu_inference hforce hr⟩

end

/-- As long as no request has the manager store a record for a GPU of its own choice, a
    service told to stay on the CPU names no GPU in any answer. -/
theorem cpu_only_until_pinned (s : Setup) (hforce : s.config.forceCpuFallback = true) (hown : s.wasmManager = none)
    (calls : List Call) (hrun : EachStep s.serve (fun m call => ¬ PinsGpu s.service m call) s.manager calls) :
    ∀ a ∈ s.answers calls, a.2.selectedGpu = -1 := by
  have hstart : NoGpu s.manager := by
    unfold Setup.manager
    rw [hown]
    refine ⟨by simp [hforce], ?_⟩
    intro key record hrec
    cases hrec
  have hstep : ∀ m call, NoGpu m → ¬ PinsGpu s.service m call →
      NoGpu (s.serve m call) ∧ ∀ a, s.answer m call = some a → a.2.selectedGpu = -1 := by
    intro m call hm hpin
    have hm' : NoGpu (Wasm.setGpuSelector m (s.selector call)) := ⟨hm.forced, hm.records⟩
    have hcall := noGpu_handled hforce hm' hpin (handleRequest_handled s.service _ _ (s.placement call) _)
    refine ⟨hcall.1, ?_⟩
    intro a ha
    exact hcall.2 a.2 (s.answer_eq.mp ha).1
  refine forall_trace.mpr (hrun.mono (I := NoGpu) hstart ?_ ?_)
  · intro m call hm hpin
    exact (hstep m call hm hpin).1
  · intro m call hm hpin
    exact (hstep m call hm hpin).2

def wasmCall (kind payload : Bytes) : Call :=
  { request := { taskId := ascii "t", source := ascii "s", destination := ascii "d", kind, timeoutMs := 1000, payload } }

/-- Prepares the small task's module, on the GPU or, below 0, on none in particular. -/
def prepareOn (targetGpu : Int32) : Call :=
  wasmCall Wasm.kWasmLifecycleKind (Wasm.lifecycleRequestBytes { Wasm.smallPrepare with targetGpu })

def runSmallTask : Call := wasmCall Wasm.kWasmTaskKind (Wasm.taskRequestBytes 0 Wasm.smallTask)

def cpuSetup : Setup := { config := { forceCpuFallback := true } }

theorem cpu_only_until_pinned_small :
    (cpuSetup.answers [prepareOn (-2), runSmallTask]).map (·.2.status) = [.ok, .ok] ∧
      (cpuSetup.answers [prepareOn (-2), runSmallTask]).all (fun a => decide (a.2.selectedGpu = -1)) = true := by
  have hdec : Wasm.decodeWasmLifecycleRequest (prepareOn (-2)).request.payload (wasmLimits {}) = .ok Wasm.smallPrepare := by
    decide +kernel
  refine ⟨by decide +kernel, ?_⟩
  rw [List.all_eq_true]
  intro a ha
  refine decide_eq_true (cpu_only_until_pinned cpuSetup rfl rfl [prepareOn (-2), runSmallTask] ⟨?_, ?_, trivial⟩ a ha)
  · rintro ⟨-, -, req, hdec', -, -, hpos⟩
    cases hdec.symm.trans hdec'
    exact absurd hpos (by decide)
  · rintro ⟨-, hkind, -⟩
    exact absurd hkind (by decide)

/-- Told to stay on the CPU, the service names the GPU that a Prepare pinned, then and in
    the answers to tasks of that module. -/
theorem a_pinned_prepare_names_a_gpu :
    (cpuSetup.answers [prepareOn 2, runSmallTask]).map (·.2.selectedGpu) = [2, 2] := by
  decide +kernel

/-! ## (2) The backend an answer reports -/

/-- The kinds that execute a task. -/
def TaskKind (kind : Bytes) : Prop := kind = Wasm.kWasmTaskKind ∨ dedicatedKind kind = false

instance (kind : Bytes) : Decidable (TaskKind kind) := inferInstanceAs (Decidable (_ ∨ _))

def Consistent (r : BrokerResponse) : Prop := r.backend = .gpu ↔ 0 ≤ r.selectedGpu

/-- The same of what a BRK2 client reads: field 7 says "gpu" when field 3, a signed
    integer, is not negative. -/
def ConsistentOnWire (r : BrokerResponse) : Prop :=
  ∀ gpu backend, ⟨3, wtI64, 0, gpu⟩ ∈ responseFields r → ⟨7, wtUtf8, 0, backend⟩ ∈ responseFields r →
    (backend = ascii "gpu" ↔ ofBe gpu < 2 ^ 63)

def Truthful (a : BrokerRequest × BrokerResponse) : Prop :=
  TaskKind a.1.kind → a.2.status = .ok → Consistent a.2 ∧ ConsistentOnWire a.2

/-- The call runs a WASM task in time, on a module that has a GPU. -/
def RunsOnGpu (svc : BrokerService) (m : Manager) (call : Call) : Prop :=
  Reaches svc call.clock call.request ∧ call.clock.ended < deadline call.request ∧
    call.request.kind = Wasm.kWasmTaskKind ∧
    ∃ req record, Wasm.decodeWasmTaskRequest call.request.payload (wasmLimits svc.config.protocolLimits) = .ok req ∧
      Wasm.refusal m req = none ∧ m.modules (Wasm.taskKey req) = some record ∧ 0 ≤ record.assignedGpu

theorem lifecycle_not_taskKind {kind : Bytes} (h : isLifecycleKind kind = true) : ¬ TaskKind kind := by
  obtain ⟨htask, hkind⟩ := lifecycle_dedicated h
  rintro (h | h)
  · exact htask h
  · rw [hkind] at h
    cases h

theorem backendName_gpu (backend : BackendKind) : backendName backend = ascii "gpu" ↔ backend = .gpu := by
  cases backend <;> decide

theorem signBit_iff (x : Int32) : x.toInt64.toUInt64.toNat < 2 ^ 63 ↔ 0 ≤ x := by
  have hwide : x.toInt64.toBitVec.toInt = x.toInt := Int32.toInt_toInt64 x
  rw [BitVec.toInt_eq_toNat_cond] at hwide
  have hnat : x.toInt64.toUInt64.toNat = x.toInt64.toBitVec.toNat := rfl
  have hle : 0 ≤ x ↔ 0 ≤ x.toInt := Int32.le_iff_toInt_le
  have hlow := x.le_toInt
  have hhigh := x.toInt_lt
  rw [hnat, hle]
  split at hwide <;> omega

theorem consistentOnWire_iff (r : BrokerResponse) : ConsistentOnWire r ↔ Consistent r := by
  have hsign : ofBe (be 8 r.selectedGpu.toInt64.toUInt64.toNat) < 2 ^ 63 ↔ 0 ≤ r.selectedGpu := by
    rw [ofBe_be_of_lt (UInt64.toNat_lt _), signBit_iff]
  have hfields : ConsistentOnWire r ↔
      (backendName r.backend = ascii "gpu" ↔ ofBe (be 8 r.selectedGpu.toInt64.toUInt64.toNat) < 2 ^ 63) := by
    simp [ConsistentOnWire, responseFields]
  rw [hfields, hsign, backendName_gpu, Consistent]

theorem truthful_iff {request : BrokerRequest} {r : BrokerResponse} :
    Truthful (request, r) ↔ (TaskKind request.kind → r.status = .ok → Consistent r) := by
  simp only [Truthful, consistentOnWire_iff, and_self]

section
variable {svc : BrokerService} {m : Manager} {call : Call} {gpu : Placement} {request : BrokerRequest}

theorem finishResponse_ok {clock : Clock} {r : BrokerResponse} :
    (finishResponse clock request r).status = .ok ↔ r.status = .ok ∧ clock.ended < deadline request := by
  by_cases h : clock.ended ≥ deadline request
  · rw [finishResponse_late h]
    exact iff_of_false (by simp) fun hok => absurd hok.2 (by omega)
  · rw [finishResponse_early h]
    exact (and_iff_left (by omega)).symm

theorem truthful_finish {clock : Clock} {r : BrokerResponse} :
    Truthful (request, finishResponse clock request r) ↔
      (TaskKind request.kind → r.status = .ok → clock.ended < deadline request → Consistent r) := by
  obtain ⟨-, hgpu, hbackend⟩ := @finishResponse_keeps clock request r
  have hsame : Consistent (finishResponse clock request r) ↔ Consistent r := by rw [Consistent, Consistent, hgpu, hbackend]
  rw [truthful_iff, finishResponse_ok, hsame]
  tauto

/-- Of inference tasks, because the placer's choice is a GPU. -/
theorem inference_consistent {r : BrokerResponse} (hplace : ∀ g, gpu.place = .returned g → 0 ≤ g)
    (hr : InferenceAnswer svc gpu request r) (hok : r.status = .ok) : Consistent r := by
  have hcpu : ∀ {r : BrokerResponse}, r.backend ≠ .gpu → r.selectedGpu = -1 → Consistent r := by
    intro r hbackend hgpu
    rw [Consistent, hgpu]
    exact iff_of_false hbackend (by decide)
  cases hr with
  | unpacked => cases hok
  | cpu => exact hcpu (by simp [runOnCpu]) rfl
  | gpu hg => exact iff_of_true rfl (hplace _ hg)
  | full => cases hok
  | npu => exact hcpu (by simp) rfl
  | threw => cases hok

theorem taskStatusOf_ok {status : Wasm.WasmTaskStatus} : taskStatusOf status = .ok ↔ status = .ok := by
  unfold taskStatusOf
  split
  · simp [*]
  repeat' split
  all_goals simp_all

/-- Of WASM tasks, exactly when the task does not run or its module has no GPU. -/
theorem task_consistent_iff {m' : Manager} {answer : Computed BrokerResponse} {clock : Clock}
    (hanswer : TaskAnswer svc m clock request m' answer) :
    (∀ r, answer = .returned r → r.status = .ok → Consistent r) ↔
      ¬ ∃ req record, Wasm.decodeWasmTaskRequest request.payload (wasmLimits svc.config.protocolLimits) = .ok req ∧
        Wasm.refusal m req = none ∧ m.modules (Wasm.taskKey req) = some record ∧ 0 ≤ record.assignedGpu := by
  have hnot : ∀ {r : BrokerResponse}, r.status ≠ .ok → ∀ r', Computed.returned r = .returned r' → r'.status = .ok → Consistent r' := by
    intro r hstatus r' hr hok
    cases hr
    exact absurd hok hstatus
  cases hanswer with
  | undecoded hdec =>
    refine iff_of_true (hnot (by simp)) ?_
    rintro ⟨req, record, hdec', -⟩
    rw [hdec] at hdec'
    cases hdec'
  | unencoded hdec hout henc =>
    refine iff_of_true (hnot (by simp)) ?_
    rintro ⟨req, record, hdec', hnone, -⟩
    rw [hdec] at hdec'
    cases hdec'
    cases hout with
    | refused href =>
      rw [hnone] at href
      cases href
    | ran =>
      -- the reply of a task that ran always has room
      obtain ⟨encoded, hok⟩ := Wasm.ranReply_encodes hdec _ _ _
      rw [hok] at henc
      cases henc
  | answered hdec hout henc =>
    cases hout with
    | refused href =>
      refine iff_of_true (hnot ?_) ?_
      · exact fun hok => (Wasm.refusal_why href).1 (taskStatusOf_ok.mp hok)
      · rintro ⟨req, record, hdec', hnone, -⟩
        rw [hdec] at hdec'
        cases hdec'
        rw [hnone] at href
        cases href
    | @ran record hnone hrec =>
      refine ⟨?_, ?_⟩
      · rintro h ⟨req, record', hdec', -, hrec', hgpu⟩
        rw [hdec] at hdec'
        cases hdec'
        rw [hrec] at hrec'
        cases hrec'
        exact absurd ((h _ rfl rfl).mpr hgpu) (by simp)
      · intro h r hr _
        cases hr
        exact iff_of_false (by simp) fun hgpu => h ⟨_, record, hdec, hnone, hrec, hgpu⟩

/-- One call. -/
theorem handled_truthful_iff {m' : Manager} {answer : Computed BrokerResponse}
    (hplace : ∀ g, gpu.place = .returned g → 0 ≤ g) (hcall : Handled svc m call.clock gpu call.request m' answer) :
    (∀ r, answer = .returned r → Truthful (call.request, r)) ↔ ¬ RunsOnGpu svc m call := by
  have hother : ∀ {o : Computed BrokerResponse}, ¬ TaskKind call.request.kind →
      ((∀ r, o = .returned r → Truthful (call.request, r)) ↔ ¬ RunsOnGpu svc m call) := by
    intro o hkind
    exact iff_of_true (fun _ _ htask => absurd htask hkind) fun h => hkind (Or.inl h.2.2.1)
  have hnot : ∀ {r : BrokerResponse}, ¬ Reaches svc call.clock call.request → r.status ≠ .ok →
      ((∀ r', Computed.returned r = .returned r' → Truthful (call.request, r')) ↔ ¬ RunsOnGpu svc m call) := by
    intro r hreach hstatus
    refine iff_of_true ?_ fun h => hreach h.1
    intro r' hr _ hok
    cases hr
    exact absurd hok hstatus
  cases hcall with
  | invalid hreach => exact hnot hreach (by simp)
  | slept hreach => exact hnot hreach fun hok => by cases (finishResponse_ok.mp hok).1
  | geospatial _ hkind => exact hother (by rw [hkind]; decide)
  | media _ hkind => exact hother (by rw [hkind]; decide)
  | lifecycle _ hkind => exact hother (lifecycle_not_taskKind hkind)
  | task hreach hkind =>
    have hiff := task_consistent_iff (task_answer svc m call.clock call.request)
    refine ⟨?_, ?_⟩
    · rintro h ⟨-, hintime, -, hruns⟩
      refine hiff.mp ?_ hruns
      intro r hr hok
      exact truthful_finish.mp (h _ (Computed.map_eq_returned.mpr ⟨r, hr, rfl⟩)) (Or.inl hkind) hok hintime
    · intro h r hr
      obtain ⟨r', hr', rfl⟩ := Computed.map_eq_returned.mp hr
      refine truthful_finish.mpr fun _ hok hintime => ?_
      exact hiff.mpr (fun hruns => h ⟨hreach, hintime, hkind, hruns⟩) r' hr' hok
  | inference _ hkind =>
    refine iff_of_true ?_ ?_
    · intro r hr
      obtain ⟨r', hr', rfl⟩ := Computed.map_eq_returned.mp hr
      exact truthful_finish.mpr fun _ hok _ => inference_consistent hplace (inference_answer hr') hok
    · intro h
      rw [h.2.2.1] at hkind
      cases hkind

end

theorem Setup.placement_nonneg (s : Setup) (call : Call) (g : Int32) (h : (s.placement call).place = .returned g) :
    0 ≤ g := by
  unfold Setup.placement at h
  dsimp only at h
  split at h
  next topo _ =>
    unfold Setup.placed at h
    split at h
    · cases h
      exact Gpu.ofNat_gpu_nonneg (Gpu.place_lt topo _ _)
    · cases h
    · cases h
  · cases h

/-- Every Ok answer to a task reports the GPU backend exactly when it reports a GPU, unless
    the history runs a WASM task whose module has a GPU. -/
theorem backend_truthful_iff (s : Setup) (calls : List Call) :
    (∀ a ∈ s.answers calls, Truthful a) ↔
      EachStep s.serve (fun m call => ¬ RunsOnGpu s.service m call) s.manager calls := by
  refine forall_trace.trans (eachStep_congr fun m call => ?_)
  have hcall := handled_truthful_iff (s.placement_nonneg call)
    (handleRequest_handled s.service (Wasm.setGpuSelector m (s.selector call)) call.clock (s.placement call) call.request)
  refine Iff.trans ?_ hcall
  refine ⟨?_, ?_⟩
  · intro h r hr
    exact h _ (s.answer_eq.mpr ⟨hr, rfl⟩)
  · intro h a ha
    obtain ⟨hr, hreq⟩ := s.answer_eq.mp ha
    have := h a.2 hr
    rwa [hreq] at this

/-- On a service with four GPUs the module is placed on GPU 0, and its task reports both
    that GPU and the CPU backend. -/
theorem a_wasm_task_on_a_gpu_reports_cpu :
    (({ syntheticGpuCount := 4 } : Setup).answers [prepareOn (-1), runSmallTask]).map
      (fun a => (a.2.status, a.2.selectedGpu, a.2.backend)) = [(.ok, 0, .cpu), (.ok, 0, .cpu)] := by
  decide +kernel

end Overhauled.Broker
