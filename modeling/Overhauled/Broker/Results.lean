/-
  Overhauled.Broker.Results — what an answer with status Ok holds, and when a request counts
  as late (`src/broker_service.cpp`, `src/wasm_sandbox.cpp`).

  (1) With the kernels of the repository, in a build without CUDA, an Ok answer of a default
  kind has the doubles of its payload, each doubled as a number, whichever backend ran it and
  whether it fell back (`inference_results_doubled`). So has a WASM task without a callback
  when its payload is packed (`wasm_results_doubled`); another payload comes back as it was.

  (2) An answer says Timeout exactly when the deadline had passed, whatever the handler made
  of the request, and an Ok answer reports fewer milliseconds than the request allows
  (`timeout_iff_late`). No handler answers Timeout on its own.
-/

import Overhauled.Wire.Float64
import Overhauled.Wire.Words
import Overhauled.Broker.Answers

namespace Overhauled.Broker

open Wire
open Wasm (Computed Manager)

/-! ## (1) Doubled -/

/-- The words of the result, as `read` takes them, are those of the payload, doubled. -/
structure ResultDoubled (read : Bytes → UInt64) (payload result : Bytes) : Prop where
  length : result.length = payload.length
  words : ∀ i < payload.length / 8, Doubled (read (Wasm.eight payload i)) (read (Wasm.eight result i))

def readBig (w : Bytes) : UInt64 := UInt64.ofNat (ofBe w)

def readHost (host : Host) (w : Bytes) : UInt64 := UInt64.ofNat (ofMemory host w)

theorem readBig_be (v : UInt64) : readBig (be 8 v.toNat) = v := by
  rw [readBig, ofBe_be_of_lt v.toNat_lt, UInt64.ofNat_toNat]

theorem readHost_memory (host : Host) (v : UInt64) : readHost host (memory host 8 v.toNat) = v := by
  rw [readHost, ofMemory_memory host v.toNat_lt, UInt64.ofNat_toNat]

/-- Words read, doubled and written, in whichever order of bytes. -/
theorem resultDoubled_map {read : Bytes → UInt64} {write : UInt64 → Bytes} (hsize : ∀ v, (write v).length = 8)
    (hread : ∀ v, read (write v) = v) {payload : Bytes} (h : payload.length % 8 = 0) :
    ResultDoubled read payload
      ((((List.range (payload.length / 8)).map fun i => read (Wasm.eight payload i)).map twice).flatMap write) := by
  refine ⟨Wasm.length_eight_words h write hsize _ twice, ?_⟩
  intro i hi
  have hword : (((List.range (payload.length / 8)).map fun i => read (Wasm.eight payload i)).map twice)[i]? =
      some (twice (read (Wasm.eight payload i))) := by
    rw [List.getElem?_map, List.getElem?_map, List.getElem?_range hi]
    rfl
  have hback : Wasm.eight _ i = _ := take_drop_flatMap hsize hword
  rw [hback, hread]
  exact doubled_twice _

theorem decodePayloadAsDoubles_ok {payload : Bytes} {input : List UInt64} (h : decodePayloadAsDoubles payload = .ok input) :
    payload.length % 8 = 0 ∧ input = (List.range (payload.length / 8)).map fun i => readBig (Wasm.eight payload i) := by
  unfold decodePayloadAsDoubles at h
  split at h
  · cases h
  · next hpacked =>
    cases h
    exact ⟨not_not.mp hpacked, rfl⟩

/-- Only where the NPU is available is it chosen. -/
theorem selectBackend_ne_npu {policy : BackendPolicy} (h : policy.npuAvailable = false) (profile : Option TaskProfile) :
    selectBackend policy profile ≠ .npu := by
  cases profile with
  | none =>
    simp only [selectBackend]
    split
    · decide
    · split <;> decide
  | some p =>
    simp only [selectBackend, h, Bool.false_eq_true, and_false, if_false]
    split
    · decide
    · split
      · decide
      · split
        · split <;> decide
        · decide

section
variable {svc : BrokerService} {gpu : Placement} {request : BrokerRequest} {r : BrokerResponse}

theorem runOnGpu_ok {input : List UInt64} (hgpu : svc.config.gpuComputeFn = none)
    (hr : runOnGpu svc gpu request input = .returned r) (hok : r.status = .ok) :
    r.result = encodeDoublesAsPayload (input.map twice) := by
  unfold runOnGpu at hr
  rw [hgpu] at hr
  dsimp only at hr
  split at hr
  · cases hr
  · cases hr
    cases hok
  · split at hr
    · cases hr
      cases hok
    · cases hr
      rfl

/-- Whichever backend, and as a fallback or not: the input, doubled. -/
theorem inference_ok (hgpu : svc.config.gpuComputeFn = none) (hnpu : npuAvailable svc = false)
    (hr : handleInferenceRequest svc gpu request = .returned r) (hok : r.status = .ok) :
    ∃ input, decodePayloadAsDoubles request.payload = .ok input ∧ r.result = encodeDoublesAsPayload (input.map twice) := by
  unfold handleInferenceRequest at hr
  dsimp only at hr
  split at hr
  · cases hr
    cases hok
  next input hdec =>
    refine ⟨input, hdec, ?_⟩
    split at hr
    · cases hr
      rfl
    · split at hr
      next gpuResponse hrun =>
        split at hr
        · cases hr
          exact runOnGpu_ok hgpu hrun hok
        · cases hr
          rfl
      · cases hr
        cases hok
      · cases hr
    next hsel => exact absurd hsel (selectBackend_ne_npu hnpu _)

/-- `finish_response` gives Ok only for what was Ok, and leaves its result alone. -/
theorem result_of_finish_ok {clock : Clock} (hok : (finishResponse clock request r).status = .ok) :
    r.status = .ok ∧ (finishResponse clock request r).result = r.result ∧ clock.ended < deadline request := by
  by_cases hlate : clock.ended ≥ deadline request
  · rw [finishResponse_late hlate] at hok
    cases hok
  · rw [finishResponse_early hlate] at hok ⊢
    exact ⟨hok, rfl, not_le.mp hlate⟩

end

/-- With the kernels of the repository, an Ok answer of a default kind holds the doubled doubles
    of the request, in every configuration and whatever the GPUs are doing. -/
theorem inference_results_doubled (svc : BrokerService) (m : Manager) (clock : Clock) (gpu : Placement)
    (request : BrokerRequest) (r : BrokerResponse) (hgpu : svc.config.gpuComputeFn = none)
    (hnpu : npuAvailable svc = false) (hkind : dedicatedKind request.kind = false)
    (hr : (handleRequest svc m clock gpu request).2 = .returned r) (hok : r.status = .ok) :
    request.payload.length % 8 = 0 ∧ ResultDoubled readBig request.payload r.result := by
  have hdefault : ∃ r', handleInferenceRequest svc gpu request = .returned r' ∧ r = finishResponse clock request r' := by
    have hhandled := handleRequest_handled svc m clock gpu request
    rw [hr] at hhandled
    have hnot : ∀ {P : Prop}, dedicatedKind request.kind = true → P := by
      intro P h
      rw [hkind] at h
      cases h
    generalize (handleRequest svc m clock gpu request).1 = m' at hhandled
    generalize hanswer : Computed.returned r = answer at hhandled
    cases hhandled with
    | invalid =>
      cases hanswer
      cases hok
    | slept =>
      cases hanswer
      cases (result_of_finish_ok hok).1
    | geospatial _ hk => exact hnot (by simp [dedicatedKind, hk])
    | media _ hk => exact hnot (by simp [dedicatedKind, hk])
    | task _ hk => exact hnot (by simp [dedicatedKind, hk])
    | lifecycle _ hk => exact hnot (lifecycle_dedicated hk).2
    | inference =>
      obtain ⟨r', hr', hfinish⟩ := Computed.map_eq_returned.mp hanswer.symm
      exact ⟨r', hr', hfinish.symm⟩
  obtain ⟨r', hr', rfl⟩ := hdefault
  obtain ⟨hok', hresult, -⟩ := result_of_finish_ok hok
  obtain ⟨input, hdec, houtput⟩ := inference_ok hgpu hnpu hr' hok'
  obtain ⟨hpacked, rfl⟩ := decodePayloadAsDoubles_ok hdec
  rw [hresult, houtput]
  exact ⟨hpacked, resultDoubled_map (fun v => length_be 8 _) readBig_be hpacked⟩

/-- One double, 1.0, on the CPU of a service with its defaults. -/
def oneDouble : BrokerRequest :=
  { taskId := ascii "t", source := ascii "a", destination := ascii "b", kind := ascii "inference", timeoutMs := 1000
    payload := [0x3f, 0xf0, 0, 0, 0, 0, 0, 0] }

theorem inference_results_doubled_oneDouble :
    ∃ r, (handleRequest {} {} {} { place := .returned 0 } oneDouble).2 = .returned r ∧
      ResultDoubled readBig oneDouble.payload r.result := by
  have hr : (handleRequest {} {} {} { place := .returned 0 } oneDouble).2 =
      .returned { taskId := ascii "t", status := .ok, backend := .cpu, selectedGpu := -1, result := [0x40, 0, 0, 0, 0, 0, 0, 0] } := by
    decide +kernel
  exact ⟨_, hr, (inference_results_doubled {} {} {} { place := .returned 0 } oneDouble _ rfl rfl (by decide) hr rfl).2⟩

/-- A task that ran without a callback: a packed payload comes back doubled, in the host's
    order, and another one as it was. -/
theorem wasm_results_doubled (host : Host) (m m' : Manager) (request : Wasm.WasmTaskRequest) (latencyMs : UInt64)
    (resp : Wasm.WasmTaskResponse) (hr : Wasm.handleTask host m request none latencyMs = (m', .returned resp))
    (hok : resp.status = .ok) :
    (request.payload.length % 8 = 0 → ResultDoubled (readHost host) request.payload resp.result) ∧
      (request.payload.length % 8 ≠ 0 → resp.result = request.payload) := by
  obtain ⟨m'', resp', hcall, hout⟩ := @Wasm.handleTask_outcome m request host latencyMs
  rw [hr] at hcall
  cases hcall
  have hresult : resp.result = Wasm.defaultCompute host request.payload := by
    cases hout with
    | refused hrefusal => exact absurd hok (Wasm.refusal_why hrefusal).1
    | ran => rfl
  rw [hresult]
  unfold Wasm.defaultCompute
  by_cases hempty : request.payload = []
  · rw [if_pos hempty, hempty]
    refine ⟨fun _ => ⟨rfl, fun i hi => absurd hi (Nat.not_lt_zero i)⟩, fun h => absurd rfl h⟩
  rw [if_neg hempty]
  by_cases hpacked : request.payload.length % 8 = 0
  · rw [if_pos hpacked]
    refine ⟨fun _ => ?_, fun h => absurd hpacked h⟩
    exact resultDoubled_map (fun v => length_memory host 8 _) (readHost_memory host) hpacked
  · rw [if_neg hpacked]
    exact ⟨fun h => absurd h hpacked, fun _ => rfl⟩

/-- One module, prepared, and a task for it with 1.0 as a little-endian host has it. -/
def onePrepared : Manager := Wasm.setModule {} (ascii "s:m:1") (some ⟨ascii "s", ascii "m", ascii "1", .prepared, 0, [], 0⟩)

def oneWasmTask : Wasm.WasmTaskRequest :=
  { sandboxId := ascii "s", moduleId := ascii "m", moduleVersion := ascii "1", payload := [0, 0, 0, 0, 0, 0, 0xf0, 0x3f] }

theorem wasm_results_doubled_oneWasmTask :
    ∃ m' resp, Wasm.handleTask .little onePrepared oneWasmTask none 0 = (m', .returned resp) ∧
      ResultDoubled (readHost .little) oneWasmTask.payload resp.result := by
  obtain ⟨m', resp, hcall, -⟩ := @Wasm.handleTask_outcome onePrepared oneWasmTask .little 0
  have hstatus : (Wasm.handleTask .little onePrepared oneWasmTask none 0).2.map (·.status) = .returned .ok := by decide +kernel
  rw [hcall] at hstatus
  exact ⟨m', resp, hcall, (wasm_results_doubled .little onePrepared m' oneWasmTask 0 resp hcall
    (Computed.returned.inj hstatus)).1 (by decide)⟩

/-! ## (2) Late or not -/

section
variable {svc : BrokerService} {m : Manager} {clock : Clock} {gpu : Placement} {request : BrokerRequest}

/-- No answer of the handler is Timeout. -/
def InTime (answer : Computed BrokerResponse) : Prop := ∀ r, answer = .returned r → r.status ≠ .timeout

theorem inTime_returned {r : BrokerResponse} (h : r.status ≠ .timeout) : InTime (.returned r) := by
  intro r' hr
  cases hr
  exact h

theorem inTime_echo {α : Type} {decoded : Except Stop α} {r : BrokerResponse} (h : EchoAnswer request decoded r) :
    InTime (.returned r) := by
  cases h with
  | undecoded => exact inTime_returned (by simp)
  | echoed => exact inTime_returned (by simp)

theorem taskOutcome_ne_timeout {host : Host} {req : Wasm.WasmTaskRequest} {latencyMs : UInt64} {m' : Manager}
    {resp : Wasm.WasmTaskResponse} (h : Wasm.TaskOutcome host m req latencyMs m' resp) : resp.status ≠ .timeout := by
  cases h with
  | ran =>
    show Wasm.WasmTaskStatus.ok ≠ .timeout
    decide
  | @refused status why hrefusal =>
    show status ≠ .timeout
    unfold Wasm.refusal at hrefusal
    split at hrefusal
    · cases hrefusal
      decide
    split at hrefusal
    · cases hrefusal
      decide
    split at hrefusal
    · cases hrefusal
      decide
    · cases hrefusal

theorem taskStatusOf_ne_timeout {status : Wasm.WasmTaskStatus} (h : status ≠ .timeout) : taskStatusOf status ≠ .timeout := by
  unfold taskStatusOf
  split
  · decide
  · split
    · decide
    · decide

theorem lifecycleStatusOf_ne_timeout (status : Wasm.WasmLifecycleStatus) : lifecycleStatusOf status ≠ .timeout := by
  unfold lifecycleStatusOf
  split
  · decide
  · split
    · decide
    · decide

theorem inTime_task {m' : Manager} {answer : Computed BrokerResponse} (h : TaskAnswer svc m clock request m' answer) :
    InTime answer := by
  cases h with
  | undecoded => exact inTime_returned (by simp)
  | unencoded => exact inTime_returned (by simp)
  | answered _ hout _ => exact inTime_returned (taskStatusOf_ne_timeout (taskOutcome_ne_timeout hout))

theorem inTime_lifecycle {m' : Manager} {answer : Computed BrokerResponse} (h : LifecycleAnswer svc m request m' answer) :
    InTime answer := by
  cases h with
  | threw =>
    intro r hr
    cases hr
  | escaped =>
    intro r hr
    cases hr
  | undecoded => exact inTime_returned (by simp)
  | unencoded => exact inTime_returned (by simp)
  | answered => exact inTime_returned (lifecycleStatusOf_ne_timeout _)

theorem inTime_inference : InTime (handleInferenceRequest svc gpu request) := by
  intro r hr
  cases inference_answer hr with
  | unpacked => simp
  | cpu => simp [runOnCpu]
  | gpu _ => simp
  | full => simp
  | npu => simp
  | threw _ => simp

/-- What the deadline makes of an answer. -/
structure Judged (clock : Clock) (request : BrokerRequest) (r : BrokerResponse) : Prop where
  timeout : r.status = .timeout ↔ deadline request ≤ clock.ended
  empty : r.status = .timeout → r.result = []
  ok : r.status = .ok → r.latencyMs.toNat < request.timeoutMs.toNat

theorem judged_finish {answer : Computed BrokerResponse} (h : InTime answer) {r : BrokerResponse}
    (hr : answer.map (finishResponse clock request) = .returned r) : Judged clock request r := by
  obtain ⟨r', hr', rfl⟩ := Computed.map_eq_returned.mp hr
  by_cases hlate : clock.ended ≥ deadline request
  · rw [finishResponse_late hlate]
    refine ⟨⟨fun _ => hlate, fun _ => rfl⟩, fun _ => rfl, ?_⟩
    intro hok
    cases hok
  · rw [finishResponse_early hlate]
    refine ⟨⟨fun ht => absurd ht (h r' hr'), fun hl => absurd hl hlate⟩, fun ht => absurd ht (h r' hr'), fun _ => ?_⟩
    have hbefore : clock.ended < request.timeoutMs.toNat * 10 ^ 6 := not_le.mp hlate
    have hmillis : clock.ended / 10 ^ 6 < request.timeoutMs.toNat := by omega
    have htimeout := request.timeoutMs.toNat_lt
    show (UInt64.ofNat (clock.ended / 10 ^ 6)).toNat < _
    rw [UInt64.toNat_ofNat_of_lt' (show clock.ended / 10 ^ 6 < 2 ^ 64 by omega)]
    exact hmillis

end

/-- A valid request that is answered gets Timeout, with no result, exactly when its deadline had
    passed at the end; a clock that does not run backwards is all this needs. -/
theorem timeout_iff_late (svc : BrokerService) (m : Manager) (clock : Clock) (gpu : Placement) (request : BrokerRequest)
    (r : BrokerResponse) (hvalid : validateRequest request svc.config.protocolLimits = none)
    (hclock : clock.woken ≤ clock.ended) (hr : (handleRequest svc m clock gpu request).2 = .returned r) :
    Judged clock request r := by
  have hhandled := handleRequest_handled svc m clock gpu request
  rw [hr] at hhandled
  generalize (handleRequest svc m clock gpu request).1 = m' at hhandled
  generalize hanswer : Computed.returned r = answer at hhandled
  cases hhandled with
  | invalid _ herror =>
    rw [hvalid] at herror
    cases herror
  | slept hreach =>
    -- it woke after the deadline, so the end is after it too
    have hslept : sleptThrough svc clock request = true := by
      cases hs : sleptThrough svc clock request with
      | true => rfl
      | false => exact absurd ⟨hvalid, hs⟩ hreach
    have hlate : clock.ended ≥ deadline request := (of_decide_eq_true hslept).2.trans hclock
    cases hanswer
    rw [finishResponse_late hlate]
    refine ⟨⟨fun _ => hlate, fun _ => rfl⟩, fun _ => rfl, ?_⟩
    intro hok
    cases hok
  | geospatial => exact judged_finish (inTime_echo (geospatial_answer svc request)) hanswer.symm
  | media => exact judged_finish (inTime_echo (media_answer svc request)) hanswer.symm
  | task => exact judged_finish (inTime_task (task_answer svc m clock request)) hanswer.symm
  | lifecycle => exact judged_finish (inTime_lifecycle (lifecycle_answer svc m request)) hanswer.symm
  | inference => exact judged_finish inTime_inference hanswer.symm

/-- A request that allows a second and took two. -/
theorem timeout_iff_late_oneDouble :
    ∃ r, (handleRequest {} {} { ended := 2 * 10 ^ 9 } { place := .returned 0 } oneDouble).2 = .returned r ∧ r.status = .timeout := by
  have hr : (handleRequest {} {} { ended := 2 * 10 ^ 9 } { place := .returned 0 } oneDouble).2 =
      .returned { taskId := ascii "t", status := .timeout, backend := .cpu, selectedGpu := -1, latencyMs := 2000
                  error := ascii "request timed out" } := by
    decide +kernel
  exact ⟨_, hr, (timeout_iff_late {} {} { ended := 2 * 10 ^ 9 } { place := .returned 0 } oneDouble _ (by decide)
    (by decide) hr).timeout.mpr (by decide)⟩

end Overhauled.Broker
