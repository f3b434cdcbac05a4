/-
  Overhauled.Wasm.Outcome — what one call of the sandbox manager does: to which record,
  and what it replies.

  A lifecycle call either leaves the module table and the lease counter alone, or stores
  a new record (Prepare), shuts one (Drain) or erases one (Release). `Commits` says
  beforehand which of the two, from the table and the request; `Outcome` is what then
  comes of it. `TaskOutcome` is the same for a task that runs without other callers in
  between: it is refused, with the module version quoted in the text, or it is counted
  in and out again and reports the record's GPU.
-/

import Overhauled.Wire.Utf8
import Overhauled.Wasm.Manager

namespace Overhauled.Wasm

open Wire

/-! ## What each locked section can do -/

/-- The states a stored record is in. -/
def Live (state : WasmModuleState) : Prop :=
  state = .prepared ∨ state = .active ∨ state = .draining ∨ state = .stopped

/-- `prepare_module` stores a new record, over nothing or over one that is not live. -/
def Stores (m : Manager) (request : WasmLifecycleRequest) (record : ModuleRecord) : Prop :=
  record.state = .prepared ∧ record.activeTasks = 0 ∧
    (prepareModule m request).1.modules = Function.update m.modules (lifecycleKey request) (some record) ∧
    ∀ old, m.modules (lifecycleKey request) = some old → ¬ Live old.state

theorem createModule_cases (m : Manager) (request : WasmLifecycleRequest) :
    (createModule m request).1 = m ∨ ∃ record : ModuleRecord, record.state = .prepared ∧ record.activeTasks = 0 ∧
      (createModule m request).1.modules = Function.update m.modules (lifecycleKey request) (some record) := by
  unfold createModule
  split
  · exact Or.inl rfl
  · exact Or.inl rfl
  · exact Or.inr ⟨_, rfl, rfl, rfl⟩

theorem prepareModule_cases (m : Manager) (request : WasmLifecycleRequest) :
    (prepareModule m request).1 = m ∨ ∃ record, Stores m request record := by
  unfold Stores prepareModule
  simp only
  split
  · exact Or.inl rfl
  split
  · rename_i hnone
    rcases createModule_cases m request with h | ⟨record, h1, h2, h3⟩
    · exact Or.inl h
    · exact Or.inr ⟨record, h1, h2, h3, by rw [hnone]; intro old h; cases h⟩
  · rename_i old hsome
    split
    · exact Or.inl rfl
    split
    · exact Or.inl rfl
    · rename_i hopen hshut
      rcases createModule_cases m request with h | ⟨record, h1, h2, h3⟩
      · exact Or.inl h
      · refine Or.inr ⟨record, h1, h2, h3, ?_⟩
        intro old' h
        rw [hsome] at h
        cases h
        unfold Live
        tauto

/-- The record after a Drain. -/
def drained (record : ModuleRecord) : ModuleRecord :=
  { record with state := if record.activeTasks = 0 then .stopped else .draining }

theorem drainModule_cases (m : Manager) (request : WasmLifecycleRequest) :
    ((drainModule m request).1 = m ∧ (drainModule m request).2.status ≠ .ok) ∨
      ∃ record, m.modules (lifecycleKey request) = some record ∧ (drainModule m request).2.status = .ok ∧
        (drainModule m request).1 = setModule m (lifecycleKey request) (some (drained record)) := by
  unfold drainModule
  simp only
  split
  · exact Or.inl ⟨rfl, by show WasmLifecycleStatus.notFound ≠ .ok; decide⟩
  · rename_i record hrec
    split
    · exact Or.inl ⟨rfl, by show WasmLifecycleStatus.notFound ≠ .ok; decide⟩
    · exact Or.inr ⟨record, hrec, rfl, rfl⟩

theorem releaseModule_cases (m : Manager) (request : WasmLifecycleRequest) :
    ((releaseModule m request).1 = m ∧ (releaseModule m request).2.status ≠ .ok) ∨
      ∃ record, m.modules (lifecycleKey request) = some record ∧ record.activeTasks = 0 ∧
        (releaseModule m request).2.status = .ok ∧
        (releaseModule m request).1 = setModule m (lifecycleKey request) none := by
  unfold releaseModule
  simp only
  split
  · exact Or.inl ⟨rfl, by show WasmLifecycleStatus.notFound ≠ .ok; decide⟩
  · rename_i record hrec
    split
    · exact Or.inl ⟨rfl, by show WasmLifecycleStatus.busy ≠ .ok; decide⟩
    · rename_i hpos
      exact Or.inr ⟨record, hrec, by simpa using hpos, rfl, rfl⟩

/-- The record after it admitted a task. -/
def countIn (record : ModuleRecord) : ModuleRecord :=
  { record with state := .active, activeTasks := record.activeTasks + 1 }

theorem release_ok_of_zero {m : Manager} {request : WasmLifecycleRequest} {record : ModuleRecord}
    (hrec : m.modules (lifecycleKey request) = some record) (hzero : record.activeTasks = 0) :
    (releaseModule m request).2.status = .ok := by
  simp only [releaseModule, hrec, hzero]
  rfl

theorem taskEnd_cases (m : Manager) (request : WasmTaskRequest) :
    (m.modules (taskKey request) = none ∧ taskEnd m request = m) ∨
      ∃ record, m.modules (taskKey request) = some record ∧
        taskEnd m request = setModule m (taskKey request) (some (countOut record)) := by
  unfold taskEnd
  split
  · rename_i hnone
    exact Or.inl ⟨hnone, rfl⟩
  · rename_i record hrec
    exact Or.inr ⟨record, hrec, rfl⟩

/-! ## Lifecycle calls -/

section
variable (m : Manager) (request : WasmLifecycleRequest)

/-- The record a Prepare stores. -/
def newRecord (assignedGpu : Int32) : ModuleRecord :=
  { sandboxId := request.sandboxId, moduleId := request.moduleId, version := request.moduleVersion, assignedGpu
    leaseToken := newLease m request }

def withNewRecord (assignedGpu : Int32) : Manager :=
  setModule { m with nextLeaseId := m.nextLeaseId + 1 } (lifecycleKey request) (some (newRecord m request assignedGpu))

/-- Nothing under the request's key keeps a Prepare from storing a new record. -/
def Vacant : Prop := ∀ record, m.modules (lifecycleKey request) = some record → ¬ Live record.state

/-- The call changes the module table. -/
def Commits : Prop :=
  (request.action = .prepare ∧ (request.sandboxId ≠ [] ∧ request.moduleId ≠ [] ∧ request.moduleVersion ≠ []) ∧
      Vacant m request ∧ ∃ gpu, assignGpu m request = .returned gpu) ∨
    (request.action = .drain ∧ ∃ record, m.modules (lifecycleKey request) = some record ∧
      record.state ≠ .released ∧ drained record ≠ record) ∨
    (request.action = .release ∧ ∃ record, m.modules (lifecycleKey request) = some record ∧ record.activeTasks = 0)

/-- The reply names no GPU, or that of the record. -/
def NamesGpu (resp : WasmLifecycleResponse) : Prop :=
  resp.assignedGpu = -1 ∨
    ∃ record, m.modules (lifecycleKey request) = some record ∧ resp.assignedGpu = record.assignedGpu

inductive Outcome : Manager → Computed WasmLifecycleResponse → Prop
  /-- The GPU selector threw, a `std::exception` or something else. -/
  | throws {what : Bytes} : ¬ Commits m request → Outcome m (.threw what)
  | escapes : ¬ Commits m request → Outcome m .escaped
  | keeps {resp : WasmLifecycleResponse} : ¬ Commits m request → NamesGpu m request resp → Ascii resp.error →
      Outcome m (.returned resp)
  | creates {gpu : Int32} : Commits m request → request.action = .prepare → assignGpu m request = .returned gpu →
      Outcome (withNewRecord m request gpu) (.returned (recordReply .prepare request (newRecord m request gpu)))
  | drains {record : ModuleRecord} : Commits m request → request.action = .drain →
      m.modules (lifecycleKey request) = some record → drained record ≠ record →
      Outcome (setModule m (lifecycleKey request) (some (drained record)))
        (.returned (recordReply .drain request (drained record)))
  | releases {record : ModuleRecord} : Commits m request → request.action = .release →
      m.modules (lifecycleKey request) = some record →
      Outcome (setModule m (lifecycleKey request) none)
        (.returned { recordReply .release request record with state := .released, activeTasks := 0 })

end

section
variable {m : Manager} {request : WasmLifecycleRequest}

theorem commits_prepare (ha : request.action = .prepare) :
    Commits m request ↔ (request.sandboxId ≠ [] ∧ request.moduleId ≠ [] ∧ request.moduleVersion ≠ []) ∧
      Vacant m request ∧ ∃ gpu, assignGpu m request = .returned gpu := by
  have h1 : ¬ WasmLifecycleAction.prepare = .drain := by decide
  have h2 : ¬ WasmLifecycleAction.prepare = .release := by decide
  simp only [Commits, ha, true_and, h1, h2, false_and, or_false]

theorem commits_drain (ha : request.action = .drain) :
    Commits m request ↔ ∃ record, m.modules (lifecycleKey request) = some record ∧
      record.state ≠ .released ∧ drained record ≠ record := by
  have h1 : ¬ WasmLifecycleAction.drain = .prepare := by decide
  have h2 : ¬ WasmLifecycleAction.drain = .release := by decide
  simp only [Commits, ha, true_and, h1, h2, false_and, or_false, false_or]

theorem commits_release (ha : request.action = .release) :
    Commits m request ↔ ∃ record, m.modules (lifecycleKey request) = some record ∧ record.activeTasks = 0 := by
  have h1 : ¬ WasmLifecycleAction.release = .prepare := by decide
  have h2 : ¬ WasmLifecycleAction.release = .drain := by decide
  simp only [Commits, ha, true_and, h1, h2, false_and, false_or]

theorem createModule_outcome (ha : request.action = .prepare)
    (hn : request.sandboxId ≠ [] ∧ request.moduleId ≠ [] ∧ request.moduleVersion ≠ []) (hv : Vacant m request) :
    Outcome m request (createModule m request).1 (createModule m request).2 := by
  unfold createModule
  split
  next what hg =>
    refine .throws fun hc => ?_
    obtain ⟨gpu, hgpu⟩ := ((commits_prepare ha).mp hc).2.2
    cases hg.symm.trans hgpu
  next hg =>
    refine .escapes fun hc => ?_
    obtain ⟨gpu, hgpu⟩ := ((commits_prepare ha).mp hc).2.2
    cases hg.symm.trans hgpu
  next gpu hg => exact .creates ((commits_prepare ha).mpr ⟨hn, hv, gpu, hg⟩) ha hg

theorem prepareModule_outcome (ha : request.action = .prepare) :
    Outcome m request (prepareModule m request).1 (prepareModule m request).2 := by
  unfold prepareModule
  dsimp only
  split
  next hempty =>
    refine .keeps (fun hc => ?_) (Or.inl rfl) (ascii_literal (by decide))
    have := ((commits_prepare ha).mp hc).1
    tauto
  next hn =>
    have hn : request.sandboxId ≠ [] ∧ request.moduleId ≠ [] ∧ request.moduleVersion ≠ [] := by tauto
    -- a record that is live stands in the way
    have hkept : ∀ {record}, m.modules (lifecycleKey request) = some record → Live record.state → ¬ Commits m request :=
      fun hrec hlive hc => ((commits_prepare ha).mp hc).2.1 _ hrec hlive
    split
    next hnone => exact createModule_outcome ha hn (by rw [Vacant, hnone]; intro record h; cases h)
    next record hrec =>
      split
      next hopen => exact .keeps (hkept hrec (by unfold Live; tauto)) (Or.inr ⟨record, hrec, rfl⟩) ascii_nil
      next hopen =>
        split
        next hshut => exact .keeps (hkept hrec (by unfold Live; tauto)) (Or.inl rfl) (ascii_literal (by decide))
        next hshut =>
          refine createModule_outcome ha hn ?_
          intro old hold
          rw [hrec] at hold
          cases hold
          unfold Live
          tauto

theorem setModule_same {key : Bytes} {record : ModuleRecord} (h : m.modules key = some record) :
    setModule m key (some record) = m := by
  rw [setModule, ← h, Function.update_eq_self]

theorem drainModule_outcome (ha : request.action = .drain) :
    Outcome m request (drainModule m request).1 (.returned (drainModule m request).2) := by
  unfold drainModule
  dsimp only
  split
  next hnone =>
    refine .keeps (fun hc => ?_) (Or.inl rfl) (ascii_literal (by decide))
    obtain ⟨record, hrec, -⟩ := (commits_drain ha).mp hc
    rw [hnone] at hrec
    cases hrec
  next record hrec =>
    -- the record of the table is the only one a commit can be about
    have hone : Commits m request → record.state ≠ .released ∧ drained record ≠ record := by
      intro hc
      obtain ⟨record', hrec', h⟩ := (commits_drain ha).mp hc
      rw [hrec] at hrec'
      cases hrec'
      exact h
    split
    next hreleased => exact .keeps (fun hc => (hone hc).1 hreleased) (Or.inl rfl) (ascii_literal (by decide))
    next hkept =>
      by_cases hsame : drained record = record
      · have hkeep : Outcome m request m (.returned (recordReply .drain request record)) :=
          .keeps (fun hc => (hone hc).2 hsame) (Or.inr ⟨record, hrec, rfl⟩) ascii_nil
        have heq : setModule m (lifecycleKey request) (some (drained record)) = m := by
          rw [hsame]
          exact setModule_same hrec
        show Outcome m request (setModule m (lifecycleKey request) (some (drained record)))
          (.returned (recordReply .drain request (drained record)))
        rw [heq, hsame]
        exact hkeep
      · exact .drains ((commits_drain ha).mpr ⟨record, hrec, hkept, hsame⟩) ha hrec hsame

theorem releaseModule_outcome (ha : request.action = .release) :
    Outcome m request (releaseModule m request).1 (.returned (releaseModule m request).2) := by
  unfold releaseModule
  dsimp only
  split
  next hnone =>
    refine .keeps (fun hc => ?_) (Or.inl rfl) (ascii_literal (by decide))
    obtain ⟨record, hrec, -⟩ := (commits_release ha).mp hc
    rw [hnone] at hrec
    cases hrec
  next record hrec =>
    split
    next hbusy =>
      refine .keeps (fun hc => ?_) (Or.inr ⟨record, hrec, rfl⟩) (ascii_literal (by decide))
      obtain ⟨record', hrec', hzero⟩ := (commits_release ha).mp hc
      rw [hrec] at hrec'
      cases hrec'
      rw [hzero] at hbusy
      exact absurd hbusy (by decide)
    next hidle => exact .releases ((commits_release ha).mpr ⟨record, hrec, by simpa using hidle⟩) ha hrec

theorem handleLifecycle_outcome :
    Outcome m request (handleLifecycle m request).1 (handleLifecycle m request).2 := by
  unfold handleLifecycle
  split
  next ha => exact prepareModule_outcome ha
  next hprepare =>
    split
    next ha => exact drainModule_outcome ha
    next hdrain =>
      split
      next ha => exact releaseModule_outcome ha
      next hrelease =>
        -- Query and unknown actions change nothing
        have hkept : ¬ Commits m request := by
          unfold Commits
          tauto
        split
        next =>
          unfold queryModule
          split
          next => exact .keeps hkept (Or.inl rfl) (ascii_literal (by decide))
          next record hrec => exact .keeps hkept (Or.inr ⟨record, hrec, rfl⟩) ascii_nil
        next => exact .keeps hkept (Or.inl rfl) (ascii_literal (by decide))

end

/-! ## Tasks -/

/-- Why the manager would refuse the task: the status, and how the text ends. -/
def refusal (m : Manager) (request : WasmTaskRequest) : Option (WasmTaskStatus × Bytes) :=
  match m.modules (taskKey request) with
  | none => some (.moduleNotFound, ascii " is not registered")
  | some record =>
    if record.state = .draining then some (.moduleDraining, ascii " is draining; hotswap in progress")
    else if record.state = .stopped ∨ record.state = .released then some (.rejected, ascii " is stopped or released")
    else none

def refusalReply (request : WasmTaskRequest) (status : WasmTaskStatus) (why : Bytes) : WasmTaskResponse :=
  { taskReply request with status, error := ascii "module version " ++ request.moduleVersion ++ why }

/-- Of a task that ran, without a callback. -/
def ranReply (host : Host) (request : WasmTaskRequest) (selectedGpu : Int32) (latencyMs : UInt64) : WasmTaskResponse :=
  { taskReply request with selectedGpu, latencyMs, status := .ok, result := defaultCompute host request.payload }

inductive TaskOutcome (host : Host) (m : Manager) (request : WasmTaskRequest) (latencyMs : UInt64) :
    Manager → WasmTaskResponse → Prop
  | refused {status : WasmTaskStatus} {why : Bytes} : refusal m request = some (status, why) →
      TaskOutcome host m request latencyMs m (refusalReply request status why)
  | ran {record : ModuleRecord} : refusal m request = none → m.modules (taskKey request) = some record →
      TaskOutcome host m request latencyMs (setModule m (taskKey request) (some (countOut (countIn record))))
        (ranReply host request record.assignedGpu latencyMs)

section
variable {m : Manager} {request : WasmTaskRequest}

theorem refusal_why {status : WasmTaskStatus} {why : Bytes} (h : refusal m request = some (status, why)) :
    status ≠ .ok ∧ Ascii why := by
  unfold refusal at h
  split at h
  · cases h
    exact ⟨by decide, ascii_literal (by decide)⟩
  split at h
  · cases h
    exact ⟨by decide, ascii_literal (by decide)⟩
  split at h
  · cases h
    exact ⟨by decide, ascii_literal (by decide)⟩
  · cases h

theorem taskBegin_refused {status : WasmTaskStatus} {why : Bytes} (h : refusal m request = some (status, why)) :
    taskBegin m request = (m, .error (refusalReply request status why)) := by
  cases hrec : m.modules (taskKey request) with
  | none =>
    simp only [refusal, hrec] at h
    simp only [taskBegin, hrec]
    cases h
    rfl
  | some record =>
    simp only [refusal, hrec] at h
    simp only [taskBegin, hrec]
    by_cases hdraining : record.state = .draining
    · rw [if_pos hdraining] at h ⊢
      cases h
      rfl
    rw [if_neg hdraining] at h ⊢
    by_cases hshut : record.state = .stopped ∨ record.state = .released
    · rw [if_pos hshut] at h ⊢
      cases h
      rfl
    · rw [if_neg hshut] at h
      cases h

theorem taskBegin_admitted (h : refusal m request = none) :
    ∃ record, m.modules (taskKey request) = some record ∧
      (record.state ≠ .draining ∧ record.state ≠ .stopped ∧ record.state ≠ .released) ∧
      taskBegin m request = (setModule m (taskKey request) (some (countIn record)), .ok record.assignedGpu) := by
  cases hrec : m.modules (taskKey request) with
  | none =>
    simp only [refusal, hrec] at h
    cases h
  | some record =>
    simp only [refusal, hrec] at h
    simp only [taskBegin, hrec]
    by_cases hdraining : record.state = .draining
    · rw [if_pos hdraining] at h
      cases h
    rw [if_neg hdraining] at h
    by_cases hshut : record.state = .stopped ∨ record.state = .released
    · rw [if_pos hshut] at h
      cases h
    · obtain ⟨hstopped, hreleased⟩ := not_or.mp hshut
      refine ⟨record, rfl, ⟨hdraining, hstopped, hreleased⟩, ?_⟩
      rw [if_neg hdraining, if_neg hshut]
      rfl

theorem taskBegin_cases (m : Manager) (request : WasmTaskRequest) :
    (∃ resp, taskBegin m request = (m, .error resp)) ∨
      ∃ record, m.modules (taskKey request) = some record ∧
        (record.state ≠ .draining ∧ record.state ≠ .stopped ∧ record.state ≠ .released) ∧
        taskBegin m request = (setModule m (taskKey request) (some (countIn record)), .ok record.assignedGpu) := by
  cases h : refusal m request with
  | some why => exact Or.inl ⟨_, taskBegin_refused h⟩
  | none => exact Or.inr (taskBegin_admitted h)

/-- The task ends on the record that let it in. -/
theorem taskEnd_setModule (record : ModuleRecord) :
    taskEnd (setModule m (taskKey request) (some record)) request =
      setModule m (taskKey request) (some (countOut record)) := by
  unfold taskEnd
  simp only [setModule, Function.update_self, Function.update_idem]

theorem handleTask_outcome (host : Host) (latencyMs : UInt64) :
    ∃ m' resp, handleTask host m request none latencyMs = (m', .returned resp) ∧
      TaskOutcome host m request latencyMs m' resp := by
  unfold handleTask
  cases hr : refusal m request with
  | some why =>
    rw [taskBegin_refused hr]
    exact ⟨m, _, rfl, .refused hr⟩
  | none =>
    obtain ⟨record, hrec, -, hbegin⟩ := taskBegin_admitted hr
    rw [hbegin]
    exact ⟨_, _, rfl, taskEnd_setModule (countIn record) ▸ .ran hr hrec⟩

/-- The reply to a task that ran is shorter than the frame that asked for it. -/
theorem ranReply_encodes {limits : WasmLimits} {frame : Bytes} (hdec : decodeWasmTaskRequest frame limits = .ok request)
    (host : Host) (selectedGpu : Int32) (latencyMs : UInt64) :
    ∃ encoded, encodeWasmTaskResponse (ranReply host request selectedGpu latencyMs) limits = .ok encoded := by
  obtain ⟨hreq, hframe, flags, rfl⟩ := decodeWasmTaskRequest_ok.mp hdec
  have hresult := length_defaultCompute host request.payload
  have hempty : StringFits limits [] := ⟨Nat.zero_le _, by decide⟩
  refine ⟨_, encodeWasmTaskResponse_ok.mpr ⟨⟨hreq.taskId, hempty, hreq.buffers, ?_, ?_⟩, rfl⟩⟩
  · rw [ranReply, BlobFits, hresult]
    exact hreq.payload
  · have hreqLen := length_taskRequestBytes flags request
    rw [length_taskResponseBytes, ranReply, hresult]
    simp only [taskReply, List.length_nil]
    omega

end

end Overhauled.Wasm
