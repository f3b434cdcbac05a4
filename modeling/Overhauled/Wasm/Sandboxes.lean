/-
  Overhauled.Wasm.Sandboxes — what `WasmSandboxManager` is for, and that it is that.

  `Sandboxes` is a registry of module versions and of the tasks that use them
  (`Machine.Registry`). It knows a version by its three names, a lease by its number and a
  count by who is running; a version is open until it is drained, and what the manager
  stores as its state is a phase that nobody stores here.

  The manager knows a version by one string, counts in a `uint32_t` and moves a state field
  along. `manager_refines_sandboxes`: over every run, whatever its callers do in whatever
  order, it gives the replies of the registry, text for text, and its state queries say what
  the registry holds. The versions addressed must have different keys, and fewer than 2^32
  tasks may run at once. Versions whose sandbox and module ids hold no colon have different
  keys (`key_injOn_colonFree`).
-/

import Overhauled.Machine.Registry
import Overhauled.Wasm.Hotswap

namespace Overhauled.Wasm

open Wire Machine
open Machine.Registry (Entry Phase Op)

/-! ## The registry -/

structure Sandboxes where
  registry : Registry Version Int32 := {}
  forceCpu : Bool := false
  gpuSelector : Option GpuSelectorFn := none

namespace Sandboxes

instance (v : Version) : Decidable v.Named := inferInstanceAs (Decidable (_ ∧ _ ∧ _))

/-- Where a Prepare puts a version, unless the selector throws. -/
def place (a : Sandboxes) (request : WasmLifecycleRequest) : Computed Int32 :=
  assignGpu { forceCpu := a.forceCpu, gpuSelector := a.gpuSelector } request

def op (a : Sandboxes) : Ev → Option (Op Version Int32)
  | .prepare request =>
    if (lifecycleVersion request).Named then
      match a.place request with
      | .returned gpu => some (.register (lifecycleVersion request) gpu)
      | _ => none
    else none
  | .drain request => some (.close (lifecycleVersion request))
  | .release request => some (.remove (lifecycleVersion request))
  | .taskBegin request => some (.enter (taskVersion request))
  | .taskEnd i => some (.leave i)
  | _ => none

def step (a : Sandboxes) (e : Ev) : Sandboxes :=
  { registry :=
      match a.op e with
      | some o => a.registry.step o
      | none => a.registry
    forceCpu :=
      match e with
      | .setForceCpu forceCpu => forceCpu
      | _ => a.forceCpu
    gpuSelector :=
      match e with
      | .setGpuSelector selector => selector
      | _ => a.gpuSelector }

/-! ## How it is shown -/

def stateOf : Phase → WasmModuleState
  | .fresh => .prepared
  | .inUse => .active
  | .closing => .draining
  | .closed => .stopped

def leaseText (v : Version) (number : Nat) : Bytes :=
  ascii "lease-" ++ v.sandboxId ++ ascii "-" ++ v.moduleId ++ ascii "-" ++ v.version ++ ascii "-" ++
    decimal (number % 2 ^ 64)

def recordOf (v : Version) (e : Entry Int32) (tasks : Nat) : ModuleRecord :=
  { sandboxId := v.sandboxId, moduleId := v.moduleId, version := v.version, state := stateOf (e.phase tasks)
    assignedGpu := e.place, leaseToken := leaseText v e.number, activeTasks := UInt32.ofNat tasks }

def tasks (a : Sandboxes) (v : Version) : Nat := a.registry.users.count v

def find (a : Sandboxes) (v : Version) : Option ModuleRecord :=
  (a.registry.entries v).map fun e => recordOf v e (a.tasks v)

def prepareReply (a : Sandboxes) (request : WasmLifecycleRequest) : Computed WasmLifecycleResponse :=
  let v := lifecycleVersion request
  if v.Named then
    -- the entry after the call: the one it found or the one it made
    match (a.step (.prepare request)).registry.entries v with
    | none =>
      match a.place request with
      | .threw what => .threw what
      | _ => .escaped
    | some e =>
      let record := recordOf v e (a.tasks v)
      if e.opened then .returned (recordReply .prepare request record)
      else
        .returned { lifecycleReply .prepare request with
          status := .busy, state := record.state
          error := ascii "module version is currently draining or stopped; cannot prepare until released" }
  else
    .returned { lifecycleReply .prepare request with
      status := .rejected, error := ascii "sandbox_id, module_id, and module_version must be non-empty" }

def drainReply (a : Sandboxes) (request : WasmLifecycleRequest) : WasmLifecycleResponse :=
  match (a.step (.drain request)).find (lifecycleVersion request) with
  | none => { lifecycleReply .drain request with status := .notFound, error := ascii "module version not registered" }
  | some record => recordReply .drain request record

def releaseReply (a : Sandboxes) (request : WasmLifecycleRequest) : WasmLifecycleResponse :=
  match a.find (lifecycleVersion request) with
  | none => { lifecycleReply .release request with status := .notFound, error := ascii "module version not registered" }
  | some record =>
    if a.tasks (lifecycleVersion request) = 0 then
      { recordReply .release request record with state := .released, activeTasks := 0 }
    else
      { recordReply .release request record with
        status := .busy
        error := ascii "cannot release module version while tasks are in-flight; wait for drain to complete" }

def queryReply (a : Sandboxes) (request : WasmLifecycleRequest) : WasmLifecycleResponse :=
  match a.find (lifecycleVersion request) with
  | none =>
    { lifecycleReply .query request with
      status := .notFound, state := .unknown, error := ascii "module version not registered" }
  | some record => recordReply .query request record

/-- The GPU of a task that is let in, or the reply that refuses it. -/
def admission (a : Sandboxes) (request : WasmTaskRequest) : Except WasmTaskResponse Int32 :=
  match a.registry.entries (taskVersion request) with
  | none => .error (refusalReply request .moduleNotFound (ascii " is not registered"))
  | some e =>
    if e.opened then .ok e.place
    else if a.tasks (taskVersion request) = 0 then
      .error (refusalReply request .rejected (ascii " is stopped or released"))
    else .error (refusalReply request .moduleDraining (ascii " is draining; hotswap in progress"))

end Sandboxes

open Sandboxes (recordOf)

/-! ## The same replies -/

inductive Reply where
  | lifecycle (response : Computed WasmLifecycleResponse)
  | admission (answer : Except WasmTaskResponse Int32)

def St.reply (s : St) : Ev → Option Reply
  | .prepare request => some (.lifecycle (prepareModule s.manager request).2)
  | .drain request => some (.lifecycle (.returned (drainModule s.manager request).2))
  | .release request => some (.lifecycle (.returned (releaseModule s.manager request).2))
  | .query request => some (.lifecycle (.returned (queryModule s.manager request)))
  | .taskBegin request => some (.admission (taskBegin s.manager request).2)
  | _ => none

def Sandboxes.reply (a : Sandboxes) : Ev → Option Reply
  | .prepare request => some (.lifecycle (a.prepareReply request))
  | .drain request => some (.lifecycle (.returned (a.drainReply request)))
  | .release request => some (.lifecycle (.returned (a.releaseReply request)))
  | .query request => some (.lifecycle (.returned (a.queryReply request)))
  | .taskBegin request => some (.admission (a.admission request))
  | _ => none

/-- The event addresses one of these versions, and a task more can still be counted. -/
def Within (names : Set Version) (s : St) : Ev → Prop
  | .prepare request | .drain request | .release request | .query request => lifecycleVersion request ∈ names
  | .taskBegin request => taskVersion request ∈ names ∧ s.running.length + 1 < 2 ^ 32
  | _ => True

/-- The manager stores of each version what the registry shows of it. -/
structure Represents (names : Set Version) (s : St) (a : Sandboxes) : Prop where
  forceCpu : s.manager.forceCpu = a.forceCpu
  gpuSelector : s.manager.gpuSelector = a.gpuSelector
  counter : s.manager.nextLeaseId = UInt64.ofNat (a.registry.registered + 1)
  running : s.running.map (fun t => taskVersion t.request) = a.registry.users
  known : ∀ v ∈ a.registry.users, v ∈ names
  few : a.registry.users.length < 2 ^ 32
  held : a.registry.Held
  records : ∀ v ∈ names, s.manager.modules v.key = a.find v

section
variable {v : Version} {e : Entry Int32} {n : Nat}

theorem ofNat_eq_zero_iff (h : n < 2 ^ 32) : UInt32.ofNat n = 0 ↔ n = 0 := by
  rw [← UInt32.toNat_inj, UInt32.toNat_ofNat_of_lt' h]
  rfl

theorem state_of_open (h : e.opened = true) :
    (recordOf v e n).state = .prepared ∨ (recordOf v e n).state = .active := by
  simp only [recordOf, Entry.phase, if_pos h]
  by_cases hused : e.used = true
  · simp [hused, Sandboxes.stateOf]
  · simp [hused, Sandboxes.stateOf]

theorem state_of_shut (h : e.opened = false) :
    (recordOf v e n).state = if n = 0 then .stopped else .draining := by
  simp only [recordOf, Entry.phase, h, Bool.false_eq_true, if_false]
  by_cases hn : n = 0
  · simp [hn, Sandboxes.stateOf]
  · simp [hn, Sandboxes.stateOf]

/-- A drained version is neither prepared nor active, and either draining or stopped. -/
theorem shut_states (h : e.opened = false) :
    ¬ ((recordOf v e n).state = .prepared ∨ (recordOf v e n).state = .active) ∧
      ((recordOf v e n).state = .draining ∨ (recordOf v e n).state = .stopped) := by
  rw [state_of_shut h]
  by_cases hn : n = 0
  · rw [if_pos hn]
    decide
  · rw [if_neg hn]
    decide

theorem state_ne_released : (recordOf v e n).state ≠ .released := by
  by_cases hopen : e.opened = true
  · rcases @state_of_open v e n hopen with hs | hs
    · rw [hs]
      decide
    · rw [hs]
      decide
  · rcases (@shut_states v e n (Bool.not_eq_true _ ▸ hopen)).2 with hs | hs
    · rw [hs]
      decide
    · rw [hs]
      decide

theorem drained_recordOf (h : n < 2 ^ 32) :
    drained (recordOf v e n) = recordOf v { e with opened := false } n := by
  have hshut := @state_of_shut v { e with opened := false } n rfl
  have hzero : (recordOf v e n).activeTasks = 0 ↔ n = 0 := ofNat_eq_zero_iff h
  rw [Wasm.drained]
  simp only [hzero, ← hshut]
  rfl

theorem countIn_recordOf (h : e.opened = true) :
    countIn (recordOf v e n) = recordOf v { e with used := true } (n + 1) := by
  simp [Wasm.countIn, recordOf, Entry.phase, h, Sandboxes.stateOf, UInt32.ofNat_add]

/-- The last task of a drained version stops it. -/
theorem countOut_recordOf (h : n + 1 < 2 ^ 32) :
    countOut (recordOf v e (n + 1)) = recordOf v e n := by
  have hcount : (recordOf v e (n + 1)).activeTasks = UInt32.ofNat n + 1 := UInt32.ofNat_add n 1
  have hpos : UInt32.ofNat n + 1 > 0 := by
    rw [← UInt32.ofNat_one, ← UInt32.ofNat_add, gt_iff_lt, UInt32.lt_iff_toNat_lt, UInt32.toNat_ofNat_of_lt' h]
    exact Nat.succ_pos n
  have hzero : UInt32.ofNat n = 0 ↔ n = 0 := ofNat_eq_zero_iff (by omega)
  have hstate : (if (recordOf v e (n + 1)).state = .draining ∧ UInt32.ofNat n = 0 then WasmModuleState.stopped
      else (recordOf v e (n + 1)).state) = (recordOf v e n).state := by
    by_cases hopen : e.opened = true
    · have hsame : (recordOf v e (n + 1)).state = (recordOf v e n).state := by
        simp [recordOf, Entry.phase, hopen]
      have hne : (recordOf v e n).state ≠ .draining := by
        rcases @state_of_open v e n hopen with hs | hs
        · rw [hs]
          decide
        · rw [hs]
          decide
      rw [hsame, if_neg fun hboth => hne hboth.1]
    · rw [Bool.not_eq_true] at hopen
      rw [state_of_shut hopen, state_of_shut hopen, if_neg (Nat.succ_ne_zero n)]
      simp only [hzero, true_and]
  unfold Wasm.countOut
  rw [hcount, if_pos hpos, UInt32.add_sub_cancel]
  simp only [hstate]
  rfl

end

section
variable {names : Set Version} {s : St} {a : Sandboxes} {v : Version}

namespace Represents

/-- The record of a request's version, as the manager finds it. -/
theorem find_lifecycle (h : Represents names s a) {request : WasmLifecycleRequest} (hv : lifecycleVersion request ∈ names) :
    s.manager.modules (lifecycleKey request) = a.find (lifecycleVersion request) :=
  h.records _ hv

theorem find_task (h : Represents names s a) {request : WasmTaskRequest} (hv : taskVersion request ∈ names) :
    s.manager.modules (taskKey request) = a.find (taskVersion request) :=
  h.records _ hv

theorem tasks_lt (h : Represents names s a) (v : Version) : a.tasks v < 2 ^ 32 :=
  lt_of_le_of_lt List.count_le_length h.few

/-- One version's entry and its tasks change, and its record with them. -/
theorem records_update (h : Represents names s a) (hinj : names.InjOn Version.key) (hv : v ∈ names)
    {e : Option (Entry Int32)} {users : List Version} {stored : Option ModuleRecord}
    (hstored : stored = e.map fun e => recordOf v e (users.count v))
    (hother : ∀ w ≠ v, users.count w = a.registry.users.count w) :
    ∀ w ∈ names, Function.update s.manager.modules v.key stored w.key =
      (Function.update a.registry.entries v e w).map fun e => recordOf w e (users.count w) := by
  intro w hw
  by_cases heq : w = v
  · subst heq
    rw [Function.update_self, Function.update_self, hstored]
  · have hkey : w.key ≠ v.key := fun hk => heq (hinj hw hv hk)
    rw [Function.update_of_ne hkey, Function.update_of_ne heq, hother w heq]
    exact h.records w hw

/-! One operation each. -/

theorem idle (h : Represents names s a) {e : Ev} (hs : step s e = s) (ha : a.step e = a) :
    Represents names (step s e) (a.step e) := by
  rw [hs, ha]
  exact h

theorem place_eq (h : Represents names s a) (request : WasmLifecycleRequest) :
    assignGpu s.manager request = a.place request := by
  unfold assignGpu Sandboxes.place assignGpu
  rw [h.forceCpu, h.gpuSelector]

/-- The record a Prepare stores is the one of a new entry that nobody uses. -/
theorem newRecord_eq (h : Represents names s a) (request : WasmLifecycleRequest) (gpu : Int32) :
    newRecord s.manager request gpu =
      recordOf (lifecycleVersion request) { number := a.registry.registered + 1, place := gpu } 0 := by
  have hcounter : s.manager.nextLeaseId.toNat = (a.registry.registered + 1) % 2 ^ 64 := by
    rw [h.counter, UInt64.toNat_ofNat']
  unfold newRecord newLease recordOf Sandboxes.leaseText
  rw [hcounter]
  rfl

theorem creates (h : Represents names s a) (hinj : names.InjOn Version.key) {request : WasmLifecycleRequest}
    (hv : lifecycleVersion request ∈ names) (hnone : a.registry.entries (lifecycleVersion request) = none) (gpu : Int32) :
    Represents names { s with manager := withNewRecord s.manager request gpu }
      { a with registry := a.registry.step (.register (lifecycleVersion request) gpu) } := by
  have hzero := h.held.count_eq_zero hnone
  have hheld := h.held.step (.register (lifecycleVersion request) gpu)
  have hreg : a.registry.step (.register (lifecycleVersion request) gpu) =
      { a.registry with
        entries := Function.update a.registry.entries (lifecycleVersion request)
          (some { number := a.registry.registered + 1, place := gpu })
        registered := a.registry.registered + 1 } := by
    simp only [Registry.step, hnone]
  rw [hreg] at hheld ⊢
  refine { h with counter := ?_, held := hheld, records := ?_ }
  · show s.manager.nextLeaseId + 1 = _
    rw [h.counter]
    exact (UInt64.ofNat_add _ 1).symm
  · refine h.records_update hinj hv ?_ fun _ _ => rfl
    rw [h.newRecord_eq, Option.map_some, hzero]

/-- A Prepare of a version that is registered changes nothing. -/
theorem step_prepare_some {request : WasmLifecycleRequest} {e : Entry Int32}
    (hentry : a.registry.entries (lifecycleVersion request) = some e) : a.step (.prepare request) = a := by
  have hreg : ∀ gpu, a.registry.step (.register (lifecycleVersion request) gpu) = a.registry := by
    intro gpu
    simp only [Registry.step, hentry]
  unfold Sandboxes.step Sandboxes.op
  simp only
  split
  · rename_i o ho
    split at ho
    · split at ho
      · cases ho
        rw [hreg]
      · cases ho
    · cases ho
  · rfl

section
variable {request : WasmLifecycleRequest}

theorem not_named_iff : ¬ (lifecycleVersion request).Named ↔
    request.sandboxId = [] ∨ request.moduleId = [] ∨ request.moduleVersion = [] := by
  simp only [Version.Named, lifecycleVersion]
  tauto

theorem prepare_vacant (h : Represents names s a) (hinj : names.InjOn Version.key) (hv : lifecycleVersion request ∈ names)
    (hnamed : (lifecycleVersion request).Named) (hentry : a.registry.entries (lifecycleVersion request) = none) :
    Represents names (Wasm.step s (.prepare request)) (a.step (.prepare request)) ∧
      (prepareModule s.manager request).2 = a.prepareReply request := by
  have hne := not_named_iff.not.mp (not_not.mpr hnamed)
  have hrec := h.find_lifecycle hv
  rw [Sandboxes.find, hentry, Option.map_none] at hrec
  cases hgpu : a.place request with
  | returned gpu =>
    have hm : prepareModule s.manager request = (withNewRecord s.manager request gpu,
        .returned (recordReply .prepare request (newRecord s.manager request gpu))) := by
      simp only [prepareModule, if_neg hne, hrec, createModule, h.place_eq, hgpu]
      rfl
    have ha : a.step (.prepare request) =
        { a with registry := a.registry.step (.register (lifecycleVersion request) gpu) } := by
      simp only [Sandboxes.step, Sandboxes.op, if_pos hnamed, hgpu]
    have hzero : a.tasks (lifecycleVersion request) = 0 := h.held.count_eq_zero hentry
    refine ⟨?_, ?_⟩
    · rw [ha, Wasm.step, hm]
      exact h.creates hinj hv hentry gpu
    · simp only [hm, h.newRecord_eq, Sandboxes.prepareReply, if_pos hnamed, ha, Registry.step, hentry,
        Function.update_self, hzero, if_true]
  | _ =>
    -- the selector threw
    have ha : a.step (.prepare request) = a := by simp only [Sandboxes.step, Sandboxes.op, if_pos hnamed, hgpu]
    refine ⟨h.idle ?_ ha, ?_⟩
    · simp only [Wasm.step, prepareModule, if_neg hne, hrec, createModule, h.place_eq, hgpu]
    · simp only [prepareModule, if_neg hne, hrec, createModule, h.place_eq, hgpu, Sandboxes.prepareReply, if_pos hnamed,
        ha, hentry]

theorem prepare_found (h : Represents names s a) (hv : lifecycleVersion request ∈ names)
    (hnamed : (lifecycleVersion request).Named) {e : Entry Int32}
    (hentry : a.registry.entries (lifecycleVersion request) = some e) :
    Represents names (Wasm.step s (.prepare request)) (a.step (.prepare request)) ∧
      (prepareModule s.manager request).2 = a.prepareReply request := by
  have hne := not_named_iff.not.mp (not_not.mpr hnamed)
  have ha : a.step (.prepare request) = a := step_prepare_some hentry
  have hrec := h.find_lifecycle hv
  rw [Sandboxes.find, hentry, Option.map_some] at hrec
  by_cases hopen : e.opened = true
  · have hstate := @state_of_open (lifecycleVersion request) e (a.tasks (lifecycleVersion request)) hopen
    refine ⟨h.idle ?_ ha, ?_⟩
    · simp only [Wasm.step, prepareModule, if_neg hne, hrec, if_pos hstate]
    · simp only [prepareModule, if_neg hne, hrec, if_pos hstate, Sandboxes.prepareReply, if_pos hnamed, ha, hentry,
        if_pos hopen]
  · obtain ⟨hnot, hshut⟩ :=
      @shut_states (lifecycleVersion request) e (a.tasks (lifecycleVersion request)) (Bool.not_eq_true _ ▸ hopen)
    refine ⟨h.idle ?_ ha, ?_⟩
    · simp only [Wasm.step, prepareModule, if_neg hne, hrec, if_neg hnot, if_pos hshut]
    · simp only [prepareModule, if_neg hne, hrec, if_neg hnot, if_pos hshut, Sandboxes.prepareReply, if_pos hnamed, ha,
        hentry, if_neg hopen]

theorem prepare (h : Represents names s a) (hinj : names.InjOn Version.key) (hv : lifecycleVersion request ∈ names) :
    Represents names (Wasm.step s (.prepare request)) (a.step (.prepare request)) ∧
      (prepareModule s.manager request).2 = a.prepareReply request := by
  by_cases hnamed : (lifecycleVersion request).Named
  · cases hentry : a.registry.entries (lifecycleVersion request) with
    | none => exact h.prepare_vacant hinj hv hnamed hentry
    | some e => exact h.prepare_found hv hnamed hentry
  · have hor := not_named_iff.mp hnamed
    have ha : a.step (.prepare request) = a := by simp only [Sandboxes.step, Sandboxes.op, if_neg hnamed]
    refine ⟨h.idle ?_ ha, ?_⟩
    · simp only [Wasm.step, prepareModule, if_pos hor]
    · simp only [prepareModule, if_pos hor, Sandboxes.prepareReply, if_neg hnamed]

theorem drain (h : Represents names s a) (hinj : names.InjOn Version.key) (hv : lifecycleVersion request ∈ names) :
    Represents names (Wasm.step s (.drain request)) (a.step (.drain request)) ∧
      (drainModule s.manager request).2 = a.drainReply request := by
  have hrec := h.find_lifecycle hv
  have hheld := h.held.step (.close (lifecycleVersion request))
  cases hentry : a.registry.entries (lifecycleVersion request) with
  | none =>
    rw [Sandboxes.find, hentry, Option.map_none] at hrec
    have hreg : a.registry.step (.close (lifecycleVersion request)) = a.registry := by
      simp only [Registry.step, hentry, Option.map_none]
      rw [← hentry, Function.update_eq_self]
    have ha : a.step (.drain request) = a := by simp only [Sandboxes.step, Sandboxes.op, hreg]
    refine ⟨h.idle ?_ ha, ?_⟩
    · simp only [Wasm.step, drainModule, hrec]
    · simp only [drainModule, hrec, Sandboxes.drainReply, ha, Sandboxes.find, hentry, Option.map_none]
  | some e =>
    rw [Sandboxes.find, hentry, Option.map_some] at hrec
    have hm : drainModule s.manager request =
        (setModule s.manager (lifecycleKey request) (some (recordOf (lifecycleVersion request)
            { e with opened := false } (a.tasks (lifecycleVersion request)))),
          recordReply .drain request (recordOf (lifecycleVersion request)
            { e with opened := false } (a.tasks (lifecycleVersion request)))) := by
      rw [← drained_recordOf (h.tasks_lt _)]
      simp only [drainModule, hrec, if_neg state_ne_released]
      rfl
    refine ⟨?_, ?_⟩
    · rw [Wasm.step, hm]
      refine { h with held := hheld, records := ?_ }
      refine h.records_update hinj hv ?_ fun _ _ => rfl
      rw [hentry]
      rfl
    · rw [hm, Sandboxes.drainReply]
      simp only [Sandboxes.find, Sandboxes.step, Sandboxes.op, Registry.step, Function.update_self, hentry,
        Option.map_some]
      rfl

theorem release (h : Represents names s a) (hinj : names.InjOn Version.key) (hv : lifecycleVersion request ∈ names) :
    Represents names (Wasm.step s (.release request)) (a.step (.release request)) ∧
      (releaseModule s.manager request).2 = a.releaseReply request := by
  have hrec := h.find_lifecycle hv
  have hheld := h.held.step (.remove (lifecycleVersion request))
  cases hentry : a.registry.entries (lifecycleVersion request) with
  | none =>
    rw [Sandboxes.find, hentry, Option.map_none] at hrec
    have hreg : a.registry.step (.remove (lifecycleVersion request)) = a.registry := by
      simp only [Registry.step, h.held.count_eq_zero hentry, if_true]
      rw [← hentry, Function.update_eq_self]
    have ha : a.step (.release request) = a := by simp only [Sandboxes.step, Sandboxes.op, hreg]
    refine ⟨h.idle ?_ ha, ?_⟩
    · simp only [Wasm.step, releaseModule, hrec]
    · simp only [releaseModule, hrec, Sandboxes.releaseReply, Sandboxes.find, hentry, Option.map_none]
  | some e =>
    rw [Sandboxes.find, hentry, Option.map_some] at hrec
    have hcount : (recordOf (lifecycleVersion request) e (a.tasks (lifecycleVersion request))).activeTasks = 0 ↔
        a.tasks (lifecycleVersion request) = 0 := ofNat_eq_zero_iff (h.tasks_lt _)
    have hfind : a.find (lifecycleVersion request) =
        some (recordOf (lifecycleVersion request) e (a.tasks (lifecycleVersion request))) := by
      rw [Sandboxes.find, hentry, Option.map_some]
    by_cases hzero : a.tasks (lifecycleVersion request) = 0
    · have hidle : ¬ (recordOf (lifecycleVersion request) e (a.tasks (lifecycleVersion request))).activeTasks > 0 := by
        rw [hcount.mpr hzero]
        exact lt_irrefl 0
      refine ⟨?_, ?_⟩
      · have hreg : a.registry.step (.remove (lifecycleVersion request)) =
            { a.registry with entries := Function.update a.registry.entries (lifecycleVersion request) none } :=
          if_pos hzero
        simp only [Wasm.step, releaseModule, hrec, if_neg hidle, Sandboxes.step, Sandboxes.op]
        rw [hreg] at hheld ⊢
        exact { h with held := hheld, records := h.records_update hinj hv rfl fun _ _ => rfl }
      · simp only [releaseModule, hrec, if_neg hidle, Sandboxes.releaseReply, hfind, if_pos hzero]
    · have hbusy : (recordOf (lifecycleVersion request) e (a.tasks (lifecycleVersion request))).activeTasks > 0 :=
        UInt32.pos_iff_ne_zero.mpr fun hz => hzero (hcount.mp hz)
      have hreg : a.registry.step (.remove (lifecycleVersion request)) = a.registry := if_neg hzero
      have ha : a.step (.release request) = a := by simp only [Sandboxes.step, Sandboxes.op, hreg]
      refine ⟨h.idle ?_ ha, ?_⟩
      · simp only [Wasm.step, releaseModule, hrec, if_pos hbusy]
      · simp only [releaseModule, hrec, if_pos hbusy, Sandboxes.releaseReply, hfind, if_neg hzero]

theorem query (h : Represents names s a) (hv : lifecycleVersion request ∈ names) :
    queryModule s.manager request = a.queryReply request := by
  rw [queryModule, h.find_lifecycle hv]
  rfl

end

section
variable {request : WasmTaskRequest}

/-- A refused task changes neither side. -/
theorem begin_refused (h : Represents names s a) {status : WasmTaskStatus} {why : Bytes}
    (hwhy : refusal s.manager request = some (status, why))
    (hreg : a.registry.step (.enter (taskVersion request)) = a.registry)
    (hadm : a.admission request = .error (refusalReply request status why)) :
    Represents names (Wasm.step s (.taskBegin request)) (a.step (.taskBegin request)) ∧
      (taskBegin s.manager request).2 = a.admission request := by
  refine ⟨h.idle ?_ ?_, ?_⟩
  · simp only [Wasm.step, taskBegin_refused hwhy]
  · simp only [Sandboxes.step, Sandboxes.op, hreg]
  · rw [taskBegin_refused hwhy, hadm]

theorem begin_admitted (h : Represents names s a) (hinj : names.InjOn Version.key) (hv : taskVersion request ∈ names)
    (hroom : s.running.length + 1 < 2 ^ 32) {e : Entry Int32}
    (hentry : a.registry.entries (taskVersion request) = some e) (hopen : e.opened = true) :
    Represents names (Wasm.step s (.taskBegin request)) (a.step (.taskBegin request)) ∧
      (taskBegin s.manager request).2 = a.admission request := by
  have hrec := h.find_task hv
  rw [Sandboxes.find, hentry, Option.map_some] at hrec
  have hnone : refusal s.manager request = none := by
    have hstate := @state_of_open (taskVersion request) e (a.tasks (taskVersion request)) hopen
    have hdraining : (recordOf (taskVersion request) e (a.tasks (taskVersion request))).state ≠ .draining := by
      rcases hstate with hs | hs
      · rw [hs]
        decide
      · rw [hs]
        decide
    have hstopped : ¬ ((recordOf (taskVersion request) e (a.tasks (taskVersion request))).state = .stopped ∨
        (recordOf (taskVersion request) e (a.tasks (taskVersion request))).state = .released) := by
      rcases hstate with hs | hs
      · rw [hs]
        decide
      · rw [hs]
        decide
    simp only [refusal, hrec, if_neg hdraining, if_neg hstopped]
  obtain ⟨record, hrecord, -, hbegin⟩ := taskBegin_admitted hnone
  rw [hrec] at hrecord
  cases hrecord
  have hlength : s.running.length = a.registry.users.length := by rw [← h.running, List.length_map]
  have hheld := h.held.step (.enter (taskVersion request))
  have hreg : a.registry.step (.enter (taskVersion request)) =
      { a.registry with
        entries := Function.update a.registry.entries (taskVersion request) (some { e with used := true })
        users := a.registry.users ++ [taskVersion request] } := by
    simp only [Registry.step, hentry, if_pos hopen]
  rw [hreg] at hheld
  refine ⟨?_, ?_⟩
  · simp only [Wasm.step, hbegin, Sandboxes.step, Sandboxes.op, hreg]
    refine { h with running := ?_, known := ?_, few := ?_, held := hheld, records := ?_ }
    · rw [List.map_append, h.running]
      rfl
    · intro v hmem
      rcases List.mem_append.mp hmem with hmem | hmem
      · exact h.known v hmem
      · rw [List.mem_singleton.mp hmem]
        exact hv
    · rw [List.length_append, ← hlength]
      exact hroom
    · refine h.records_update hinj hv ?_ fun w hw => Registry.count_enter _ hw
      rw [countIn_recordOf hopen, Option.map_some, Registry.count_enter_self]
      rfl
  · simp only [hbegin, Sandboxes.admission, hentry, if_pos hopen]
    rfl

theorem begin (h : Represents names s a) (hinj : names.InjOn Version.key) (hv : taskVersion request ∈ names)
    (hroom : s.running.length + 1 < 2 ^ 32) :
    Represents names (Wasm.step s (.taskBegin request)) (a.step (.taskBegin request)) ∧
      (taskBegin s.manager request).2 = a.admission request := by
  have hrec := h.find_task hv
  cases hentry : a.registry.entries (taskVersion request) with
  | none =>
    rw [Sandboxes.find, hentry, Option.map_none] at hrec
    have hwhy : refusal s.manager request = some (.moduleNotFound, ascii " is not registered") := by
      simp only [refusal, hrec]
    refine h.begin_refused hwhy ?_ ?_
    · simp only [Registry.step, hentry]
    · simp only [Sandboxes.admission, hentry]
  | some e =>
    by_cases hopen : e.opened = true
    · exact h.begin_admitted hinj hv hroom hentry hopen
    rw [Sandboxes.find, hentry, Option.map_some] at hrec
    have hstate := @state_of_shut (taskVersion request) e (a.tasks (taskVersion request)) (Bool.not_eq_true _ ▸ hopen)
    have hreg : a.registry.step (.enter (taskVersion request)) = a.registry := by
      simp only [Registry.step, hentry, if_neg hopen]
    by_cases hzero : a.tasks (taskVersion request) = 0
    · rw [if_pos hzero] at hstate
      have hwhy : refusal s.manager request = some (.rejected, ascii " is stopped or released") := by
        simp only [refusal, hrec, hstate]
        rfl
      refine h.begin_refused hwhy hreg ?_
      simp only [Sandboxes.admission, hentry, if_neg hopen, if_pos hzero]
    · rw [if_neg hzero] at hstate
      have hwhy : refusal s.manager request = some (.moduleDraining, ascii " is draining; hotswap in progress") := by
        simp only [refusal, hrec, hstate]
        rfl
      refine h.begin_refused hwhy hreg ?_
      simp only [Sandboxes.admission, hentry, if_neg hopen, if_neg hzero]

end

theorem finish (h : Represents names s a) (hinj : names.InjOn Version.key) (i : Nat) :
    Represents names (Wasm.step s (.taskEnd i)) (a.step (.taskEnd i)) := by
  have hheld := h.held.step (.leave i)
  cases ht : s.running[i]? with
  | none =>
    have hlength : a.registry.users.length ≤ i := by
      rw [← h.running, List.length_map]
      exact List.getElem?_eq_none_iff.mp ht
    have hreg : a.registry.step (.leave i) = a.registry := by
      simp only [Registry.step, List.eraseIdx_of_length_le hlength]
    refine h.idle ?_ ?_
    · simp only [Wasm.step, ht]
    · simp only [Sandboxes.step, Sandboxes.op, hreg]
  | some t =>
    have huser : a.registry.users[i]? = some (taskVersion t.request) := by
      rw [← h.running, List.getElem?_map, ht]
      rfl
    have hmem := List.mem_of_getElem? huser
    have hv := h.known _ hmem
    obtain ⟨e, hentry⟩ := Option.isSome_iff_exists.mp (h.held _ hmem)
    have hrec := h.find_task hv
    have hcount : a.tasks (taskVersion t.request) = (a.registry.users.eraseIdx i).count (taskVersion t.request) + 1 :=
      (Registry.count_leave_self huser).symm
    have hlt := h.tasks_lt (taskVersion t.request)
    rw [hcount] at hlt
    rw [Sandboxes.find, hentry, Option.map_some, hcount] at hrec
    simp only [Wasm.step, ht, taskEnd, hrec, Sandboxes.step, Sandboxes.op]
    refine { h with running := ?_, known := ?_, few := ?_, held := hheld, records := ?_ }
    · rw [← List.eraseIdx_map, h.running]
      rfl
    · intro v hmem
      exact h.known v (List.mem_of_mem_eraseIdx hmem)
    · exact lt_of_le_of_lt (List.length_eraseIdx_le ..) h.few
    · have hstored : some (countOut (recordOf (taskVersion t.request) e
          ((a.registry.users.eraseIdx i).count (taskVersion t.request) + 1))) =
          (some e).map fun e => recordOf (taskVersion t.request) e
            ((a.registry.users.eraseIdx i).count (taskVersion t.request)) := by
        rw [countOut_recordOf hlt, Option.map_some]
      have hrecords := h.records_update hinj hv hstored fun w hw => Registry.count_leave huser hw
      rw [← hentry, Function.update_eq_self] at hrecords
      exact hrecords

/-- What the state queries say of a version. -/
theorem views (h : Represents names s a) (hv : v ∈ names) :
    getModuleState s.manager v.sandboxId v.moduleId v.version =
        (a.registry.entries v).elim .unknown (fun e => Sandboxes.stateOf (e.phase (a.tasks v))) ∧
      (getActiveTasks s.manager v.sandboxId v.moduleId v.version).toNat = a.tasks v ∧
      isModuleActive s.manager v.sandboxId v.moduleId v.version = (a.registry.entries v).elim false (·.opened) := by
  have hrec : s.manager.modules (makeKey v.sandboxId v.moduleId v.version) = a.find v := h.records v hv
  unfold getModuleState getActiveTasks isModuleActive
  rw [hrec]
  cases hentry : a.registry.entries v with
  | none =>
    simp only [Sandboxes.find, hentry, Option.map_none, Option.elim_none, true_and, and_true]
    exact (h.held.count_eq_zero hentry).symm
  | some e =>
    have hcount : (UInt32.ofNat (a.tasks v)).toNat = a.tasks v := UInt32.toNat_ofNat_of_lt' (h.tasks_lt v)
    simp only [Sandboxes.find, hentry, Option.map_some, Option.elim_some]
    refine ⟨rfl, hcount, ?_⟩
    by_cases hopen : e.opened = true
    · rw [hopen, decide_eq_true (state_of_open hopen)]
    · rw [Bool.not_eq_true] at hopen
      rw [hopen, decide_eq_false (shut_states hopen).1]

end Represents

theorem represents_start (names : Set Version) (forceCpu : Bool) (gpuSelector : Option GpuSelectorFn) :
    Represents names (start forceCpu gpuSelector) { forceCpu, gpuSelector } where
  forceCpu := rfl
  gpuSelector := rfl
  counter := rfl
  running := rfl
  known := by
    intro v hv
    cases hv
  few := Nat.two_pow_pos 32
  held := by
    intro v hv
    cases hv
  records _ _ := rfl

theorem step_simulates (hinj : names.InjOn Version.key) (h : Represents names s a) (e : Ev) (he : Within names s e) :
    Represents names (step s e) (a.step e) ∧ s.reply e = a.reply e := by
  cases e with
  | prepare request =>
    obtain ⟨hnext, hreply⟩ := h.prepare hinj he
    exact ⟨hnext, by rw [St.reply, Sandboxes.reply, hreply]⟩
  | drain request =>
    obtain ⟨hnext, hreply⟩ := h.drain hinj he
    exact ⟨hnext, by rw [St.reply, Sandboxes.reply, hreply]⟩
  | release request =>
    obtain ⟨hnext, hreply⟩ := h.release hinj he
    exact ⟨hnext, by rw [St.reply, Sandboxes.reply, hreply]⟩
  | query request => exact ⟨h.idle rfl rfl, by rw [St.reply, Sandboxes.reply, h.query he]⟩
  | taskBegin request =>
    obtain ⟨hnext, hreply⟩ := h.begin hinj he.1 he.2
    exact ⟨hnext, by rw [St.reply, Sandboxes.reply, hreply]⟩
  | taskEnd i => exact ⟨h.finish hinj i, rfl⟩
  | setForceCpu forceCpu => exact ⟨{ h with forceCpu := rfl }, rfl⟩
  | setGpuSelector selector => exact ⟨{ h with gpuSelector := rfl }, rfl⟩

end

/-! ## Keys without ambiguity -/

/-- No colon where the key has one for itself. -/
def colonFree : Set Version := { v | 58 ∉ v.sandboxId ∧ 58 ∉ v.moduleId }

/-- What stands before the first colon decides. -/
theorem eq_of_append_first {a b u v : Bytes} (ha : 58 ∉ a) (hb : 58 ∉ b)
    (h : a ++ ascii ":" ++ u = b ++ ascii ":" ++ v) : a = b ∧ u = v := by
  have htake : ∀ {c : Bytes} (w : Bytes), 58 ∉ c → (c ++ ascii ":" ++ w).takeWhile (· ≠ 58) = c := by
    intro c w hc
    have hall : ∀ y ∈ c, decide (y ≠ 58) = true := by
      intro y hy
      exact decide_eq_true fun heq => hc (heq ▸ hy)
    rw [List.append_assoc, List.takeWhile_append_of_pos hall]
    show c ++ [] = c
    exact List.append_nil c
  have hab : a = b := by rw [← htake u ha, h, htake v hb]
  subst hab
  exact ⟨rfl, List.append_cancel_left h⟩

theorem key_injOn_colonFree : colonFree.InjOn Version.key := by
  rintro ⟨sandbox, module, version⟩ ⟨hsandbox, hmodule⟩ ⟨sandbox', module', version'⟩ ⟨hsandbox', hmodule'⟩ hkey
  simp only [Version.key, makeKey, List.append_assoc] at hkey
  obtain ⟨rfl, hrest⟩ := eq_of_append_first hsandbox hsandbox' (by simpa only [List.append_assoc] using hkey)
  obtain ⟨rfl, rfl⟩ := eq_of_append_first hmodule hmodule' (by simpa only [List.append_assoc] using hrest)
  rfl

/-! ## The refinement -/

/-- Over every run the manager gives the registry's replies, and of each version its state
    queries say the phase, the number of running tasks and whether it takes more. -/
theorem manager_refines_sandboxes (names : Set Version) (hinj : names.InjOn Version.key) (forceCpu : Bool)
    (gpuSelector : Option GpuSelectorFn) (es : List Ev)
    (hrun : EachStep step (Within names) (start forceCpu gpuSelector) es) :
    let m := (exec step (start forceCpu gpuSelector) es).manager
    let a := exec Sandboxes.step { forceCpu, gpuSelector } es
    trace step St.reply (start forceCpu gpuSelector) es = trace Sandboxes.step Sandboxes.reply { forceCpu, gpuSelector } es ∧
      ∀ v ∈ names,
        getModuleState m v.sandboxId v.moduleId v.version =
            (a.registry.entries v).elim .unknown (fun e => Sandboxes.stateOf (e.phase (a.tasks v))) ∧
          (getActiveTasks m v.sandboxId v.moduleId v.version).toNat = a.tasks v ∧
          isModuleActive m v.sandboxId v.moduleId v.version = (a.registry.entries v).elim false (·.opened) := by
  intro m a
  obtain ⟨hend, htrace⟩ := exec_simulates hrun (represents_start names forceCpu gpuSelector) fun s a e h he =>
    step_simulates hinj h e he
  exact ⟨htrace, fun v hv => hend.views hv⟩

/-- A version is swapped for the next while its last task runs. -/
def swapUnderLoad : List Ev :=
  let next : WasmLifecycleRequest := { demo with moduleVersion := ascii "2" }
  [.prepare demo, .taskBegin demoTask, .prepare next, .drain demo, .taskBegin demoTask, .release demo, .taskEnd 0,
    .release demo, .query demo, .query next]

theorem manager_refines_sandboxes_swapUnderLoad :
    trace step St.reply (start true none) swapUnderLoad =
        trace Sandboxes.step Sandboxes.reply { forceCpu := true } swapUnderLoad ∧
      isModuleActive (exec step (start true none) swapUnderLoad).manager (ascii "s") (ascii "m") (ascii "2") = true := by
  have hone : lifecycleVersion demo ∈ colonFree := ⟨by decide, by decide⟩
  have htwo : (⟨ascii "s", ascii "m", ascii "2"⟩ : Version) ∈ colonFree := ⟨by decide, by decide⟩
  have hrun : EachStep step (Within colonFree) (start true none) swapUnderLoad :=
    ⟨hone, ⟨hone, by decide⟩, htwo, hone, ⟨hone, by decide⟩, hone, trivial, hone, hone, htwo, trivial⟩
  obtain ⟨htrace, hviews⟩ := manager_refines_sandboxes colonFree key_injOn_colonFree true none swapUnderLoad hrun
  refine ⟨htrace, ?_⟩
  rw [(hviews _ htwo).2.2]
  decide

end Overhauled.Wasm
