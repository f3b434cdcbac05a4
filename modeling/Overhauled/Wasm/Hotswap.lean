/-
  Overhauled.Wasm.Hotswap — runs of the sandbox manager: any number of callers, each of
  their sections under the mutex one event, in any order.

  A task is in `running` from its admission until it is counted out; its compute
  callback runs in between, outside the mutex, and returns or throws, after which
  `taskEnd` is due. `lease` is the token of the record that admitted it (a ghost: the
  code keeps only the key).

  Proved:
  (1) The count (`activeTasks_eq_running`): a key's record counts exactly the running
      tasks of that key, so a task's end finds the record that admitted it, with a
      positive count. The counter is a `uint32_t`; fewer than 2^32 tasks at once.
  (2) The drain barrier (`drain_barrier`): after a Drain replied Ok, a task of that key
      is admitted only past a Release that replied Ok and a Prepare that created a new
      record; and no task of the key runs when a Release replies Ok. Only the second
      half needs the bound: `release_of_a_wrapped_count` is a Release with 2^32 tasks
      running.
  (3) Isolation (`isolated_iff_keys_differ`): operations on one (sandbox, module, version)
      leave another as it was exactly when `make_key` tells the two apart. It joins the
      three strings with colons and does not escape them:
      `a_drain_stops_another_sandbox`.
-/

import Overhauled.Machine.Run
import Overhauled.Wasm.Outcome

namespace Overhauled.Wasm

open Wire Machine

structure Task where
  request : WasmTaskRequest
  /-- The lease token of the record that admitted the task. -/
  lease : Bytes
  deriving DecidableEq, Repr

def Task.key (t : Task) : Bytes := taskKey t.request

structure St where
  manager : Manager
  running : List Task

inductive Ev where
  | prepare (request : WasmLifecycleRequest)
  | drain (request : WasmLifecycleRequest)
  | release (request : WasmLifecycleRequest)
  | query (request : WasmLifecycleRequest)
  | taskBegin (request : WasmTaskRequest)
  /-- The `i`-th running task is counted out. -/
  | taskEnd (i : Nat)
  | setForceCpu (forceCpu : Bool)
  | setGpuSelector (selector : Option GpuSelectorFn)

def leaseAt (m : Manager) (key : Bytes) : Bytes :=
  match m.modules key with
  | none => []
  | some record => record.leaseToken

def step (s : St) : Ev → St
  | .prepare request => { s with manager := (prepareModule s.manager request).1 }
  | .drain request => { s with manager := (drainModule s.manager request).1 }
  | .release request => { s with manager := (releaseModule s.manager request).1 }
  | .query _ => s
  | .taskBegin request =>
    match taskBegin s.manager request with
    | (m, .error _) => { s with manager := m }
    | (m, .ok _) => { manager := m, running := s.running ++ [⟨request, leaseAt s.manager (taskKey request)⟩] }
  | .taskEnd i =>
    match s.running[i]? with
    | none => s
    | some t => { manager := taskEnd s.manager t.request, running := s.running.eraseIdx i }
  | .setForceCpu forceCpu => { s with manager := setForceCpu s.manager forceCpu }
  | .setGpuSelector selector => { s with manager := setGpuSelector s.manager selector }

/-- A new manager. -/
def start (forceCpu : Bool) (gpuSelector : Option GpuSelectorFn) : St := ⟨{ forceCpu, gpuSelector }, []⟩

/-! ## What an event can do -/

/-- What an event can do to the records and to the running tasks. -/
inductive Effect (s : St) : Ev → (Bytes → Option ModuleRecord) → List Task → Prop
  | idle {e : Ev} : Effect s e s.manager.modules s.running
  | create {request : WasmLifecycleRequest} {record : ModuleRecord} (h : Stores s.manager request record) :
      Effect s (.prepare request) (Function.update s.manager.modules (lifecycleKey request) (some record)) s.running
  | drain {request : WasmLifecycleRequest} {record : ModuleRecord}
      (hrec : s.manager.modules (lifecycleKey request) = some record) :
      Effect s (.drain request) (Function.update s.manager.modules (lifecycleKey request) (some (drained record)))
        s.running
  | release {request : WasmLifecycleRequest} {record : ModuleRecord}
      (hrec : s.manager.modules (lifecycleKey request) = some record) (hzero : record.activeTasks = 0)
      (hok : (releaseModule s.manager request).2.status = .ok) :
      Effect s (.release request) (Function.update s.manager.modules (lifecycleKey request) none) s.running
  | accept {request : WasmTaskRequest} {record : ModuleRecord}
      (hrec : s.manager.modules (taskKey request) = some record)
      (hopen : record.state ≠ .draining ∧ record.state ≠ .stopped ∧ record.state ≠ .released) :
      Effect s (.taskBegin request) (Function.update s.manager.modules (taskKey request) (some (countIn record)))
        (s.running ++ [⟨request, record.leaseToken⟩])
  | finish {i : Nat} {t : Task} {record : ModuleRecord} (ht : s.running[i]? = some t)
      (hrec : s.manager.modules t.key = some record) :
      Effect s (.taskEnd i) (Function.update s.manager.modules t.key (some (countOut record))) (s.running.eraseIdx i)
  /-- A task ends and finds no record. -/
  | orphan {i : Nat} {t : Task} (ht : s.running[i]? = some t) (hnone : s.manager.modules t.key = none) :
      Effect s (.taskEnd i) s.manager.modules (s.running.eraseIdx i)

theorem step_effect (s : St) (e : Ev) : Effect s e (step s e).manager.modules (step s e).running := by
  cases e with
  | prepare request =>
    rcases prepareModule_cases s.manager request with h | ⟨record, h⟩
    · simp only [step, h]
      exact .idle
    · simp only [step, h.2.2.1]
      exact .create h
  | drain request =>
    rcases drainModule_cases s.manager request with ⟨h, -⟩ | ⟨record, hrec, -, h⟩
    · simp only [step, h]
      exact .idle
    · simp only [step, h, setModule]
      exact .drain hrec
  | release request =>
    rcases releaseModule_cases s.manager request with ⟨h, -⟩ | ⟨record, hrec, hzero, hok, h⟩
    · simp only [step, h]
      exact .idle
    · simp only [step, h, setModule]
      exact .release hrec hzero hok
  | query request => exact .idle
  | taskBegin request =>
    rcases taskBegin_cases s.manager request with ⟨resp, h⟩ | ⟨record, hrec, hopen, h⟩
    · simp only [step, h]
      exact .idle
    · simp only [step, h, setModule, leaseAt, hrec]
      exact .accept hrec hopen
  | taskEnd i =>
    cases ht : s.running[i]? with
    | none =>
      simp only [step, ht]
      exact .idle
    | some t =>
      simp only [step, ht]
      rcases taskEnd_cases s.manager t.request with ⟨hnone, h⟩ | ⟨record, hrec, h⟩
      · rw [h]
        exact .orphan ht hnone
      · rw [h]
        exact .finish ht hrec
  | setForceCpu forceCpu => exact .idle
  | setGpuSelector selector => exact .idle

/-! ## (1) The count -/

def active : Option ModuleRecord → Nat
  | none => 0
  | some record => record.activeTasks.toNat

/-- How many of the tasks run on a key. -/
def onKey (key : Bytes) (running : List Task) : Nat := running.countP fun t => t.key = key

structure Inv (modules : Bytes → Option ModuleRecord) (running : List Task) : Prop where
  live : ∀ {key record}, modules key = some record → Live record.state
  count : ∀ key, active (modules key) = onKey key running
  lease : ∀ t ∈ running, ∃ record, modules t.key = some record ∧ record.leaseToken = t.lease

section
variable {modules : Bytes → Option ModuleRecord} {running running' : List Task} {key : Bytes}

/-- One key's record and its tasks change together. -/
theorem Inv.update (h : Inv modules running) {record : Option ModuleRecord}
    (hlive : ∀ {r}, record = some r → Live r.state) (hcount : active record = onKey key running')
    (hother : ∀ k ≠ key, onKey k running' = onKey k running)
    (hkey : ∀ t ∈ running', t.key = key → ∃ r, record = some r ∧ r.leaseToken = t.lease)
    (hrest : ∀ t ∈ running', t.key ≠ key → t ∈ running) : Inv (Function.update modules key record) running' where
  live := by
    intro k r hr
    by_cases hk : k = key
    · subst hk
      rw [Function.update_self] at hr
      exact hlive hr
    · rw [Function.update_of_ne hk] at hr
      exact h.live hr
  count := by
    intro k
    by_cases hk : k = key
    · subst hk
      rw [Function.update_self]
      exact hcount
    · rw [Function.update_of_ne hk, hother k hk]
      exact h.count k
  lease := by
    intro t ht
    by_cases hk : t.key = key
    · rw [hk, Function.update_self]
      exact hkey t ht hk
    · rw [Function.update_of_ne hk]
      exact h.lease t (hrest t ht hk)

theorem Inv.pos (h : Inv modules running) {t : Task} (ht : t ∈ running) : 0 < active (modules t.key) := by
  rw [h.count, onKey, List.countP_pos_iff]
  exact ⟨t, ht, by simp⟩

theorem Inv.none_running (h : Inv modules running) (hzero : active (modules key) = 0) : ∀ t ∈ running, t.key ≠ key := by
  rintro t ht rfl
  have := h.pos ht
  omega

theorem onKey_eraseIdx {i : Nat} {t : Task} (ht : running[i]? = some t) (k : Bytes) :
    onKey k running = onKey k (running.eraseIdx i) + if t.key = k then 1 else 0 := by
  have hperm : running.Perm (t :: running.eraseIdx i) := by
    obtain ⟨hi, rfl⟩ := List.getElem?_eq_some_iff.mp ht
    exact (List.getElem_cons_eraseIdx_perm hi).symm
  rw [onKey, hperm.countP_eq, List.countP_cons]
  simp [onKey]

theorem onKey_concat (t : Task) (k : Bytes) : onKey k (running ++ [t]) = onKey k running + if t.key = k then 1 else 0 := by
  simp [onKey, List.countP_append, List.countP_singleton]

theorem countIn_active {record : ModuleRecord} (h : record.activeTasks.toNat + 1 < 2 ^ 32) :
    (countIn record).activeTasks.toNat = record.activeTasks.toNat + 1 := by
  show (record.activeTasks + 1).toNat = _
  rw [UInt32.toNat_add, UInt32.toNat_one, Nat.mod_eq_of_lt h]

theorem countOut_active {record : ModuleRecord} (h : 0 < record.activeTasks.toNat) :
    (countOut record).activeTasks.toNat + 1 = record.activeTasks.toNat := by
  have hpos : record.activeTasks > 0 := UInt32.lt_iff_toNat_lt.mpr h
  have hone : (1 : UInt32) ≤ record.activeTasks := UInt32.le_iff_toNat_le.mpr h
  show (if record.activeTasks > 0 then record.activeTasks - 1 else record.activeTasks).toNat + 1 = _
  rw [if_pos hpos, UInt32.toNat_sub_of_le _ _ hone, UInt32.toNat_one]
  omega

/-- The end of a task leaves the state as it is or stops the version. -/
theorem countOut_state (record : ModuleRecord) :
    (countOut record).state = .stopped ∨ (countOut record).state = record.state := by
  unfold countOut
  generalize (if record.activeTasks > 0 then record.activeTasks - 1 else record.activeTasks) = left
  simp only
  split
  · exact Or.inl rfl
  · exact Or.inr rfl

theorem countOut_live {record : ModuleRecord} (h : Live record.state) : Live (countOut record).state := by
  rcases countOut_state record with hstate | hstate
  · exact Or.inr (Or.inr (Or.inr hstate))
  · rw [hstate]
    exact h

theorem drained_live (record : ModuleRecord) : Live (drained record).state := by
  unfold drained Live
  simp only
  split <;> simp

/-- A running task of the key runs on the record the key has. -/
theorem Inv.lease_of {key : Bytes} {record : ModuleRecord} {t : Task} (h : Inv modules running)
    (hrec : modules key = some record) (ht : t ∈ running) (hk : t.key = key) : record.leaseToken = t.lease := by
  obtain ⟨r, hr, hl⟩ := h.lease t ht
  rw [hk, hrec] at hr
  cases hr
  exact hl

/-- Where nothing of the key runs, its record comes or goes. -/
theorem Inv.replace {key : Bytes} {stored : Option ModuleRecord} (h : Inv modules running) (hzero : active (modules key) = 0)
    (hstored : active stored = 0) (hlive : ∀ {record}, stored = some record → Live record.state) :
    Inv (Function.update modules key stored) running := by
  refine h.update hlive ?_ (fun _ _ => rfl) ?_ (fun _ ht _ => ht)
  · rw [← h.count, hzero, hstored]
  · exact fun t ht hk => absurd hk (h.none_running hzero t ht)

theorem Inv.drain {key : Bytes} {record : ModuleRecord} (h : Inv modules running) (hrec : modules key = some record) :
    Inv (Function.update modules key (some (drained record))) running := by
  refine h.update ?_ ?_ (fun _ _ => rfl) ?_ (fun _ ht _ => ht)
  · rintro _ ⟨⟩
    exact drained_live record
  · rw [← h.count, hrec]
    rfl
  · exact fun t ht hk => ⟨_, rfl, show record.leaseToken = t.lease from h.lease_of hrec ht hk⟩

theorem Inv.accept {t : Task} {record : ModuleRecord} (h : Inv modules running) (hrec : modules t.key = some record)
    (hlease : record.leaseToken = t.lease) (hroom : onKey t.key running + 1 < 2 ^ 32) :
    Inv (Function.update modules t.key (some (countIn record))) (running ++ [t]) := by
  have hcount := h.count t.key
  rw [hrec, active] at hcount
  refine h.update ?_ ?_ ?_ ?_ ?_
  · rintro _ ⟨⟩
    exact Or.inr (Or.inl rfl)
  · rw [onKey_concat, active, countIn_active (by omega), hcount, if_pos rfl]
  · intro k hk
    rw [onKey_concat, if_neg (fun e => hk e.symm), Nat.add_zero]
  · intro t' ht' hk
    rcases List.mem_append.mp ht' with ht' | ht'
    · exact ⟨_, rfl, show record.leaseToken = t'.lease from h.lease_of hrec ht' hk⟩
    · rw [List.mem_singleton.mp ht']
      exact ⟨_, rfl, hlease⟩
  · intro t' ht' hk
    rcases List.mem_append.mp ht' with ht' | ht'
    · exact ht'
    · rw [List.mem_singleton.mp ht'] at hk
      exact absurd rfl hk

theorem Inv.finish {i : Nat} {t : Task} {record : ModuleRecord} (h : Inv modules running) (ht : running[i]? = some t)
    (hrec : modules t.key = some record) :
    Inv (Function.update modules t.key (some (countOut record))) (running.eraseIdx i) := by
  have hcount := h.count t.key
  have hpos := h.pos (List.mem_of_getElem? ht)
  rw [hrec, active] at hpos hcount
  refine h.update ?_ ?_ ?_ ?_ (fun _ ht' _ => List.mem_of_mem_eraseIdx ht')
  · rintro _ ⟨⟩
    exact countOut_live (h.live hrec)
  · have hout := countOut_active hpos
    have herase := onKey_eraseIdx ht t.key
    rw [if_pos rfl] at herase
    rw [active]
    omega
  · intro k hk
    have herase := onKey_eraseIdx ht k
    rw [if_neg (fun e => hk e.symm)] at herase
    omega
  · intro t' ht' hk
    exact ⟨_, rfl, show record.leaseToken = t'.lease from h.lease_of hrec (List.mem_of_mem_eraseIdx ht') hk⟩

/-- The invariant is kept while the counter has room. -/
theorem effect_inv {s : St} {e : Ev} (h : Inv s.manager.modules s.running) (he : Effect s e modules running')
    (hroom : ∀ key, onKey key running' < 2 ^ 32) : Inv modules running' := by
  cases he with
  | idle => exact h
  | @create request record hstore =>
    obtain ⟨hstate, hactive, -, hold⟩ := hstore
    have hzero : active (s.manager.modules (lifecycleKey request)) = 0 := by
      cases hm : s.manager.modules (lifecycleKey request) with
      | none => rfl
      | some old => exact absurd (h.live hm) (hold old hm)
    refine h.replace hzero ?_ ?_
    · rw [active, hactive]
      rfl
    · rintro _ ⟨⟩
      exact Or.inl hstate
  | drain hrec => exact h.drain hrec
  | @release request record hrec hzero hok =>
    refine h.replace ?_ rfl nofun
    rw [hrec, active, hzero]
    rfl
  | @accept request record hrec hopen =>
    have hone := hroom (taskKey request)
    rw [onKey_concat, Task.key, if_pos rfl] at hone
    exact h.accept (t := ⟨request, record.leaseToken⟩) hrec rfl hone
  | finish ht hrec => exact h.finish ht hrec
  | @orphan i t ht hnone =>
    obtain ⟨r, hr, -⟩ := h.lease t (List.mem_of_getElem? ht)
    rw [hnone] at hr
    cases hr

end

section
variable (forceCpu : Bool) (gpuSelector : Option GpuSelectorFn)

/-- Fewer than 2^32 tasks run at once, at every moment of the run. -/
def FewAtOnce (es : List Ev) : Prop :=
  ∀ pre, pre <+: es → (exec step (start forceCpu gpuSelector) pre).running.length < 2 ^ 32

theorem run_inv {es : List Ev} (hfew : FewAtOnce forceCpu gpuSelector es) :
    Inv (exec step (start forceCpu gpuSelector) es).manager.modules (exec step (start forceCpu gpuSelector) es).running := by
  refine exec_induct (I := fun s : St => Inv s.manager.modules s.running) ?_ ?_
  · exact { live := nofun, count := fun _ => rfl, lease := nofun }
  · intro pre e hpre ih
    have hroom := hfew _ hpre
    rw [exec_concat] at hroom
    exact effect_inv ih (step_effect _ e) fun key => lt_of_le_of_lt List.countP_le_length hroom

/-- After any interleaving, every key's record counts the running tasks of that key,
    and every running task still has the record that admitted it, with a positive
    count, to be counted out of. -/
theorem activeTasks_eq_running (es : List Ev) (hfew : FewAtOnce forceCpu gpuSelector es) :
    let s := exec step (start forceCpu gpuSelector) es
    (∀ key, active (s.manager.modules key) = onKey key s.running) ∧
      ∀ t ∈ s.running, ∃ record, s.manager.modules t.key = some record ∧ 0 < record.activeTasks.toNat ∧
        record.leaseToken = t.lease := by
  have h := run_inv forceCpu gpuSelector hfew
  refine ⟨h.count, fun t ht => ?_⟩
  obtain ⟨record, hrec, hlease⟩ := h.lease t ht
  have hpos := h.pos ht
  rw [hrec] at hpos
  exact ⟨record, hrec, hpos, hlease⟩

end

theorem length_running_step (s : St) (e : Ev) : (step s e).running.length ≤ s.running.length + 1 := by
  have he := step_effect s e
  generalize (step s e).manager.modules = modules, (step s e).running = running at he
  cases he with
  | accept => simp
  | finish => exact (List.length_eraseIdx_le ..).trans (Nat.le_succ _)
  | orphan => exact (List.length_eraseIdx_le ..).trans (Nat.le_succ _)
  | _ => exact Nat.le_succ _

theorem fewAtOnce_of_length (forceCpu : Bool) (gpuSelector : Option GpuSelectorFn) {es : List Ev}
    (h : es.length < 2 ^ 32) : FewAtOnce forceCpu gpuSelector es := by
  have hle : ∀ es' : List Ev, (exec step (start forceCpu gpuSelector) es').running.length ≤ es'.length := by
    intro es'
    induction es' using List.reverseRecOn with
    | nil => exact Nat.le_refl 0
    | append_singleton es' e ih =>
      have := length_running_step (exec step (start forceCpu gpuSelector) es') e
      rw [exec_concat, List.length_append, List.length_singleton]
      omega
  exact fun pre hpre => lt_of_le_of_lt ((hle pre).trans hpre.length_le) h

/-- One module version and a task on it. -/
def demo : WasmLifecycleRequest :=
  { requestId := ascii "r", sandboxId := ascii "s", moduleId := ascii "m", moduleVersion := ascii "1" }

@[inherit_doc demo]
def demoTask : WasmTaskRequest :=
  { taskId := ascii "t", sandboxId := ascii "s", moduleId := ascii "m", moduleVersion := ascii "1"
    taskKind := ascii "compute" }

/-- A Release and a Prepare are tried while the drained version still has a task. -/
def swapEarly : List Ev := [.prepare demo, .taskBegin demoTask, .drain demo, .release demo, .prepare demo]

theorem activeTasks_eq_running_swapEarly :
    let s := exec step (start true none) swapEarly
    onKey (lifecycleKey demo) s.running = 1 ∧
      ∀ t ∈ s.running, ∃ record, s.manager.modules t.key = some record ∧ 0 < record.activeTasks.toNat ∧
        record.leaseToken = t.lease :=
  ⟨by decide, (activeTasks_eq_running true none swapEarly (fewAtOnce_of_length true none (by decide))).2⟩

/-! ## (2) The drain barrier -/

/-- The version is stored and takes no tasks. -/
def Shut (key : Bytes) (s : St) : Prop :=
  ∃ record, s.manager.modules key = some record ∧ (record.state = .draining ∨ record.state = .stopped)

def ReleaseOk (key : Bytes) (s : St) (e : Ev) : Prop :=
  ∃ request, e = .release request ∧ lifecycleKey request = key ∧ (releaseModule s.manager request).2.status = .ok

/-- A Prepare of the key that stores a record where there was none. -/
def PrepareNew (key : Bytes) (s : St) (e : Ev) : Prop :=
  ∃ request, e = .prepare request ∧ lifecycleKey request = key ∧ s.manager.modules key = none ∧
    ∃ record, (prepareModule s.manager request).1.modules key = some record

def Admits (m : Manager) (request : WasmTaskRequest) : Prop := ∃ gpu, (taskBegin m request).2 = .ok gpu

theorem countOut_shut {record : ModuleRecord} (h : record.state = .draining ∨ record.state = .stopped) :
    (countOut record).state = .draining ∨ (countOut record).state = .stopped := by
  rcases countOut_state record with hstate | hstate
  · exact Or.inr hstate
  · rw [hstate]
    exact h

theorem drained_shut (record : ModuleRecord) :
    (drained record).state = .draining ∨ (drained record).state = .stopped := by
  unfold drained
  simp only
  split
  · exact Or.inr rfl
  · exact Or.inl rfl

/-- What becomes of a record in one step that does not remove it. -/
inductive Evolves (record : ModuleRecord) : ModuleRecord → Prop
  | same : Evolves record record
  | drained : Evolves record (drained record)
  | countIn (hopen : record.state ≠ .draining ∧ record.state ≠ .stopped ∧ record.state ≠ .released) :
      Evolves record (countIn record)
  | countOut : Evolves record (countOut record)

/-- Only a Release that replies Ok removes a live record; no Prepare replaces it. -/
theorem record_step {key : Bytes} {record : ModuleRecord} (s : St) (e : Ev) (hrec : s.manager.modules key = some record)
    (hlive : Live record.state) (he : ¬ ReleaseOk key s e) :
    ∃ record', (step s e).manager.modules key = some record' ∧ Evolves record record' := by
  -- an update at the record's own key is an update of the record
  have hown : ∀ {k : Bytes} {old new : ModuleRecord}, s.manager.modules k = some old → (key = k → Evolves old new) →
      ∃ record', Function.update s.manager.modules k (some new) key = some record' ∧ Evolves record record' := by
    intro k old new hold hev
    by_cases hk : key = k
    · subst hk
      rw [hrec] at hold
      cases hold
      exact ⟨new, Function.update_self .., hev rfl⟩
    · rw [Function.update_of_ne hk]
      exact ⟨record, hrec, .same⟩
  have heff := step_effect s e
  generalize (step s e).manager.modules = modules, (step s e).running = running at heff ⊢
  cases heff with
  | idle => exact ⟨record, hrec, .same⟩
  | orphan ht hnone => exact ⟨record, hrec, .same⟩
  | @create request new hstore =>
    have hk : key ≠ lifecycleKey request := by
      intro hk
      rw [hk] at hrec
      exact hstore.2.2.2 record hrec hlive
    rw [Function.update_of_ne hk]
    exact ⟨record, hrec, .same⟩
  | drain hold => exact hown hold fun _ => .drained
  | @release request old hold hzero hok =>
    have hk : key ≠ lifecycleKey request := fun hk => he ⟨request, rfl, hk.symm, hok⟩
    rw [Function.update_of_ne hk]
    exact ⟨record, hrec, .same⟩
  | accept hold hopen => exact hown hold fun _ => .countIn hopen
  | finish ht hold => exact hown hold fun _ => .countOut

/-- Only a Release that replies Ok ends a shut version. -/
theorem shut_step {key : Bytes} (s : St) (e : Ev) (hs : Shut key s) (he : ¬ ReleaseOk key s e) : Shut key (step s e) := by
  obtain ⟨record, hrec, hshut⟩ := hs
  obtain ⟨record', hrec', hev⟩ := record_step s e hrec (by unfold Live; tauto) he
  refine ⟨record', hrec', ?_⟩
  cases hev with
  | same => exact hshut
  | drained => exact drained_shut record
  | countIn hopen => tauto
  | countOut => exact countOut_shut hshut

/-- Only a Prepare stores a record where there is none. -/
theorem gone_step {key : Bytes} (s : St) (e : Ev) (hs : s.manager.modules key = none) (he : ¬ PrepareNew key s e) :
    (step s e).manager.modules key = none := by
  have hne : ∀ {k : Bytes} {record : ModuleRecord}, s.manager.modules k = some record → key ≠ k := by
    rintro k record h rfl
    rw [hs] at h
    cases h
  have heff := step_effect s e
  generalize (step s e).manager.modules = modules, (step s e).running = running at heff ⊢
  cases heff with
  | idle => exact hs
  | orphan ht hnone => exact hs
  | @create request new hstore =>
    by_cases hk : key = lifecycleKey request
    · refine absurd ⟨request, rfl, hk.symm, hs, new, ?_⟩ he
      rw [hstore.2.2.1, hk, Function.update_self]
    · rw [Function.update_of_ne hk]
      exact hs
  | release hold hzero hok =>
    rw [Function.update_of_ne (hne hold)]
    exact hs
  | drain hold =>
    rw [Function.update_of_ne (hne hold)]
    exact hs
  | accept hold hopen =>
    rw [Function.update_of_ne (hne hold)]
    exact hs
  | finish ht hold =>
    rw [Function.update_of_ne (hne hold)]
    exact hs

theorem drain_shuts {s : St} {request : WasmLifecycleRequest} (hok : (drainModule s.manager request).2.status = .ok) :
    Shut (lifecycleKey request) (step s (.drain request)) := by
  rcases drainModule_cases s.manager request with ⟨-, h⟩ | ⟨record, -, -, h⟩
  · exact absurd hok h
  · simp only [Shut, step, h, setModule, Function.update_self]
    exact ⟨_, rfl, drained_shut record⟩

theorem release_removes {key : Bytes} {s : St} {e : Ev} (h : ReleaseOk key s e) :
    (∃ record, s.manager.modules key = some record ∧ record.activeTasks = 0) ∧ (step s e).manager.modules key = none := by
  obtain ⟨request, rfl, rfl, hok⟩ := h
  rcases releaseModule_cases s.manager request with ⟨-, h⟩ | ⟨record, hrec, hzero, -, h⟩
  · exact absurd hok h
  · simp only [step, h, setModule, Function.update_self]
    exact ⟨⟨record, hrec, hzero⟩, trivial⟩

theorem admits_iff {m : Manager} {request : WasmTaskRequest} :
    Admits m request ↔ ∃ record, m.modules (taskKey request) = some record ∧
      (record.state ≠ .draining ∧ record.state ≠ .stopped ∧ record.state ≠ .released) := by
  rcases taskBegin_cases m request with ⟨resp, h⟩ | ⟨record, hrec, hopen, h⟩
  · constructor
    · intro h
      obtain ⟨gpu, hgpu⟩ := h
      rw [h] at hgpu
      cases hgpu
    · intro h
      obtain ⟨record, hrec, h1, h2, h3⟩ := h
      simp [taskBegin, hrec, h1, h2, h3] at h
  · exact ⟨fun _ => ⟨record, hrec, hopen⟩, fun _ => ⟨record.assignedGpu, by rw [h]⟩⟩

/-- From a shut version to an admitted task: a Release that replies Ok, then a Prepare
    that creates. -/
theorem reopened {s : St} {es : List Ev} {task : WasmTaskRequest} (hs : Shut (taskKey task) s)
    (hadmits : Admits (exec step s es).manager task) :
    ∃ a e b e' c, es = a ++ e :: (b ++ e' :: c) ∧ ReleaseOk (taskKey task) (exec step s a) e ∧
      PrepareNew (taskKey task) (exec step s (a ++ e :: b)) e' := by
  obtain ⟨record, hrec, hopen⟩ := admits_iff.mp hadmits
  have hend : ¬ Shut (taskKey task) (exec step s es) := by
    intro h
    obtain ⟨record', hrec', hshut⟩ := h
    rw [hrec] at hrec'
    cases hrec'
    tauto
  obtain ⟨a, e, rest, rfl, -, hrelease⟩ := exec_until shut_step hs hend
  rw [exec_append, exec_cons] at hrec
  have hend' : ¬ (exec step (step (exec step s a) e) rest).manager.modules (taskKey task) = none := by
    rw [hrec]
    nofun
  obtain ⟨b, e', c, rfl, -, hprepare⟩ := exec_until (P := fun s : St => s.manager.modules (taskKey task) = none)
    gone_step (release_removes hrelease).2 hend'
  refine ⟨a, e, b, e', c, rfl, hrelease, ?_⟩
  rw [exec_append, exec_cons]
  exact hprepare

/-- Once a Drain of a key replied Ok, a task of the key is admitted only past a Release
    of the key that replied Ok and, after it, a Prepare that created a new record; and,
    while fewer than 2^32 tasks run at once, none of the key runs when a Release
    replies Ok. -/
theorem drain_barrier (forceCpu : Bool) (gpuSelector : Option GpuSelectorFn) (es : List Ev) :
    let after := exec step (start forceCpu gpuSelector)
    (∀ pre mid post request task, es = pre ++ .drain request :: (mid ++ .taskBegin task :: post) →
      (drainModule (after pre).manager request).2.status = .ok → taskKey task = lifecycleKey request →
      Admits (after (pre ++ .drain request :: mid)).manager task →
      ∃ a e b e' c, mid = a ++ e :: (b ++ e' :: c) ∧
        ReleaseOk (lifecycleKey request) (after (pre ++ .drain request :: a)) e ∧
        PrepareNew (lifecycleKey request) (after (pre ++ .drain request :: (a ++ e :: b))) e') ∧
    (FewAtOnce forceCpu gpuSelector es →
      ∀ pre e post key, es = pre ++ e :: post → ReleaseOk key (after pre) e → ∀ t ∈ (after pre).running, t.key ≠ key) := by
  intro after
  refine ⟨?_, ?_⟩
  · intro pre mid post request task _ hok hkey hadmits
    have hexec : ∀ rest, after (pre ++ .drain request :: rest) = exec step (step (after pre) (.drain request)) rest :=
      fun rest => by rw [show after = exec step (start forceCpu gpuSelector) from rfl, exec_append, exec_cons]
    have hshut := drain_shuts hok
    rw [← hkey] at hshut
    rw [hexec] at hadmits
    obtain ⟨a, e, b, e', c, rfl, hr, hp⟩ := reopened hshut hadmits
    refine ⟨a, e, b, e', c, rfl, ?_, ?_⟩
    · rw [hexec, ← hkey]
      exact hr
    · rw [hexec, ← hkey]
      exact hp
  · rintro hfew pre e post key rfl hrelease
    have hinv := @run_inv forceCpu gpuSelector pre
      fun pre' hpre => hfew pre' (hpre.trans (List.prefix_append _ _))
    obtain ⟨⟨record, hrec, hzero⟩, -⟩ := release_removes hrelease
    refine hinv.none_running ?_
    rw [hrec, active, hzero]
    rfl

/-- A whole hotswap: the old version drains with a task on it, is released when the
    task is done, and a new record of the same key takes the next task. -/
def swap : List Ev :=
  [.prepare demo, .taskBegin demoTask] ++ .drain demo ::
    ([.taskEnd 0, .release demo, .prepare demo] ++ .taskBegin demoTask :: [])

theorem drain_barrier_swap :
    (drainModule (exec step (start true none) [.prepare demo, .taskBegin demoTask]).manager demo).2.status = .ok ∧
      (∃ a e b e' c, [.taskEnd 0, .release demo, .prepare demo] = a ++ e :: (b ++ e' :: c) ∧
        ReleaseOk (lifecycleKey demo)
          (exec step (start true none) ([.prepare demo, .taskBegin demoTask] ++ .drain demo :: a)) e ∧
        PrepareNew (lifecycleKey demo)
          (exec step (start true none) ([.prepare demo, .taskBegin demoTask] ++ .drain demo :: (a ++ e :: b))) e') ∧
      ∀ t ∈ (exec step (start true none) [.prepare demo, .taskBegin demoTask, .drain demo, .taskEnd 0]).running,
        t.key ≠ lifecycleKey demo := by
  obtain ⟨hbarrier, hrelease⟩ := drain_barrier true none swap
  refine ⟨by decide, hbarrier _ _ [] demo demoTask rfl (by decide) rfl ⟨-1, by decide⟩, ?_⟩
  exact hrelease (fewAtOnce_of_length true none (by decide)) _ (.release demo) _ _ rfl ⟨demo, rfl, rfl, by decide⟩

/-- `n` more tasks begin on a version that is active. -/
theorem begin_many (request : WasmTaskRequest) (n : Nat) {s : St} {record : ModuleRecord}
    (hrec : s.manager.modules (taskKey request) = some record) (hactive : record.state = .active) :
    ∃ record', (exec step s (List.replicate n (.taskBegin request))).manager.modules (taskKey request) = some record' ∧
      record'.activeTasks = record.activeTasks + UInt32.ofNat n ∧
      ∀ t ∈ s.running, t ∈ (exec step s (List.replicate n (.taskBegin request))).running := by
  induction n generalizing s record with
  | zero => exact ⟨record, hrec, (UInt32.add_zero _).symm, fun t ht => ht⟩
  | succ n ih =>
    have hadmits : Admits s.manager request := admits_iff.mpr ⟨record, hrec, by rw [hactive]; decide⟩
    rcases taskBegin_cases s.manager request with ⟨resp, h⟩ | ⟨record', hrec', -, h⟩
    · obtain ⟨gpu, hgpu⟩ := hadmits
      rw [h] at hgpu
      cases hgpu
    · rw [hrec] at hrec'
      cases hrec'
      have hstep : step s (.taskBegin request) = ⟨setModule s.manager (taskKey request) (some (countIn record)),
          s.running ++ [⟨request, leaseAt s.manager (taskKey request)⟩]⟩ := by simp only [step, h]
      have hrec' : (step s (.taskBegin request)).manager.modules (taskKey request) = some (countIn record) := by
        rw [hstep]
        exact Function.update_self ..
      obtain ⟨r, hr, hcount, hkeep⟩ := ih hrec' rfl
      refine ⟨r, hr, ?_, fun t ht => hkeep t ?_⟩
      · rw [hcount, show (countIn record).activeTasks = record.activeTasks + 1 from rfl, UInt32.add_assoc]
        congr 1
        rw [UInt32.add_comm, UInt32.ofNat_add]
        rfl
      · rw [hstep]
        exact List.mem_append_left _ ht

/-- With 2^32 tasks on one version its `uint32_t` count is zero again. -/
theorem wrapped_count : ∃ es record t,
    (exec step (start true none) es).manager.modules (lifecycleKey demo) = some record ∧ record.activeTasks = 0 ∧
      t ∈ (exec step (start true none) es).running ∧ t.key = lifecycleKey demo := by
  have hfirst : ∃ record t, (exec step (start true none) [.prepare demo, .taskBegin demoTask]).manager.modules
      (taskKey demoTask) = some record ∧ record.state = .active ∧ record.activeTasks = 1 ∧
      (exec step (start true none) [.prepare demo, .taskBegin demoTask]).running = [t] ∧ t.key = lifecycleKey demo :=
    ⟨_, _, rfl, rfl, rfl, rfl, rfl⟩
  obtain ⟨record, t, hrec, hactive, hone, hrun, hkey⟩ := hfirst
  -- The number stays a variable: nothing may unfold a run of this length.
  obtain ⟨n, hn⟩ : ∃ n : Nat, (1 : UInt32) + UInt32.ofNat n = 0 := ⟨2 ^ 32 - 1, by decide⟩
  obtain ⟨record', hrec', hcount, hkeep⟩ := begin_many demoTask n hrec hactive
  have hzero : record'.activeTasks = 0 := by rw [hcount, hone, hn]
  rw [← exec_append, show taskKey demoTask = lifecycleKey demo from rfl] at hrec'
  refine ⟨[.prepare demo, .taskBegin demoTask] ++ List.replicate n (.taskBegin demoTask), record', t, hrec', hzero, ?_, hkey⟩
  rw [exec_append]
  exact hkeep t (by rw [hrun]; exact List.mem_singleton.mpr rfl)

/-- A Release then replies Ok and removes the record under all its tasks. -/
theorem release_of_a_wrapped_count :
    ∃ es e t, ReleaseOk (lifecycleKey demo) (exec step (start true none) es) e ∧
      t ∈ (exec step (start true none) es).running ∧ t.key = lifecycleKey demo := by
  obtain ⟨es, record, t, hrec, hzero, hmem, hkey⟩ := wrapped_count
  exact ⟨es, .release demo, t, ⟨demo, rfl, rfl, release_ok_of_zero hrec hzero⟩, hmem, hkey⟩

/-! ## (3) Isolation -/

structure Version where
  sandboxId : Bytes
  moduleId : Bytes
  version : Bytes
  deriving DecidableEq, Repr

def Version.key (v : Version) : Bytes := makeKey v.sandboxId v.moduleId v.version

def Version.Named (v : Version) : Prop := v.sandboxId ≠ [] ∧ v.moduleId ≠ [] ∧ v.version ≠ []

def lifecycleVersion (request : WasmLifecycleRequest) : Version :=
  ⟨request.sandboxId, request.moduleId, request.moduleVersion⟩

def taskVersion (request : WasmTaskRequest) : Version := ⟨request.sandboxId, request.moduleId, request.moduleVersion⟩

/-- The event is an operation on this version. -/
def Addressed (s : St) (v : Version) : Ev → Prop
  | .prepare request | .drain request | .release request | .query request => lifecycleVersion request = v
  | .taskBegin request => taskVersion request = v
  | .taskEnd i => ∃ t, s.running[i]? = some t ∧ taskVersion t.request = v
  | .setForceCpu _ | .setGpuSelector _ => False

/-- Everything observable about a version is as it was. -/
structure SameView (v : Version) (m m' : Manager) : Prop where
  query : ∀ request, lifecycleVersion request = v → queryModule m' request = queryModule m request
  state : getModuleState m' v.sandboxId v.moduleId v.version = getModuleState m v.sandboxId v.moduleId v.version
  activeTasks : getActiveTasks m' v.sandboxId v.moduleId v.version = getActiveTasks m v.sandboxId v.moduleId v.version
  isActive : isModuleActive m' v.sandboxId v.moduleId v.version = isModuleActive m v.sandboxId v.moduleId v.version
  lease : (m'.modules v.key).map (·.leaseToken) = (m.modules v.key).map (·.leaseToken)
  gpu : (m'.modules v.key).map (·.assignedGpu) = (m.modules v.key).map (·.assignedGpu)
  admits : ∀ request, taskVersion request = v → (Admits m' request ↔ Admits m request)

/-- No operation on `v`, in any reachable state, changes what is observable about `w`. -/
def Isolated (v w : Version) : Prop :=
  ∀ forceCpu gpuSelector es e, Addressed (exec step (start forceCpu gpuSelector) es) v e →
    SameView w (exec step (start forceCpu gpuSelector) es).manager
      (step (exec step (start forceCpu gpuSelector) es) e).manager

theorem sameView_of_record {v : Version} {m m' : Manager} (h : m'.modules v.key = m.modules v.key) :
    SameView v m m' := by
  have hstate : m'.modules (makeKey v.sandboxId v.moduleId v.version) =
      m.modules (makeKey v.sandboxId v.moduleId v.version) := h
  refine
    { query := ?_, state := by rw [getModuleState, getModuleState, hstate]
      activeTasks := by rw [getActiveTasks, getActiveTasks, hstate]
      isActive := by rw [isModuleActive, isModuleActive, hstate]
      lease := by rw [h], gpu := by rw [h], admits := ?_ }
  · rintro request rfl
    have hkey : m'.modules (lifecycleKey request) = m.modules (lifecycleKey request) := h
    rw [queryModule, queryModule, hkey]
  · rintro request rfl
    have hkey : m'.modules (taskKey request) = m.modules (taskKey request) := h
    rw [admits_iff, admits_iff, hkey]

/-- An operation on a version touches no record but the one of its key. -/
theorem step_other {s : St} {v : Version} {e : Ev} {k : Bytes} (he : Addressed s v e) (hk : k ≠ v.key) :
    (step s e).manager.modules k = s.manager.modules k := by
  have heff := step_effect s e
  generalize (step s e).manager.modules = modules, (step s e).running = running at heff ⊢
  cases heff with
  | idle => rfl
  | orphan => rfl
  | create => cases he; exact Function.update_of_ne hk ..
  | drain => cases he; exact Function.update_of_ne hk ..
  | release => cases he; exact Function.update_of_ne hk ..
  | accept => cases he; exact Function.update_of_ne hk ..
  | finish ht =>
    obtain ⟨t, ht', rfl⟩ := he
    rw [ht] at ht'
    cases ht'
    exact Function.update_of_ne hk ..

/-- A Prepare of this version. -/
def prepareOf (v : Version) : WasmLifecycleRequest :=
  { sandboxId := v.sandboxId, moduleId := v.moduleId, moduleVersion := v.version }

theorem prepare_registers {v : Version} (hv : v.Named) :
    ∃ record, (step (start true none) (.prepare (prepareOf v))).manager.modules v.key = some record := by
  obtain ⟨h1, h2, h3⟩ := hv
  have hne : ¬ (v.sandboxId = [] ∨ v.moduleId = [] ∨ v.version = []) := by tauto
  simp only [step, prepareModule, prepareOf, if_neg hne, start, createModule, assignGpu]
  exact ⟨_, Function.update_self ..⟩

/-- Operations on one version leave another as it was, in every reachable state, exactly
    when their keys differ. -/
theorem isolated_iff_keys_differ (v w : Version) (hv : v.Named) : Isolated v w ↔ v.key ≠ w.key := by
  refine ⟨?_, ?_⟩
  · intro h hkey
    obtain ⟨record, hrec⟩ := prepare_registers hv
    have hview := (h true none [] (.prepare (prepareOf v)) rfl).lease
    rw [← hkey, exec_nil, hrec] at hview
    cases hview
  · intro hkey forceCpu gpuSelector es e he
    exact sameView_of_record (step_other he hkey.symm)

theorem isolated_successive_versions :
    Isolated ⟨ascii "s", ascii "m", ascii "1"⟩ ⟨ascii "s", ascii "m", ascii "2"⟩ :=
  (isolated_iff_keys_differ _ _ ⟨by decide, by decide, by decide⟩).mpr (by decide)

/-- Sandbox `a:b` with module `c`, and sandbox `a` with module `b:c`: one key. A Drain of
    the first replies Ok and stops the second. -/
theorem a_drain_stops_another_sandbox :
    let v : Version := ⟨ascii "a:b", ascii "c", ascii "d"⟩
    let w : Version := ⟨ascii "a", ascii "b:c", ascii "d"⟩
    let s := exec step (start true none) [.prepare (prepareOf w)]
    v ≠ w ∧ v.Named ∧ w.Named ∧ isModuleActive s.manager w.sandboxId w.moduleId w.version = true ∧
      Addressed s v (.drain (prepareOf v)) ∧ (drainModule s.manager (prepareOf v)).2.status = .ok ∧
      isModuleActive (step s (.drain (prepareOf v))).manager w.sandboxId w.moduleId w.version = false ∧
      ¬ SameView w s.manager (step s (.drain (prepareOf v))).manager := by
  refine ⟨by decide, ⟨by decide, by decide, by decide⟩, ⟨by decide, by decide, by decide⟩, by decide, rfl, by decide,
    by decide, fun h => ?_⟩
  exact absurd h.isActive (by decide)

end Overhauled.Wasm
