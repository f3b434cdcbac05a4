/-
  Overhauled.Wasm.Records — the life of a module record in the sandbox manager, from the
  Prepare that creates it to the Release that removes it, over every run of `Hotswap`.

  (1) State and count (`states_and_counts`): a stored record is Prepared, Active, Draining
      or Stopped, idle when Prepared or Stopped and busy when Draining. Four operations and
      two phases of a task write the two fields; `Coherent` is kept by each of them alone,
      whatever the `uint32_t` does. That a shut version is busy exactly while a task of
      its key runs needs fewer than 2^32 tasks at once
      (`a_wrapped_count_stops_under_its_tasks`).
  (2) Leases (`leases_identify_incarnations`): a token ends in the decimal lease counter
      behind a '-', which no decimal contains, so two creations never share one, whatever
      the caller's strings are; token and GPU stay with the record until its Release.
  (3) `release_module` does not look at `ack_token`: a Release with a token that is not
      the record's is refused exactly when tasks are in flight
      (`stale_release_refused_iff`, `a_late_release_removes_the_next_incarnation`).
-/

import Overhauled.Wasm.Hotswap

namespace Overhauled.Wasm

open Wire Machine

/-! ## (1) State and count -/

/-- What a stored record is like. -/
structure Coherent (record : ModuleRecord) : Prop where
  live : Live record.state
  idle : record.state = .prepared ∨ record.state = .stopped → record.activeTasks = 0
  busy : record.state = .draining → record.activeTasks ≠ 0

section
variable {record : ModuleRecord}

theorem Coherent.created (hstate : record.state = .prepared) (hzero : record.activeTasks = 0) : Coherent record where
  live := Or.inl hstate
  idle _ := hzero
  busy h := by
    rw [hstate] at h
    cases h

theorem Coherent.drained (record : ModuleRecord) : Coherent (drained record) where
  live := drained_live record
  idle := by
    unfold Wasm.drained
    dsimp only
    split
    next hzero => exact fun _ => hzero
    next => rintro (h | h) <;> cases h
  busy := by
    unfold Wasm.drained
    dsimp only
    split
    next => exact nofun
    next hbusy => exact fun _ => hbusy

theorem Coherent.countIn (record : ModuleRecord) : Coherent (countIn record) where
  live := Or.inr (Or.inl rfl)
  idle := by rintro (h | h) <;> cases h
  busy := nofun

theorem Coherent.countOut (h : Coherent record) : Coherent (countOut record) := by
  have hlive := countOut_live h.live
  unfold Wasm.countOut at hlive ⊢
  dsimp only at hlive ⊢
  by_cases hpos : record.activeTasks > 0
  · rw [if_pos hpos] at hlive ⊢
    refine ⟨hlive, ?_, ?_⟩
    · dsimp only
      split
      next hlast => exact fun _ => hlast.2
      next =>
        -- a record with tasks was neither Prepared nor Stopped before
        intro hstate
        rw [h.idle hstate] at hpos
        exact absurd hpos (by decide)
    · dsimp only
      split
      next => exact nofun
      next hmore => exact fun hstate hzero => hmore ⟨hstate, hzero⟩
  · have hzero : record.activeTasks = 0 := by simpa using hpos
    rw [if_neg hpos] at hlive ⊢
    refine ⟨hlive, fun _ => hzero, ?_⟩
    dsimp only
    split
    next => exact nofun
    next => exact fun hstate => absurd hzero (h.busy hstate)

/-- Every stored record is coherent. -/
def AllCoherent (modules : Bytes → Option ModuleRecord) : Prop := ∀ key record, modules key = some record → Coherent record

theorem AllCoherent.update {modules : Bytes → Option ModuleRecord} (h : AllCoherent modules) {key : Bytes}
    {record : Option ModuleRecord} (hrec : ∀ r, record = some r → Coherent r) :
    AllCoherent (Function.update modules key record) := by
  intro k r hr
  by_cases hk : k = key
  · subst hk
    rw [Function.update_self] at hr
    exact hrec r hr
  · rw [Function.update_of_ne hk] at hr
    exact h k r hr

theorem coherent_step {s : St} (e : Ev) (h : AllCoherent s.manager.modules) :
    AllCoherent (step s e).manager.modules := by
  have heff := step_effect s e
  generalize (step s e).manager.modules = modules, (step s e).running = running at heff ⊢
  cases heff with
  | idle => exact h
  | orphan => exact h
  | create hstore => exact h.update fun r hr => by cases hr; exact .created hstore.1 hstore.2.1
  | drain => exact h.update fun r hr => by cases hr; exact .drained _
  | release => exact h.update nofun
  | accept => exact h.update fun r hr => by cases hr; exact .countIn _
  | finish ht hrec => exact h.update fun r hr => by cases hr; exact (h _ _ hrec).countOut

theorem coherent_run (forceCpu : Bool) (gpuSelector : Option GpuSelectorFn) (es : List Ev) :
    AllCoherent (exec step (start forceCpu gpuSelector) es).manager.modules :=
  exec_induct (I := fun s : St => AllCoherent s.manager.modules) nofun fun _ e _ h => coherent_step e h

/-- A shut record is Stopped exactly when it counts no task. -/
theorem Coherent.stopped_iff (h : Coherent record) (hshut : record.state = .draining ∨ record.state = .stopped) :
    record.state = .stopped ↔ record.activeTasks = 0 := by
  refine ⟨fun hstop => h.idle (Or.inr hstop), ?_⟩
  intro hzero
  rcases hshut with hdrain | hstop
  · exact absurd hzero (h.busy hdrain)
  · exact hstop

end

section
variable {m : Manager} {request : WasmLifecycleRequest} {record : ModuleRecord}

theorem release_ok_iff (hrec : m.modules (lifecycleKey request) = some record) :
    (releaseModule m request).2.status = .ok ↔ record.activeTasks = 0 := by
  refine ⟨?_, release_ok_of_zero hrec⟩
  intro hok
  rcases releaseModule_cases m request with ⟨-, h⟩ | ⟨record', hrec', hzero, -⟩
  · exact absurd hok h
  · rw [hrec] at hrec'
    cases hrec'
    exact hzero

theorem drain_live (hrec : m.modules (lifecycleKey request) = some record) (hlive : Live record.state) :
    drainModule m request =
      (setModule m (lifecycleKey request) (some (drained record)), recordReply .drain request (drained record)) := by
  have hkept : record.state ≠ .released := by
    intro h
    rw [h] at hlive
    revert hlive
    unfold Live
    decide
  simp only [drainModule, hrec, if_neg hkept]
  rfl

theorem query_state (hrec : m.modules (lifecycleKey request) = some record) :
    (queryModule m request).state = record.state := by
  simp only [queryModule, hrec]
  rfl

end

/-- In every reachable state each stored record is coherent; and while fewer than 2^32
    tasks run at once, a version that was drained can be released, and is reported
    Stopped, exactly when no task of its key runs, and is reported Draining before. -/
theorem states_and_counts (forceCpu : Bool) (gpuSelector : Option GpuSelectorFn) (es : List Ev) :
    let s := exec step (start forceCpu gpuSelector) es
    (∀ key record, s.manager.modules key = some record → Coherent record) ∧
      (FewAtOnce forceCpu gpuSelector es → ∀ request, Shut (lifecycleKey request) s →
        ((releaseModule s.manager request).2.status = .ok ↔ ∀ t ∈ s.running, t.key ≠ lifecycleKey request) ∧
        ((queryModule s.manager request).state = .stopped ↔ ∀ t ∈ s.running, t.key ≠ lifecycleKey request) ∧
        ((queryModule s.manager request).state = .draining ↔ ∃ t ∈ s.running, t.key = lifecycleKey request)) := by
  intro s
  have hall : AllCoherent s.manager.modules := coherent_run forceCpu gpuSelector es
  refine ⟨hall, ?_⟩
  intro hfew request hshut
  obtain ⟨record, hrec, hstate⟩ := hshut
  have hinv := run_inv forceCpu gpuSelector hfew
  have hcoh := hall _ _ hrec
  -- with room in the counter it is zero exactly when nothing of the key runs
  have hzero : record.activeTasks = 0 ↔ ∀ t ∈ s.running, t.key ≠ lifecycleKey request := by
    refine ⟨?_, ?_⟩
    · intro h
      refine hinv.none_running ?_
      rw [hrec, active, h]
      rfl
    · intro h
      have hcount := hinv.count (lifecycleKey request)
      have hnone : onKey (lifecycleKey request) s.running = 0 := by
        rw [onKey, List.countP_eq_zero]
        intro t ht
        simpa using h t ht
      rw [hrec, active, hnone] at hcount
      exact UInt32.toNat_inj.mp hcount
  rw [release_ok_iff hrec, query_state hrec]
  refine ⟨hzero, (hcoh.stopped_iff hstate).trans hzero, ?_⟩
  have hdrain : record.state = .draining ↔ ¬ record.state = .stopped := by
    rcases hstate with h | h
    · rw [h]
      decide
    · rw [h]
      decide
  rw [hdrain, hcoh.stopped_iff hstate, hzero]
  push Not
  rfl

/-- A version is drained while a task of it runs. -/
def drainedEarly : List Ev := [.prepare demo, .taskBegin demoTask, .drain demo]

theorem states_and_counts_drainedEarly :
    Shut (lifecycleKey demo) (exec step (start true none) drainedEarly) ∧
      ¬ (releaseModule (exec step (start true none) drainedEarly).manager demo).2.status = .ok := by
  have hshut : Shut (lifecycleKey demo) (exec step (start true none) drainedEarly) := ⟨_, rfl, Or.inl rfl⟩
  have h := ((states_and_counts true none drainedEarly).2 (fewAtOnce_of_length true none (by decide)) demo hshut).1
  exact ⟨hshut, fun hok => h.mp hok _ (List.mem_singleton.mpr rfl) rfl⟩

/-- With 2^32 tasks on it a version counts none: a Drain stops it at once, and it can be
    released under all of them. -/
theorem a_wrapped_count_stops_under_its_tasks :
    ∃ es t, Shut (lifecycleKey demo) (exec step (start true none) es) ∧
      (queryModule (exec step (start true none) es).manager demo).state = .stopped ∧
      (releaseModule (exec step (start true none) es).manager demo).2.status = .ok ∧
      t ∈ (exec step (start true none) es).running ∧ t.key = lifecycleKey demo := by
  obtain ⟨es, record, t, hrec, hzero, hmem, hkey⟩ := wrapped_count
  have hlive := (coherent_run true none es _ _ hrec).live
  have hdrain : step (exec step (start true none) es) (.drain demo) =
      { exec step (start true none) es with
        manager := setModule (exec step (start true none) es).manager (lifecycleKey demo) (some (drained record)) } := by
    rw [step, drain_live hrec hlive]
  have hrec' : (step (exec step (start true none) es) (.drain demo)).manager.modules (lifecycleKey demo) =
      some (drained record) := by
    simp only [hdrain, setModule, Function.update_self]
  have hstop : (drained record).state = .stopped := if_pos hzero
  refine ⟨es ++ [.drain demo], t, ?_⟩
  rw [exec_concat]
  refine ⟨⟨_, hrec', Or.inr hstop⟩, (query_state hrec').trans hstop, release_ok_of_zero hrec' hzero, ?_, hkey⟩
  rw [hdrain]
  exact hmem

/-! ## (2) Leases -/

/-- The record a Prepare stores where there was none. -/
def created (s : St) : Ev → Option ModuleRecord
  | .prepare request =>
    match s.manager.modules (lifecycleKey request) with
    | none => (prepareModule s.manager request).1.modules (lifecycleKey request)
    | some _ => none
  | _ => none

/-- What follows the last `x` decides. -/
theorem eq_of_append_last {α : Type} [DecidableEq α] {x : α} {a b u v : List α} (hu : x ∉ u) (hv : x ∉ v)
    (h : a ++ [x] ++ u = b ++ [x] ++ v) : u = v := by
  have hlast : ∀ {c w : List α}, x ∉ w → ((c ++ [x] ++ w).reverse.takeWhile (· ≠ x)).reverse = w := by
    intro c w hw
    have hall : ∀ y ∈ w.reverse, decide (y ≠ x) = true := by
      intro y hy
      refine decide_eq_true fun hxy => hw ?_
      rw [← hxy]
      exact List.mem_reverse.mp hy
    rw [List.append_assoc, List.reverse_append, List.singleton_append, List.reverse_cons, List.append_assoc,
      List.takeWhile_append_of_pos hall]
    simp
  rw [← hlast hu, h, hlast hv]

/-- Whatever stands before it, the counter behind the last '-' can be read off. -/
theorem lease_injective {a b : Bytes} {i j : Nat} (h : a ++ ascii "-" ++ decimal i = b ++ ascii "-" ++ decimal j) :
    i = j := by
  have hdash : ∀ n, (45 : UInt8) ∉ decimal n := by
    intro n hn
    exact absurd (mem_decimal hn).1 (by decide)
  exact decimal_injective (eq_of_append_last (hdash i) (hdash j) h)

section
variable {m : Manager} {request : WasmLifecycleRequest}

/-- A Prepare leaves the manager alone or, over nothing that is live, stores a new record. -/
theorem prepareModule_creates (m : Manager) (request : WasmLifecycleRequest) :
    (prepareModule m request).1 = m ∨
      Vacant m request ∧ ∃ gpu, (prepareModule m request).1 = withNewRecord m request gpu := by
  -- the action is what the caller dispatched on; `prepare_module` does not look at it
  have hout : Outcome m { request with action := .prepare } (prepareModule m request).1 (prepareModule m request).2 :=
    prepareModule_outcome rfl
  generalize (prepareModule m request).1 = m', (prepareModule m request).2 = answer at hout ⊢
  cases hout with
  | throws => exact Or.inl rfl
  | escapes => exact Or.inl rfl
  | keeps => exact Or.inl rfl
  | @creates gpu hc => exact Or.inr ⟨((commits_prepare rfl).mp hc).2.1, gpu, rfl⟩
  | drains _ ha =>
    have hne : ¬ WasmLifecycleAction.prepare = .drain := by decide
    exact absurd ha hne
  | releases _ ha =>
    have hne : ¬ WasmLifecycleAction.prepare = .release := by decide
    exact absurd ha hne

end

/-- Every creation takes the next lease id, and nothing else does. -/
theorem created_step {s : St} (h : AllCoherent s.manager.modules) (e : Ev) :
    (created s e = none ∧ (step s e).manager.nextLeaseId = s.manager.nextLeaseId) ∨
      ∃ request gpu, created s e = some (newRecord s.manager request gpu) ∧
        (step s e).manager = withNewRecord s.manager request gpu := by
  cases e with
  | prepare request =>
    rcases prepareModule_creates s.manager request with hsame | ⟨hvacant, gpu, hnew⟩
    · refine Or.inl ⟨?_, congrArg Manager.nextLeaseId hsame⟩
      unfold created
      dsimp only
      split
      next hnone => rw [hsame, hnone]
      next => rfl
    · have hnone : s.manager.modules (lifecycleKey request) = none := by
        cases hrec : s.manager.modules (lifecycleKey request) with
        | none => rfl
        | some record => exact absurd (h _ _ hrec).live (hvacant record hrec)
      refine Or.inr ⟨request, gpu, ?_, hnew⟩
      simp only [created, hnone, hnew, withNewRecord, setModule, Function.update_self]
  | drain request =>
    refine Or.inl ⟨rfl, ?_⟩
    rcases drainModule_cases s.manager request with ⟨h, -⟩ | ⟨record, -, -, h⟩
    · simp only [step, h]
    · simp only [step, h, setModule]
  | release request =>
    refine Or.inl ⟨rfl, ?_⟩
    rcases releaseModule_cases s.manager request with ⟨h, -⟩ | ⟨record, -, -, -, h⟩
    · simp only [step, h]
    · simp only [step, h, setModule]
  | query request => exact Or.inl ⟨rfl, rfl⟩
  | taskBegin request =>
    refine Or.inl ⟨rfl, ?_⟩
    rcases taskBegin_cases s.manager request with ⟨resp, h⟩ | ⟨record, -, -, h⟩
    · simp only [step, h]
    · simp only [step, h, setModule]
  | taskEnd i =>
    refine Or.inl ⟨rfl, ?_⟩
    cases ht : s.running[i]? with
    | none => simp only [step, ht]
    | some t =>
      rcases taskEnd_cases s.manager t.request with ⟨-, h⟩ | ⟨record, -, h⟩
      · simp only [step, ht, h]
      · simp only [step, ht, h, setModule]
  | setForceCpu forceCpu => exact Or.inl ⟨rfl, rfl⟩
  | setGpuSelector selector => exact Or.inl ⟨rfl, rfl⟩

/-- The `i`-th creation from here on takes the `i`-th lease id from here on. -/
theorem token_of_creation {s : St} {es : List Ev} (hcoh : AllCoherent s.manager.modules)
    (hroom : s.manager.nextLeaseId.toNat + (trace step created s es).length ≤ 2 ^ 64) {i : Nat} {record : ModuleRecord}
    (hi : (trace step created s es)[i]? = some record) :
    ∃ front, record.leaseToken = front ++ ascii "-" ++ decimal (s.manager.nextLeaseId.toNat + i) := by
  induction es generalizing s i with
  | nil => cases hi
  | cons e es ih =>
    have hcoh' := coherent_step e hcoh
    rw [trace] at hi hroom
    rcases created_step hcoh e with ⟨hnone, hid⟩ | ⟨request, gpu, hsome, hnew⟩
    · rw [hnone, Option.toList_none, List.nil_append] at hi hroom
      rw [← hid] at hroom ⊢
      exact ih hcoh' hroom hi
    · rw [hsome, Option.toList_some, List.singleton_append] at hi hroom
      cases i with
      | zero =>
        cases hi
        exact ⟨_, rfl⟩
      | succ i =>
        rw [List.length_cons] at hroom
        rw [List.getElem?_cons_succ] at hi
        have hlt : i < (trace step created (step s e) es).length := (List.getElem?_eq_some_iff.mp hi).1
        have hid : (step s e).manager.nextLeaseId.toNat = s.manager.nextLeaseId.toNat + 1 := by
          rw [hnew]
          show (s.manager.nextLeaseId + 1).toNat = _
          rw [UInt64.toNat_add, UInt64.toNat_one, Nat.mod_eq_of_lt (by omega)]
        obtain ⟨front, hfront⟩ := ih hcoh' (by omega) hi
        rw [hid] at hfront
        refine ⟨front, ?_⟩
        rw [hfront, Nat.add_right_comm, Nat.add_assoc]

/-- Every Ok reply about the key carries the token. -/
def RepliesCarry (m : Manager) (key token : Bytes) : Prop :=
  ∀ request, lifecycleKey request = key →
    (∀ resp, (prepareModule m request).2 = .returned resp → resp.status = .ok → resp.leaseToken = token) ∧
      ((drainModule m request).2.status = .ok → (drainModule m request).2.leaseToken = token) ∧
      ((releaseModule m request).2.status = .ok → (releaseModule m request).2.leaseToken = token) ∧
      ((queryModule m request).status = .ok → (queryModule m request).leaseToken = token)

theorem repliesCarry {m : Manager} {key : Bytes} {record : ModuleRecord} (hrec : m.modules key = some record)
    (hlive : Live record.state) : RepliesCarry m key record.leaseToken := by
  rintro request rfl
  have hrejected : ¬ WasmLifecycleStatus.rejected = .ok := by decide
  have hbusy : ¬ WasmLifecycleStatus.busy = .ok := by decide
  refine ⟨?_, ?_, ?_, ?_⟩
  · intro resp hresp hok
    simp only [prepareModule, hrec] at hresp
    split at hresp
    · cases hresp
      exact absurd hok hrejected
    split at hresp
    · cases hresp
      rfl
    split at hresp
    · cases hresp
      exact absurd hok hbusy
    · unfold Live at hlive
      tauto
  · intro _
    rw [drain_live hrec hlive]
    rfl
  · intro _
    simp only [releaseModule, hrec]
    split <;> rfl
  · intro _
    simp only [queryModule, hrec]
    rfl

/-- The key has a record with this token and this GPU. -/
def Leased (key token : Bytes) (gpu : Int32) (s : St) : Prop :=
  ∃ record, s.manager.modules key = some record ∧ Coherent record ∧ record.leaseToken = token ∧ record.assignedGpu = gpu

theorem leased_step {key token : Bytes} {gpu : Int32} (s : St) (e : Ev) (hs : Leased key token gpu s)
    (he : ¬ ReleaseOk key s e) : Leased key token gpu (step s e) := by
  obtain ⟨record, hrec, hcoh, htoken, hgpu⟩ := hs
  obtain ⟨record', hrec', hev⟩ := record_step s e hrec hcoh.live he
  refine ⟨record', hrec', ?_⟩
  cases hev with
  | same => exact ⟨hcoh, htoken, hgpu⟩
  | drained => exact ⟨.drained record, htoken, hgpu⟩
  | countIn => exact ⟨.countIn record, htoken, hgpu⟩
  | countOut => exact ⟨hcoh.countOut, htoken, hgpu⟩

theorem created_stored {s : St} {request : WasmLifecycleRequest} {record : ModuleRecord}
    (h : created s (.prepare request) = some record) :
    (step s (.prepare request)).manager.modules (lifecycleKey request) = some record := by
  unfold created at h
  dsimp only at h
  split at h
  · exact h
  · cases h

/-- In a run with fewer than 2^64 creations no two of them share a lease token; and from
    its creation until a Release of its key replies Ok a record keeps its token and its
    GPU, and every Ok reply about the key carries that token. -/
theorem leases_identify_incarnations (forceCpu : Bool) (gpuSelector : Option GpuSelectorFn) :
    (∀ es, (trace step created (start forceCpu gpuSelector) es).length < 2 ^ 64 →
      ((trace step created (start forceCpu gpuSelector) es).map (·.leaseToken)).Nodup) ∧
    ∀ pre request mid record, created (exec step (start forceCpu gpuSelector) pre) (.prepare request) = some record →
      EachStep step (fun s e => ¬ ReleaseOk (lifecycleKey request) s e)
        (exec step (start forceCpu gpuSelector) (pre ++ [.prepare request])) mid →
      ∃ now, (exec step (start forceCpu gpuSelector) (pre ++ .prepare request :: mid)).manager.modules
          (lifecycleKey request) = some now ∧
        now.leaseToken = record.leaseToken ∧ now.assignedGpu = record.assignedGpu ∧
        RepliesCarry (exec step (start forceCpu gpuSelector) (pre ++ .prepare request :: mid)).manager
          (lifecycleKey request) record.leaseToken := by
  refine ⟨?_, ?_⟩
  · intro es hfew
    have hroom : (start forceCpu gpuSelector).manager.nextLeaseId.toNat +
        (trace step created (start forceCpu gpuSelector) es).length ≤ 2 ^ 64 := by
      show 1 + _ ≤ _
      omega
    have hcoh : AllCoherent (start forceCpu gpuSelector).manager.modules := nofun
    rw [List.nodup_iff_getElem?_ne_getElem?]
    intro i j hij hj heq
    rw [List.length_map] at hj
    rw [List.getElem?_map, List.getElem?_map, List.getElem?_eq_getElem hj, List.getElem?_eq_getElem (hij.trans hj)] at heq
    obtain ⟨front, hfront⟩ := token_of_creation hcoh hroom (List.getElem?_eq_getElem (hij.trans hj))
    obtain ⟨front', hfront'⟩ := token_of_creation hcoh hroom (List.getElem?_eq_getElem hj)
    have hsame := hfront.symm.trans ((Option.some.inj heq).trans hfront')
    have := lease_injective hsame
    omega
  · intro pre request mid record hcreated hkept
    have hstored := created_stored hcreated
    rw [exec_concat] at hkept
    rw [exec_append, exec_cons]
    have hcoh := coherent_step (.prepare request) (coherent_run forceCpu gpuSelector pre)
    have hleased : Leased (lifecycleKey request) record.leaseToken record.assignedGpu
        (exec step (step (exec step (start forceCpu gpuSelector) pre) (.prepare request)) mid) :=
      exec_each hkept ⟨record, hstored, hcoh _ _ hstored, rfl, rfl⟩ leased_step
    obtain ⟨now, hnow, hnowcoh, htoken, hgpu⟩ := hleased
    exact ⟨now, hnow, htoken, hgpu, htoken ▸ repliesCarry hnow hnowcoh.live⟩

/-- The version is released and prepared again, and then drained. -/
def twoLives : List Ev := [.prepare demo, .release demo, .prepare demo, .drain demo]

theorem leases_identify_incarnations_twoLives :
    (trace step created (start true none) twoLives).map (·.leaseToken) =
        [ascii "lease-s-m-1-1", ascii "lease-s-m-1-2"] ∧
      ((trace step created (start true none) twoLives).map (·.leaseToken)).Nodup ∧
      RepliesCarry (exec step (start true none) ([.prepare demo, .release demo] ++ .prepare demo :: [.drain demo])).manager
        (lifecycleKey demo) (ascii "lease-s-m-1-2") := by
  have h := leases_identify_incarnations true none
  refine ⟨by decide +kernel, h.1 twoLives (by decide +kernel), ?_⟩
  obtain ⟨now, -, -, -, hcarry⟩ := h.2 [.prepare demo, .release demo] demo [.drain demo]
    (newRecord (exec step (start true none) [.prepare demo, .release demo]).manager demo (-1)) rfl
    ⟨fun ⟨_, he, _⟩ => (by cases he), trivial⟩
  exact hcarry

/-! ## (3) The acknowledgement of a Release -/

/-- The Release acknowledges a lease, and not the one the record has. -/
def Stale (record : ModuleRecord) (request : WasmLifecycleRequest) : Prop :=
  request.ackToken ≠ [] ∧ request.ackToken ≠ record.leaseToken

/-- In every reachable state a stale Release is refused, and leaves the record in place,
    exactly when the record has tasks in flight: `release_module` does not look at the
    acknowledgement. -/
theorem stale_release_refused_iff (forceCpu : Bool) (gpuSelector : Option GpuSelectorFn) (es : List Ev)
    (request : WasmLifecycleRequest) (record : ModuleRecord)
    (hrec : (exec step (start forceCpu gpuSelector) es).manager.modules (lifecycleKey request) = some record) :
    (Stale record request →
        (releaseModule (exec step (start forceCpu gpuSelector) es).manager request).2.status ≠ .ok ∧
        (exec step (start forceCpu gpuSelector) (es ++ [.release request])).manager.modules (lifecycleKey request) =
          some record) ↔
      (Stale record request → record.activeTasks ≠ 0) := by
  rw [ne_eq, release_ok_iff hrec, exec_concat]
  refine forall_congr' fun _ => ⟨fun h => h.1, fun hbusy => ⟨hbusy, ?_⟩⟩
  rcases releaseModule_cases (exec step (start forceCpu gpuSelector) es).manager request with
    ⟨h, -⟩ | ⟨record', hrec', hzero, -⟩
  · simp only [step, h]
    exact hrec
  · rw [hrec] at hrec'
    cases hrec'
    exact absurd hzero hbusy

/-- A Release as the client of the first incarnation sends it. -/
def lateRelease : WasmLifecycleRequest := { demo with ackToken := ascii "lease-s-m-1-1" }

/-- The second incarnation runs a task. -/
def secondBusy : List Ev := [.prepare demo, .release demo, .prepare demo, .taskBegin demoTask]

theorem stale_release_refused_iff_secondBusy :
    (releaseModule (exec step (start true none) secondBusy).manager lateRelease).2.status ≠ .ok := by
  refine ((stale_release_refused_iff true none secondBusy lateRelease
    (countIn (newRecord (exec step (start true none) [.prepare demo, .release demo]).manager demo (-1))) rfl).mpr
    ?_ ⟨by decide, by decide +kernel⟩).1
  intro _
  decide

/-- The Release of the first incarnation, sent again, removes the second. -/
theorem a_late_release_removes_the_next_incarnation :
    let m := (exec step (start true none) [.prepare demo, .release lateRelease, .prepare demo]).manager
    lateRelease.ackToken = ascii "lease-s-m-1-1" ∧
      (queryModule m demo).status = .ok ∧ (queryModule m demo).leaseToken = ascii "lease-s-m-1-2" ∧
      (releaseModule m lateRelease).2.status = .ok ∧
      (releaseModule m lateRelease).1.modules (lifecycleKey demo) = none := by
  decide +kernel

end Overhauled.Wasm
