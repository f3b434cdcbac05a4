/-
  Overhauled.Broker.Balance — what a callback that throws does to the counters around it.

  `handle_task` and `run_on_gpu` count a call in, run the user's callback without the
  lock, and count the call out. Both catch `std::exception`; anything else that is
  thrown leaves the function between the two sections. `Ev` adds that exit to the runs
  of the sandbox manager (`escape`); the runs of `Admission` have it already.

  Proved, over every interleaving (`in_flight_balanced_iff`): every counter stands at the
  number of calls inside, all along the run, exactly when no callback is left that way;
  for a module's 32-bit count, when besides no 2^32-th call is let in. After such a run
  a version nothing runs on can be released. `a_thrown_int_is_never_counted_out` is one
  exception and what it leaves behind on either side.
-/

import Overhauled.Broker.Admission
import Overhauled.Wasm.Records

namespace Overhauled.Broker.Balance

open Wire Machine
open Wasm (St WasmTaskRequest WasmLifecycleRequest Computed ComputeFn Manager GpuSelectorFn ModuleRecord lifecycleKey
  taskKey active onKey start Admits Task)
open Gpu (GpuTopology)

/-! ## Tasks of the sandbox manager -/

inductive Ev where
  /-- A section under the manager's mutex. -/
  | locked (e : Wasm.Ev)
  /-- The callback of the `i`-th running task throws what is no `std::exception`. -/
  | escape (i : Nat)

def step (s : St) : Ev → St
  | .locked e => Wasm.step s e
  | .escape i => { s with running := s.running.eraseIdx i }

/-- The step that follows the callback of the `i`-th running task. -/
def leave (i : Nat) : Computed Bytes → Ev
  | .escaped => .escape i
  | .returned _ | .threw _ => .locked (.taskEnd i)

/-- A whole call of `handle_task` is its two steps. -/
theorem handleTask_run (host : Host) (m : Manager) (running : List Task) (request : WasmTaskRequest)
    (computeFn : Option ComputeFn) (latencyMs : UInt64) {gpu : Int32} (hgpu : (Wasm.taskBegin m request).2 = .ok gpu) :
    (Wasm.handleTask host m request computeFn latencyMs).1 =
      (exec step ⟨m, running⟩ [.locked (.taskBegin request),
        leave running.length (Wasm.compute host computeFn gpu request)]).manager := by
  obtain ⟨m', hbegin⟩ : ∃ m', Wasm.taskBegin m request = (m', .ok gpu) := ⟨_, Prod.ext rfl hgpu⟩
  have hlast : ∀ t : Task, (running ++ [t])[running.length]? = some t := fun t => List.getElem?_concat_length
  simp only [exec_cons, exec_nil, step, Wasm.step, Wasm.handleTask, hbegin]
  cases Wasm.compute host computeFn gpu request with
  | returned result => simp only [leave, hlast]
  | threw what => simp only [leave, hlast]
  | escaped => rfl

/-- Every version counts the calls inside. -/
def Counted (s : St) : Prop := ∀ key, active (s.manager.modules key) = onKey key s.running

/-- No callback escapes, and a call that is let in fits the counter. -/
def Keeps (s : St) : Ev → Prop
  | .locked (.taskBegin request) => Admits s.manager request → onKey (taskKey request) s.running + 1 < 2 ^ 32
  | .locked _ => True
  | .escape i => s.running[i]? = none

theorem active_lt (record : Option ModuleRecord) : active record < 2 ^ 32 := by
  cases record with
  | none => exact Nat.two_pow_pos 32
  | some record => exact record.activeTasks.toNat_lt

theorem onKey_eraseIdx_le {running : List Task} {i : Nat} {t : Task} (ht : running[i]? = some t) (key : Bytes) :
    onKey key (running.eraseIdx i) ≤ onKey key running := by
  rw [Wasm.onKey_eraseIdx ht key]
  exact Nat.le_add_right _ _

/-- The counters have room for what a step that keeps them lets in. -/
theorem room {s : St} {e : Wasm.Ev} (h : Counted s) (hkeep : Keeps s (.locked e)) (key : Bytes) :
    onKey key (Wasm.step s e).running < 2 ^ 32 := by
  have hbefore : onKey key s.running < 2 ^ 32 := h key ▸ active_lt _
  have heff := Wasm.step_effect s e
  generalize (Wasm.step s e).manager.modules = modules, (Wasm.step s e).running = running at heff ⊢
  cases heff with
  | @accept request record hrec hopen =>
    rw [Wasm.onKey_concat]
    split
    next hkey =>
      subst hkey
      exact hkeep (Wasm.admits_iff.mpr ⟨record, hrec, hopen⟩)
    next => exact hbefore
  | finish ht hrec => exact lt_of_le_of_lt (onKey_eraseIdx_le ht key) hbefore
  | orphan ht hnone => exact lt_of_le_of_lt (onKey_eraseIdx_le ht key) hbefore
  | _ => exact hbefore

theorem inv_step (s : St) (e : Ev) (h : Wasm.Inv s.manager.modules s.running) (hkeep : Keeps s e) :
    Wasm.Inv (step s e).manager.modules (step s e).running := by
  cases e with
  | locked e => exact Wasm.effect_inv h (Wasm.step_effect s e) (room h.count hkeep)
  | escape i =>
    have hlen : s.running.length ≤ i := List.getElem?_eq_none_iff.mp hkeep
    rw [step, List.eraseIdx_of_length_le hlen]
    exact h

/-- A step after which the counts are right kept them. -/
theorem keeps_of_counted (s : St) (e : Ev) (h : Wasm.Inv s.manager.modules s.running) (hafter : Counted (step s e)) :
    Keeps s e := by
  cases e with
  | locked e =>
    cases e with
    | taskBegin request =>
      rintro ⟨gpu, hgpu⟩
      obtain ⟨m, hbegin⟩ : ∃ m, Wasm.taskBegin s.manager request = (m, .ok gpu) := ⟨_, Prod.ext rfl hgpu⟩
      have hcount := hafter (taskKey request)
      simp only [step, Wasm.step, hbegin, Wasm.onKey_concat, Task.key, if_true] at hcount
      exact hcount ▸ active_lt _
    | _ => trivial
  | escape i =>
    cases ht : s.running[i]? with
    | none => exact ht
    | some t =>
      have hcount := hafter t.key
      have hbefore := h.count t.key
      rw [Wasm.onKey_eraseIdx ht, if_pos rfl] at hbefore
      simp only [step] at hcount
      omega

/-! ## Computations on a GPU -/

section
variable {svc : BrokerService} {topo : GpuTopology} {backlogThreshold : Nat}

/-- Every GPU counts the calls between the two sections. -/
def GpuCounted (s : Admission.St) : Prop := ∀ gpu, s.inflight gpu = s.callers.countP (·.phase.holds gpu)

theorem compute_escapes {s : Admission.St} {i gpu : Nat} {c : Admission.Caller} {outcome : Computed (List UInt64)}
    (hc : s.callers[i]? = some c) (hp : c.phase = .computing gpu)
    (hout : Admission.gpuOutcome svc c.input outcome = .escaped) :
    Admission.step svc topo backlogThreshold s (.compute i outcome) = s.move i .escaped := by
  simp only [Admission.step, hc, hp, Admission.computeStep, hout]

theorem caught_of_gpuCounted (s : Admission.St) (e : Admission.Ev) (h : Admission.Inv svc s)
    (hafter : GpuCounted (Admission.step svc topo backlogThreshold s e)) : Admission.Caught svc s e := by
  cases e with
  | compute i outcome =>
    intro c gpu hc hp hout
    have hcount := hafter gpu
    have hmove := Admission.countP_move hc .escaped gpu
    have hheld : c.phase.holds gpu = true := by
      rw [hp]
      exact decide_eq_true rfl
    rw [compute_escapes hc hp hout] at hcount
    rw [← hcount, ← h.counted, if_pos hheld] at hmove
    exact absurd hmove (Nat.succ_ne_self _)
  | _ => trivial

end

/-! ## Both -/

/-- Along a run of the manager, and along a run of `run_on_gpu` calls, each counter is the
    number of calls inside exactly when no callback is left by an exception that is not
    caught there, and for the manager when every call it lets in fits the 32-bit count. -/
theorem in_flight_balanced_iff (forceCpu : Bool) (gpuSelector : Option GpuSelectorFn) (es : List Ev)
    (svc : BrokerService) (topo : GpuTopology) (backlogThreshold : Nat) (evs : List Admission.Ev) :
    ((∀ pre, pre <+: es → Counted (exec step (start forceCpu gpuSelector) pre)) ↔
        EachStep step Keeps (start forceCpu gpuSelector) es) ∧
      (EachStep step Keeps (start forceCpu gpuSelector) es → ∀ request record,
        (exec step (start forceCpu gpuSelector) es).manager.modules (lifecycleKey request) = some record →
        onKey (lifecycleKey request) (exec step (start forceCpu gpuSelector) es).running = 0 →
        (Wasm.releaseModule (exec step (start forceCpu gpuSelector) es).manager request).2.status = .ok) ∧
      ((∀ pre, pre <+: evs → GpuCounted (Admission.run svc topo backlogThreshold pre)) ↔
        EachStep (Admission.step svc topo backlogThreshold) (Admission.Caught svc) {} evs) := by
  have hinv : Wasm.Inv (start forceCpu gpuSelector).manager.modules (start forceCpu gpuSelector).running :=
    { live := nofun, count := fun _ => rfl, lease := nofun }
  refine ⟨?_, ?_, ?_⟩
  · exact forall_prefix_iff (I := fun s : St => Wasm.Inv s.manager.modules s.running) hinv (fun _ h => h.count) inv_step
      keeps_of_counted
  · intro hkeeps request record hrec hnone
    have h : Wasm.Inv (exec step (start forceCpu gpuSelector) es).manager.modules
        (exec step (start forceCpu gpuSelector) es).running :=
      exec_each (I := fun s : St => Wasm.Inv s.manager.modules s.running) hkeeps hinv inv_step
    have hcount := h.count (lifecycleKey request)
    rw [hrec, hnone] at hcount
    exact (Wasm.release_ok_iff hrec).mpr (UInt32.toNat_inj.mp hcount)
  · exact forall_prefix_iff (I := Admission.Inv svc) .empty (fun _ h => h.counted)
      (fun _ e h hcaught => h.step e hcaught) caught_of_gpuCounted

theorem in_flight_balanced_iff_drained :
    (Wasm.releaseModule (exec step (start true none) [.locked (.prepare Wasm.demo), .locked (.taskBegin Wasm.demoTask),
      .locked (.drain Wasm.demo), leave 0 (.threw (ascii "no"))]).manager Wasm.demo).2.status = .ok := by
  have h := in_flight_balanced_iff true none [.locked (.prepare Wasm.demo), .locked (.taskBegin Wasm.demoTask),
      .locked (.drain Wasm.demo), leave 0 (.threw (ascii "no"))] {} Admission.twoGpus 32 []
  refine h.2.1 ⟨trivial, fun _ => ?_, trivial, trivial, trivial⟩ Wasm.demo _ rfl ?_
  · decide +kernel
  · decide +kernel

/-- A GPU's only slot, and a callback that throws an `int`. -/
def throwing : BrokerService :=
  { config := { maxInflightPerGpu := 1, gpuComputeFn := some fun _ _ => .escaped }, useGpuPlacement := true }

/-- The call is gone and still counted: the version cannot be released, and the GPU turns
    the next call away. -/
theorem a_thrown_int_is_never_counted_out :
    let s := exec step (start true none)
      [.locked (.prepare Wasm.demo), .locked (.taskBegin Wasm.demoTask), leave 0 .escaped, .locked (.drain Wasm.demo)]
    let g := Admission.run throwing Admission.twoGpus 32 [.call {} [], .place 0 (.returned {}), .acquire 0, .compute 0 .escaped,
      .call {} [], .place 1 (.returned {}), .acquire 1]
    s.running = [] ∧ active (s.manager.modules (lifecycleKey Wasm.demo)) = 1 ∧
      (Wasm.releaseModule s.manager Wasm.demo).2.status ≠ .ok ∧
      g.callers.countP (·.phase.holds 0) = 0 ∧ g.inflight 0 = 1 ∧
      g.callers.map (·.phase) = [.escaped, .left
        { backend := .gpu, selectedGpu := 0, status := .rejected, error := ascii "selected GPU queue is at capacity" }] := by
  decide +kernel

end Overhauled.Broker.Balance
