/-
  Overhauled.Broker.Admission — `gpu_inflight_`, the counters that bound how many
  computations each GPU runs at a time, under any number of concurrent calls of
  `run_on_gpu` (`src/broker_service.cpp`).

  A call places its task, then takes the lock to count itself in or be turned away, then
  computes without the lock, then takes it again to count itself out. `step` is one such
  action of one caller; a list of events is an interleaving. The placer reads the
  counters one by one, each under the lock, while other callers move on, so what it reads
  is left open: `Placing` is any sequence of readings. So is what the callback does: the
  event says how this computation was left, and two on the same input may differ.

  Over every interleaving the counter of a GPU is the number of callers between the two
  locked sections, as long as no callback throws what is no `std::exception`, which would
  pass the second section by (`admission_control`). What a caller leaves with is always an
  answer of `runOnGpu` (`left_answers`).
-/

import Overhauled.Gpu.Placer
import Overhauled.Machine.Run
import Overhauled.Machine.Threads
import Overhauled.Broker.Service

namespace Overhauled.Broker.Admission

open Wire Machine
open Gpu (GpuTopology Placing)
open Wasm (Computed)

inductive Phase where
  | entered
  | placed (gpu : Nat)
  /-- Counted in. -/
  | computing (gpu : Nat)
  /-- Done computing, still to be counted out. -/
  | leaving (gpu : Nat) (response : BrokerResponse)
  | left (response : BrokerResponse)
  /-- Left by an exception that `run_on_gpu` does not catch. -/
  | escaped
  deriving DecidableEq

structure Caller where
  request : BrokerRequest
  input : List UInt64
  phase : Phase := .entered

structure St where
  inflight : Nat → Nat := fun _ => 0
  callers : List Caller := []

inductive Ev where
  | call (request : BrokerRequest) (input : List UInt64)
  | place (i : Nat) (placing : Computed Placing)
  | acquire (i : Nat)
  /-- How the callback is left, this time. -/
  | compute (i : Nat) (outcome : Computed (List UInt64))
  | release (i : Nat)

def St.move (s : St) (i : Nat) (phase : Phase) : St :=
  { s with callers := s.callers.modify i fun c => { c with phase } }

def St.count (s : St) (gpu n : Nat) : St := { s with inflight := Function.update s.inflight gpu n }

section
variable (svc : BrokerService) (topo : GpuTopology) (backlogThreshold : Nat)

def placeStep (s : St) (i : Nat) (c : Caller) : Computed Placing → St
  | .returned p => s.move i (.placed (Gpu.place topo backlogThreshold p))
  | .threw what => s.move i (.left { taskId := c.request.taskId, backend := .gpu, status := .error, error := what })
  | .escaped => s.move i .escaped

/-- The first locked section: up by one, and down again if that is one too many. -/
def acquireStep (s : St) (i : Nat) (c : Caller) (gpu : Nat) : St :=
  let inflight := s.inflight gpu + 1
  if inflight > svc.config.maxInflightPerGpu then
    (s.count gpu (inflight - 1)).move i (.left
      { taskId := c.request.taskId, backend := .gpu, selectedGpu := Int32.ofNat gpu, status := .rejected
        error := ascii "selected GPU queue is at capacity" })
  else (s.count gpu inflight).move i (.computing gpu)

/-- The service's own kernel runs where no callback is configured. -/
def gpuOutcome (input : List UInt64) (outcome : Computed (List UInt64)) : Computed (List UInt64) :=
  match svc.config.gpuComputeFn with
  | some _ => outcome
  | none => .returned (Wasm.defaultGpuCompute input)

def computeStep (s : St) (i : Nat) (c : Caller) (gpu : Nat) (outcome : Computed (List UInt64)) : St :=
  let response : BrokerResponse := { taskId := c.request.taskId, backend := .gpu, selectedGpu := Int32.ofNat gpu }
  match gpuOutcome svc c.input outcome with
  | .returned output => s.move i (.leaving gpu { response with status := .ok, result := encodeDoublesAsPayload output })
  | .threw what => s.move i (.leaving gpu { response with status := .error, error := what })
  | .escaped => s.move i .escaped

/-- The second locked section, with its guard against a counter at zero. -/
def releaseStep (s : St) (i gpu : Nat) (response : BrokerResponse) : St :=
  let inflight := s.inflight gpu
  (s.count gpu (if inflight > 0 then inflight - 1 else inflight)).move i (.left response)

/-- An event that the caller's phase does not allow changes nothing. -/
def step (s : St) : Ev → St
  | .call request input => { s with callers := s.callers ++ [{ request, input }] }
  | .place i placing =>
    match s.callers[i]? with
    | some c => if c.phase = .entered then placeStep topo backlogThreshold s i c placing else s
    | none => s
  | .acquire i =>
    match s.callers[i]? with
    | some c =>
      match c.phase with
      | .placed gpu => acquireStep svc s i c gpu
      | _ => s
    | none => s
  | .compute i outcome =>
    match s.callers[i]? with
    | some c =>
      match c.phase with
      | .computing gpu => computeStep svc s i c gpu outcome
      | _ => s
    | none => s
  | .release i =>
    match s.callers[i]? with
    | some c =>
      match c.phase with
      | .leaving gpu response => releaseStep s i gpu response
      | _ => s
    | none => s

def run (evs : List Ev) : St := exec (step svc topo backlogThreshold) {} evs

/-! ## What one step does -/

/-- Every computation is left by return or by a `std::exception`. -/
def StdExceptions (evs : List Ev) : Prop :=
  svc.config.gpuComputeFn ≠ none → ∀ i outcome, Ev.compute i outcome ∈ evs → outcome ≠ .escaped

/-- The step is no computation left by an exception that `run_on_gpu` does not catch. -/
def Caught (s : St) : Ev → Prop
  | .compute i outcome => ∀ (c : Caller) (gpu : Nat), s.callers[i]? = some c → c.phase = .computing gpu →
      gpuOutcome svc c.input outcome ≠ .escaped
  | _ => True

/-- The service, with a callback that is left this way. -/
def answering (outcome : Computed (List UInt64)) : BrokerService :=
  { svc with config := { svc.config with gpuComputeFn := svc.config.gpuComputeFn.map fun _ _ _ => outcome } }

inductive Effect (s : St) : Ev → St → Prop
  | idle {e : Ev} : Effect s e s
  | calls {request : BrokerRequest} {input : List UInt64} :
      Effect s (.call request input) { s with callers := s.callers ++ [{ request, input }] }
  | places {i : Nat} {c : Caller} {placing : Computed Placing} : s.callers[i]? = some c → c.phase = .entered →
      Effect s (.place i placing) (placeStep topo backlogThreshold s i c placing)
  | rejects {i gpu : Nat} {c : Caller} {r : BrokerResponse} : s.callers[i]? = some c → c.phase = .placed gpu →
      (∀ outcome, runOnGpu (answering svc outcome) ⟨.returned (Int32.ofNat gpu), s.inflight gpu⟩ c.request c.input =
        .returned r) →
      svc.config.maxInflightPerGpu < s.inflight gpu + 1 →
      Effect s (.acquire i) (s.move i (.left r))
  | acquires {i gpu : Nat} {c : Caller} : s.callers[i]? = some c → c.phase = .placed gpu →
      s.inflight gpu + 1 ≤ svc.config.maxInflightPerGpu →
      Effect s (.acquire i) ((s.count gpu (s.inflight gpu + 1)).move i (.computing gpu))
  | computes {i gpu : Nat} {c : Caller} {outcome : Computed (List UInt64)} {r : BrokerResponse} :
      s.callers[i]? = some c → c.phase = .computing gpu →
      (∀ inflight, inflight + 1 ≤ svc.config.maxInflightPerGpu →
        runOnGpu (answering svc outcome) ⟨.returned (Int32.ofNat gpu), inflight⟩ c.request c.input = .returned r) →
      Effect s (.compute i outcome) (s.move i (.leaving gpu r))
  | escapes {i gpu : Nat} {c : Caller} {outcome : Computed (List UInt64)} : s.callers[i]? = some c →
      c.phase = .computing gpu → gpuOutcome svc c.input outcome = .escaped →
      Effect s (.compute i outcome) (s.move i .escaped)
  | releases {i gpu : Nat} {c : Caller} {r : BrokerResponse} : s.callers[i]? = some c → c.phase = .leaving gpu r →
      Effect s (.release i) (releaseStep s i gpu r)

variable {svc topo backlogThreshold}

theorem acquireStep_effect {s : St} {i gpu : Nat} {c : Caller} (hc : s.callers[i]? = some c)
    (hp : c.phase = .placed gpu) : Effect svc topo backlogThreshold s (.acquire i) (acquireStep svc s i c gpu) := by
  unfold acquireStep
  dsimp only
  split
  next hfull =>
    -- what was counted in is counted out again in the same section
    have hsame : s.count gpu (s.inflight gpu + 1 - 1) = s := by
      rw [St.count, Nat.add_sub_cancel, Function.update_eq_self]
    rw [hsame]
    exact .rejects hc hp (fun outcome => by simp only [runOnGpu, answering, hfull, if_true]) hfull
  next hroom => exact .acquires hc hp (by omega)

theorem caught_of_std {evs : List Ev} (hstd : StdExceptions svc evs) (s : St) {e : Ev} (he : e ∈ evs) :
    Caught svc s e := by
  cases e with
  | compute i outcome =>
    intro c gpu _ _
    unfold gpuOutcome
    split
    next f hf => exact hstd (by simp [hf]) i outcome he
    next => simp
  | _ => trivial

/-- Within the bound, the answer is what the computation makes of it. -/
theorem runOnGpu_answering (outcome : Computed (List UInt64)) {gpu inflight : Nat} (request : BrokerRequest)
    (input : List UInt64) (hroom : inflight + 1 ≤ svc.config.maxInflightPerGpu) :
    runOnGpu (answering svc outcome) ⟨.returned (Int32.ofNat gpu), inflight⟩ request input =
      match gpuOutcome svc input outcome with
      | .returned output => .returned { taskId := request.taskId, backend := .gpu, selectedGpu := Int32.ofNat gpu
                                        status := .ok, result := encodeDoublesAsPayload output }
      | .threw what => .returned { taskId := request.taskId, backend := .gpu, selectedGpu := Int32.ofNat gpu
                                   status := .error, error := what }
      | .escaped => .escaped := by
  have hnot : ¬ inflight + 1 > svc.config.maxInflightPerGpu := by omega
  unfold gpuOutcome
  cases hf : svc.config.gpuComputeFn with
  | none => simp only [runOnGpu, answering, hf, Option.map_none, hnot, if_false]
  | some f =>
    cases outcome <;> simp only [runOnGpu, answering, hf, Option.map_some, hnot, if_false]

theorem computeStep_effect {s : St} {i gpu : Nat} {c : Caller} (outcome : Computed (List UInt64))
    (hc : s.callers[i]? = some c) (hp : c.phase = .computing gpu) :
    Effect svc topo backlogThreshold s (.compute i outcome) (computeStep svc s i c gpu outcome) := by
  unfold computeStep
  cases hres : gpuOutcome svc c.input outcome with
  | returned output => exact .computes hc hp fun inflight hroom => by rw [runOnGpu_answering _ _ _ hroom, hres]
  | threw what => exact .computes hc hp fun inflight hroom => by rw [runOnGpu_answering _ _ _ hroom, hres]
  | escaped => exact .escapes hc hp hres

theorem step_effect (s : St) (e : Ev) :
    Effect svc topo backlogThreshold s e (step svc topo backlogThreshold s e) := by
  cases e with
  | call request input => exact .calls
  | place i placing =>
    unfold step
    dsimp only
    split
    next c hc =>
      split
      next hp => exact .places hc hp
      next => exact .idle
    next => exact .idle
  | acquire i =>
    unfold step
    dsimp only
    split
    next c hc =>
      split
      next gpu hp => exact acquireStep_effect hc hp
      next => exact .idle
    next => exact .idle
  | compute i outcome =>
    unfold step
    dsimp only
    split
    next c hc =>
      split
      next gpu hp => exact computeStep_effect outcome hc hp
      next => exact .idle
    next => exact .idle
  | release i =>
    unfold step
    dsimp only
    split
    next c hc =>
      split
      next gpu r hp => exact .releases hc hp
      next => exact .idle
    next => exact .idle

end

/-! ## The counters -/

/-- Between the two locked sections, on this GPU. -/
def Phase.holds (gpu : Nat) : Phase → Bool
  | .computing g => g = gpu
  | .leaving g _ => g = gpu
  | _ => false

structure Inv (svc : BrokerService) (s : St) : Prop where
  counted : ∀ gpu, s.inflight gpu = s.callers.countP (·.phase.holds gpu)
  bounded : ∀ gpu, s.inflight gpu ≤ svc.config.maxInflightPerGpu

section
variable {svc : BrokerService} {topo : GpuTopology} {backlogThreshold : Nat} {s : St} {i : Nat} {c : Caller} {phase : Phase}

theorem countP_move (hc : s.callers[i]? = some c) (phase : Phase) (gpu : Nat) :
    (s.move i phase).callers.countP (·.phase.holds gpu) + (if c.phase.holds gpu then 1 else 0) =
      s.callers.countP (·.phase.holds gpu) + (if phase.holds gpu then 1 else 0) :=
  countP_modify (fun c => { c with phase }) hc

/-- The caller moves on and no counter changes. -/
theorem Inv.move (h : Inv svc s) (hc : s.callers[i]? = some c) (hholds : ∀ gpu, phase.holds gpu = c.phase.holds gpu) :
    Inv svc (s.move i phase) := by
  refine ⟨?_, h.bounded⟩
  intro gpu
  have hcount := countP_move hc phase gpu
  rw [hholds gpu] at hcount
  exact (h.counted gpu).trans (Nat.add_right_cancel hcount).symm

/-- The caller moves on and the counter of one GPU with it. -/
theorem Inv.recount (h : Inv svc s) (hc : s.callers[i]? = some c) {gpu n : Nat}
    (hn : n + (if c.phase.holds gpu then 1 else 0) = s.inflight gpu + (if phase.holds gpu then 1 else 0))
    (hother : ∀ g, g ≠ gpu → phase.holds g = c.phase.holds g) (hle : n ≤ svc.config.maxInflightPerGpu) :
    Inv svc ((s.count gpu n).move i phase) := by
  refine ⟨?_, ?_⟩
  · intro g
    show Function.update s.inflight gpu n g = (s.move i phase).callers.countP (·.phase.holds g)
    have hcount := countP_move hc phase g
    by_cases hg : g = gpu
    · subst hg
      rw [Function.update_self]
      rw [← h.counted] at hcount
      omega
    · rw [Function.update_of_ne hg, h.counted]
      rw [hother g hg] at hcount
      exact (Nat.add_right_cancel hcount).symm
  · intro g
    show Function.update s.inflight gpu n g ≤ _
    by_cases hg : g = gpu
    · subst hg
      rwa [Function.update_self]
    · rw [Function.update_of_ne hg]
      exact h.bounded g

theorem holds_placed {gpu : Nat} (hp : c.phase = .placed gpu) (g : Nat) : c.phase.holds g = false := by
  rw [hp]
  rfl

/-- A caller that is still to be counted out is in its GPU's count. -/
theorem Inv.pos (h : Inv svc s) (hc : s.callers[i]? = some c) {gpu : Nat} (hholds : c.phase.holds gpu = true) :
    0 < s.inflight gpu := by
  rw [h.counted, List.countP_pos_iff]
  exact ⟨c, List.mem_of_getElem? hc, hholds⟩

theorem Inv.step (h : Inv svc s) (e : Ev) (hcaught : Caught svc s e) : Inv svc (step svc topo backlogThreshold s e) := by
  have heff := @step_effect svc topo backlogThreshold s e
  generalize Admission.step svc topo backlogThreshold s e = s' at heff
  cases heff with
  | idle => exact h
  | calls =>
    refine ⟨?_, h.bounded⟩
    intro gpu
    rw [List.countP_append, h.counted gpu]
    rfl
  | @places i c placing hc hp =>
    have hnone : ∀ gpu, c.phase.holds gpu = false := fun gpu => by rw [hp]; rfl
    cases placing <;> exact h.move hc fun gpu => (hnone gpu).symm
  | rejects hc hp => exact h.move hc fun gpu => (holds_placed hp gpu).symm
  | @acquires i gpu c hc hp hroom =>
    refine h.recount hc ?_ ?_ hroom
    · rw [holds_placed hp gpu]
      simp [Phase.holds]
    · intro g hg
      rw [holds_placed hp g]
      exact decide_eq_false (Ne.symm hg)
  | computes hc hp => exact h.move hc fun g => by rw [hp]; rfl
  | escapes hc hp hout => exact absurd hout (hcaught _ _ hc hp)
  | @releases i gpu c r hc hp =>
    have hholds : c.phase.holds gpu = true := by rw [hp]; exact decide_eq_true rfl
    have hpos := h.pos hc hholds
    have hle := h.bounded gpu
    refine h.recount hc ?_ ?_ ?_
    · rw [if_pos hpos, hholds]
      simp only [if_true, Phase.holds, Bool.false_eq_true, if_false]
      omega
    · intro g hg
      rw [hp]
      exact (decide_eq_false (Ne.symm hg)).symm
    · rw [if_pos hpos]
      omega

theorem Inv.empty : Inv svc {} := ⟨fun _ => rfl, fun _ => Nat.zero_le _⟩

theorem Inv.run {evs : List Ev} (hstd : StdExceptions svc evs) : Inv svc (run svc topo backlogThreshold evs) := by
  refine exec_induct (I := Inv svc) .empty ?_
  intro pre e hpre h
  exact h.step e (caught_of_std hstd _ (hpre.subset (by simp)))

end

/-- Whatever the callers do in whatever order: each GPU's counter is the number of callers
    between its two locked sections and within the bound, a caller turned away leaves the
    counters alone, and no counter is at zero when it is to be lowered. -/
theorem admission_control (svc : BrokerService) (topo : GpuTopology) (backlogThreshold : Nat)
    (evs : List Ev) (hstd : StdExceptions svc evs) :
    (∀ gpu, (run svc topo backlogThreshold evs).inflight gpu =
        (run svc topo backlogThreshold evs).callers.countP (·.phase.holds gpu)) ∧
      (∀ gpu, (run svc topo backlogThreshold evs).inflight gpu ≤ svc.config.maxInflightPerGpu) ∧
      (∀ (i : Nat) (c : Caller) (gpu : Nat) (r : BrokerResponse), (run svc topo backlogThreshold evs).callers[i]? = some c → c.phase = .placed gpu →
        (run svc topo backlogThreshold (evs ++ [.acquire i])).callers[i]? = some { c with phase := .left r } →
        (run svc topo backlogThreshold (evs ++ [.acquire i])).inflight = (run svc topo backlogThreshold evs).inflight) ∧
      ∀ (i : Nat) (c : Caller) (gpu : Nat) (r : BrokerResponse), (run svc topo backlogThreshold evs).callers[i]? = some c → c.phase = .leaving gpu r →
        0 < (run svc topo backlogThreshold evs).inflight gpu := by
  have h : Inv svc (run svc topo backlogThreshold evs) := Inv.run hstd
  refine ⟨h.counted, h.bounded, ?_, ?_⟩
  · intro i c gpu r hc hp hleft
    rw [run, exec_concat, ← run] at hleft ⊢
    have heff := @step_effect svc topo backlogThreshold (run svc topo backlogThreshold evs) (.acquire i)
    generalize step svc topo backlogThreshold (run svc topo backlogThreshold evs) (.acquire i) = s' at heff hleft ⊢
    cases heff with
    | idle => rfl
    | rejects => rfl
    | @acquires _ g _ hc' hp' =>
      have hin := modify_same (fun c : Caller => { c with phase := .computing g }) hc'
      rw [hc] at hc'
      cases hc'
      cases hin.symm.trans hleft
  · intro i c gpu r hc hp
    refine h.pos hc ?_
    rw [hp]
    exact decide_eq_true rfl

def twoGpus : GpuTopology :=
  { numGpus := 2, linkKind := fun i j => if i = j then .self else .pcie
    linkBandwidth := fun i j => if i = j then 1000 else 10, counted := by decide }

def oneEach : BrokerService := { config := { maxInflightPerGpu := 1 }, useGpuPlacement := true }

/-- Two callers placed on GPU 0 before either is counted in. -/
def twoOnOne : List Ev :=
  [.call {} [], .call {} [], .place 0 (.returned {}), .place 1 (.returned {}), .acquire 0, .acquire 1]

theorem admission_control_two :
    (run oneEach twoGpus 32 twoOnOne).callers.map (·.phase.holds 0) = [true, false] ∧
      (run oneEach twoGpus 32 twoOnOne).inflight 0 =
        (run oneEach twoGpus 32 twoOnOne).callers.countP (·.phase.holds 0) ∧
      (run oneEach twoGpus 32 twoOnOne).inflight 0 ≤ 1 :=
  have h := admission_control oneEach twoGpus 32 twoOnOne fun hcallback => absurd rfl hcallback
  ⟨by decide +kernel, h.1 0, h.2.1 0⟩

/-! ## What a caller leaves with -/

section
variable (svc : BrokerService) (topo : GpuTopology) (callback : List UInt64 → Int32 → Computed (List UInt64) → Prop)

/-- A callback, if there is one, may be left this way. -/
def MayEnd (input : List UInt64) (gpu : Int32) (outcome : Computed (List UInt64)) : Prop :=
  svc.config.gpuComputeFn ≠ none → callback input gpu outcome

/-- The computations of the run are left in ways that the callback may be. -/
def Follows (s : St) : Ev → Prop
  | .compute i outcome => ∀ (c : Caller) (gpu : Nat), s.callers[i]? = some c → c.phase = .computing gpu →
      MayEnd svc callback c.input (Int32.ofNat gpu) outcome
  | _ => True

/-- By itself `runOnGpu` has this answer, for some placement on a GPU of the topology and
    an outcome that the callback may have there. -/
def Answers (c : Caller) (r : BrokerResponse) : Prop :=
  ∃ gpu outcome, runOnGpu (answering svc outcome) gpu c.request c.input = .returned r ∧
    ∀ g, gpu.place = .returned g → (∃ n < topo.numGpus, g = Int32.ofNat n) ∧
      (gpu.inflight + 1 ≤ svc.config.maxInflightPerGpu → MayEnd svc callback c.input g outcome)

def Sound (c : Caller) : Prop :=
  match c.phase with
  | .entered => True
  | .placed gpu => gpu < topo.numGpus
  | .computing gpu => gpu < topo.numGpus ∧ 1 ≤ svc.config.maxInflightPerGpu
  | .leaving _ r => Answers svc topo callback c r
  | .left r => Answers svc topo callback c r
  | .escaped => True

variable {svc topo callback} {backlogThreshold : Nat} {s : St} {i : Nat} {c : Caller} {phase : Phase}

theorem sound_move (h : ∀ c ∈ s.callers, Sound svc topo callback c) (hc : s.callers[i]? = some c)
    (hs : Sound svc topo callback { c with phase }) : ∀ c' ∈ (s.move i phase).callers, Sound svc topo callback c' := by
  intro c' hc'
  rcases mem_modify hc' with hold | ⟨a, ha, rfl⟩
  · exact h c' hold
  · rw [hc] at ha
    cases ha
    exact hs

theorem sound_step (e : Ev) (h : ∀ c ∈ s.callers, Sound svc topo callback c) (hfollows : Follows svc callback s e) :
    ∀ c ∈ (step svc topo backlogThreshold s e).callers, Sound svc topo callback c := by
  have heff := @step_effect svc topo backlogThreshold s e
  generalize step svc topo backlogThreshold s e = s' at heff
  cases heff with
  | idle => exact h
  | calls =>
    intro c hc
    rcases List.mem_append.mp hc with hc | hc
    · exact h c hc
    · cases List.mem_singleton.mp hc
      trivial
  | @places i c placing hc hp =>
    cases placing with
    | returned p => exact sound_move h hc (Gpu.place_lt topo backlogThreshold p)
    | threw what =>
      refine sound_move h hc ⟨⟨.threw what, 0⟩, .escaped, rfl, ?_⟩
      intro g hg
      cases hg
    | escaped => exact sound_move h hc trivial
  | @rejects i gpu c r hc hp hr hfull =>
    have hs := h c (List.mem_of_getElem? hc)
    rw [Sound, hp] at hs
    refine sound_move h hc ⟨_, .escaped, hr .escaped, ?_⟩
    intro g hg
    cases hg
    exact ⟨⟨gpu, hs, rfl⟩, fun hroom => absurd hroom (Nat.not_le.mpr hfull)⟩
  | @acquires i gpu c hc hp hroom =>
    have hs := h c (List.mem_of_getElem? hc)
    rw [Sound, hp] at hs
    exact sound_move (s := s.count gpu _) h hc ⟨hs, le_trans (Nat.le_add_left 1 _) hroom⟩
  | @computes i gpu c outcome r hc hp hr =>
    have hs := h c (List.mem_of_getElem? hc)
    rw [Sound, hp] at hs
    refine sound_move h hc ⟨_, outcome, hr 0 hs.2, ?_⟩
    intro g hg
    cases hg
    exact ⟨⟨gpu, hs.1, rfl⟩, fun _ => hfollows c gpu hc hp⟩
  | escapes hc hp => exact sound_move h hc trivial
  | @releases i gpu c r hc hp =>
    have hs := h c (List.mem_of_getElem? hc)
    rw [Sound, hp] at hs
    exact sound_move (s := s.count gpu _) h hc hs

end

/-- What a caller leaves with is an answer of `run_on_gpu` taken by itself. -/
theorem left_answers (svc : BrokerService) (topo : GpuTopology) (backlogThreshold : Nat)
    (callback : List UInt64 → Int32 → Computed (List UInt64) → Prop) (evs : List Ev)
    (hrun : EachStep (step svc topo backlogThreshold) (Follows svc callback) {} evs)
    (c : Caller) (hc : c ∈ (run svc topo backlogThreshold evs).callers) (r : BrokerResponse) (hp : c.phase = .left r) :
    Answers svc topo callback c r := by
  have hsound : ∀ c ∈ (run svc topo backlogThreshold evs).callers, Sound svc topo callback c := by
    refine exec_each (I := fun s : St => ∀ c ∈ s.callers, Sound svc topo callback c) hrun ?_ fun _ e h hf => sound_step e h hf
    intro c hc
    cases hc
  have h := hsound c hc
  rwa [Sound, hp] at h

/-- A callback that doubles its input, or fails. -/
def flaky : BrokerService :=
  { config := { maxInflightPerGpu := 1, gpuComputeFn := some fun _ _ => .threw (ascii "gpu lost") }
    useGpuPlacement := true }

def Doubles (input : List UInt64) (_ : Int32) (outcome : Computed (List UInt64)) : Prop :=
  outcome = .returned (Wasm.defaultGpuCompute input) ∨ outcome = .threw (ascii "gpu lost")

/-- The same computation twice, and only the first succeeds. -/
def onceLost : List Ev :=
  [.call {} [], .place 0 (.returned {}), .acquire 0, .compute 0 (.returned []), .release 0,
    .call {} [], .place 1 (.returned {}), .acquire 1, .compute 1 (.threw (ascii "gpu lost")), .release 1]

theorem left_answers_onceLost :
    (run flaky twoGpus 32 onceLost).callers.map (·.phase) =
        [.left { backend := .gpu, selectedGpu := 0, status := .ok },
          .left { backend := .gpu, selectedGpu := 0, status := .error, error := ascii "gpu lost" }] ∧
      Answers flaky twoGpus Doubles { request := {}, input := [], phase := .left { backend := .gpu, selectedGpu := 0, status := .ok } }
        { backend := .gpu, selectedGpu := 0, status := .ok } := by
  have hphases : (run flaky twoGpus 32 onceLost).callers.map (·.phase) =
        [.left { backend := .gpu, selectedGpu := 0, status := .ok },
          .left { backend := .gpu, selectedGpu := 0, status := .error, error := ascii "gpu lost" }] := by
    decide +kernel
  refine ⟨hphases, left_answers flaky twoGpus 32 Doubles onceLost ?_ _ (List.mem_of_getElem? (i := 0) rfl) _ rfl⟩
  refine ⟨trivial, trivial, trivial, ?_, trivial, trivial, trivial, trivial, ?_, trivial, trivial⟩
  · intro c gpu hc _ _
    cases hc
    exact Or.inl rfl
  · intro c gpu _ _ _
    exact Or.inr rfl

end Overhauled.Broker.Admission
