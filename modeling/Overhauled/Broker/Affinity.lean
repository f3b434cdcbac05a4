/-
  Overhauled.Broker.Affinity — which client id and which home GPU a source gets
  (`BrokerService::get_or_assign_client_id`, `Placer::assign_home`, `Placer::place`),
  under any number of concurrent GPU requests and WASM Prepares of a service with the
  sandbox manager it makes for itself.

  The ids are guarded by `client_mutex_`, which a new source's caller holds from the
  lookup until its home is stored; the homes by `affinity_mutex_`, held within single
  steps; the round-robin counter is an atomic, drawn between the two. A Prepare that
  names its GPU has no id. `registered` is history: the sources in the order of their
  ids.

  Over every interleaving (`affinity_sticky_and_fair`): ids and homes are never taken
  back or changed, two sources never share an id, the `k`-th source is at home on GPU
  `k mod n`, so the homes are spread evenly, and `place` never draws a home of its own.
  A draw of `place` would shift every later home; that it makes none is part of the
  invariant.
-/

import Overhauled.Broker.Admission

namespace Overhauled.Broker.Affinity

open Wire Machine
open Gpu (GpuTopology)

inductive Phase where
  | entered
  /-- Registered under the id, with `client_mutex_` held and a home to draw. -/
  | drawing (id : Int32)
  | storing (id : Int32) (home : Int)
  /-- `get_or_assign_client_id` has returned. -/
  | known (id : Int32)
  | placed (id : Int32) (gpu : Nat)
  /-- A Prepare that names its GPU. -/
  | named (gpu : Int32)
  deriving DecidableEq

structure Caller where
  source : Bytes
  phase : Phase := .entered

structure St where
  sourceToClient : Bytes → Option Int32 := fun _ => none
  nextClientId : Int32 := 1
  rrCounter : UInt64 := 0
  affinity : Int32 → Option Int := fun _ => none
  clientMutex : Option Nat := none
  callers : List Caller := []
  registered : List Bytes := []

inductive Ev where
  /-- `run_on_gpu`. -/
  | request (source : Bytes)
  /-- The GPU selector of `prepare_module`. -/
  | prepare (sandboxId : Bytes) (targetGpu : Int32)
  | lookup (i : Nat)
  | draw (i : Nat)
  | store (i : Nat)
  | place (i : Nat) (depth : Nat → Nat → Nat)

def St.move (s : St) (i : Nat) (phase : Phase) : St :=
  { s with callers := s.callers.modify i fun c => { c with phase } }

/-- The entry `place` finds is none of a GPU's. -/
def Homeless (topo : GpuTopology) (s : St) (id : Int32) : Prop :=
  (s.affinity id).getD (-1) < 0 ∨ (s.affinity id).getD (-1) ≥ topo.numGpus

instance (topo : GpuTopology) (s : St) (id : Int32) : Decidable (Homeless topo s id) := inferInstanceAs (Decidable (_ ∨ _))

section
variable (topo : GpuTopology) (backlogThreshold : Nat)

/-- `get_or_assign_client_id`, up to the call of `assign_home`. -/
def lookupStep (s : St) (i : Nat) (c : Caller) : St :=
  match s.sourceToClient c.source with
  | some id => s.move i (.known id)
  | none =>
    { s.move i (.drawing s.nextClientId) with
      nextClientId := s.nextClientId + 1
      sourceToClient := Function.update s.sourceToClient c.source (some s.nextClientId)
      clientMutex := some i
      registered := s.registered ++ [c.source] }

/-- The two halves of `assign_home`. -/
def drawStep (s : St) (i : Nat) (id : Int32) : St :=
  { s.move i (.storing id (s.rrCounter.toNat % topo.numGpus : Nat)) with rrCounter := s.rrCounter + 1 }

@[inherit_doc drawStep]
def storeStep (s : St) (i : Nat) (id : Int32) (home : Int) : St :=
  { s.move i (.known id) with affinity := Function.update s.affinity id (some home), clientMutex := none }

def placeStep (s : St) (i : Nat) (id : Int32) (depth : Nat → Nat → Nat) : St :=
  { s.move i (.placed id (Gpu.place topo backlogThreshold ⟨s.affinity id, s.rrCounter, depth⟩)) with
    rrCounter := if Homeless topo s id then s.rrCounter + 1 else s.rrCounter }

/-- An event that the caller's phase or the mutex does not allow changes nothing. -/
def step (s : St) : Ev → St
  | .request source => { s with callers := s.callers ++ [{ source }] }
  | .prepare sandboxId targetGpu =>
    { s with callers := s.callers ++ [{ source := sandboxId, phase := if targetGpu ≥ 0 then .named targetGpu else .entered }] }
  | .lookup i =>
    match s.callers[i]? with
    | some c => if c.phase = .entered ∧ s.clientMutex = none then lookupStep s i c else s
    | none => s
  | .draw i =>
    match s.callers[i]? with
    | some c =>
      match c.phase with
      | .drawing id => drawStep topo s i id
      | _ => s
    | none => s
  | .store i =>
    match s.callers[i]? with
    | some c =>
      match c.phase with
      | .storing id home => storeStep s i id home
      | _ => s
    | none => s
  | .place i depth =>
    match s.callers[i]? with
    | some c =>
      match c.phase with
      | .known id => placeStep topo backlogThreshold s i id depth
      | _ => s
    | none => s

/-! ## What one step does -/

def Ev.source : Ev → Option Bytes
  | .request source => some source
  | .prepare sandboxId _ => some sandboxId
  | _ => none

inductive Effect (s : St) : Ev → St → Prop
  | idle {e : Ev} : Effect s e s
  | calls {e : Ev} {c : Caller} (hsource : e.source = some c.source)
      (hphase : c.phase = .entered ∨ ∃ gpu, c.phase = .named gpu) : Effect s e { s with callers := s.callers ++ [c] }
  | finds {i : Nat} {c : Caller} {id : Int32} (hc : s.callers[i]? = some c) (hp : c.phase = .entered)
      (hfree : s.clientMutex = none) (hid : s.sourceToClient c.source = some id) :
      Effect s (.lookup i) (s.move i (.known id))
  | registers {i : Nat} {c : Caller} (hc : s.callers[i]? = some c) (hp : c.phase = .entered)
      (hfree : s.clientMutex = none) (hnew : s.sourceToClient c.source = none) : Effect s (.lookup i) (lookupStep s i c)
  | draws {i : Nat} {c : Caller} {id : Int32} (hc : s.callers[i]? = some c) (hp : c.phase = .drawing id) :
      Effect s (.draw i) (drawStep topo s i id)
  | stores {i : Nat} {c : Caller} {id : Int32} {home : Int} (hc : s.callers[i]? = some c)
      (hp : c.phase = .storing id home) : Effect s (.store i) (storeStep s i id home)
  | places {i : Nat} {c : Caller} {id : Int32} {depth : Nat → Nat → Nat} (hc : s.callers[i]? = some c)
      (hp : c.phase = .known id) : Effect s (.place i depth) (placeStep topo backlogThreshold s i id depth)

theorem step_effect (s : St) (e : Ev) : Effect topo backlogThreshold s e (step topo backlogThreshold s e) := by
  unfold step
  split
  next source => exact .calls rfl (Or.inl rfl)
  next sandboxId targetGpu =>
    refine .calls rfl ?_
    dsimp only
    split
    next => exact Or.inr ⟨_, rfl⟩
    next => exact Or.inl rfl
  next i =>
    split
    next c hc =>
      split
      next h =>
        cases hid : s.sourceToClient c.source with
        | none => exact .registers hc h.1 h.2 hid
        | some id =>
          have hfound : lookupStep s i c = s.move i (.known id) := by simp only [lookupStep, hid]
          rw [hfound]
          exact .finds hc h.1 h.2 hid
      next => exact .idle
    next => exact .idle
  next i =>
    split
    next c hc =>
      split
      next id hp => exact .draws hc hp
      next => exact .idle
    next => exact .idle
  next i =>
    split
    next c hc =>
      split
      next id home hp => exact .stores hc hp
      next => exact .idle
    next => exact .idle
  next i depth =>
    split
    next c hc =>
      split
      next id hp => exact .places hc hp
      next => exact .idle
    next => exact .idle

end

/-! ## The invariant -/

/-- The id of the `k`-th source. -/
def clientId (k : Nat) : Int32 := Int32.ofNat (k + 1)

theorem clientId_injective {j k : Nat} (hj : j < 2 ^ 31 - 1) (hk : k < 2 ^ 31 - 1) (h : clientId j = clientId k) :
    j = k := by
  have hint := congrArg Int32.toInt h
  rw [clientId, clientId, Int32.toInt_ofNat_of_lt (by omega), Int32.toInt_ofNat_of_lt (by omega)] at hint
  omega

/-- Inside `get_or_assign_client_id`, with the mutex. -/
def Phase.holds : Phase → Bool
  | .drawing _ => true
  | .storing _ _ => true
  | _ => false

/-- The id the caller has come back with. -/
def Phase.settled : Phase → Option Int32
  | .known id => some id
  | .placed id _ => some id
  | _ => none

/-- How many sources have their home stored: all but the one being registered. -/
def St.assigned (s : St) : Nat := if s.clientMutex = none then s.registered.length else s.registered.length - 1

theorem St.assigned_le (s : St) : s.assigned ≤ s.registered.length := by
  unfold St.assigned
  split <;> omega

/-- Where the registration of the last source stands. -/
inductive Turn (topo : GpuTopology) (s : St) : Prop
  | free (hmutex : s.clientMutex = none) (hrr : s.rrCounter = UInt64.ofNat s.registered.length)
  | drawing {i k : Nat} {c : Caller} (hmutex : s.clientMutex = some i) (hc : s.callers[i]? = some c)
      (hp : c.phase = .drawing (clientId k)) (hlast : s.registered[k]? = some c.source) (hk : s.registered.length = k + 1)
      (hrr : s.rrCounter = UInt64.ofNat k)
  | storing {i k : Nat} {c : Caller} (hmutex : s.clientMutex = some i) (hc : s.callers[i]? = some c)
      (hp : c.phase = .storing (clientId k) (k % topo.numGpus : Nat)) (hlast : s.registered[k]? = some c.source)
      (hk : s.registered.length = k + 1) (hrr : s.rrCounter = UInt64.ofNat (k + 1))

structure Inv (topo : GpuTopology) (sources : Finset Bytes) (s : St) : Prop where
  callers : ∀ c ∈ s.callers, c.source ∈ sources
  registered : ∀ source ∈ s.registered, source ∈ sources
  nodup : s.registered.Nodup
  ids : ∀ (k : Nat) (source : Bytes), s.registered[k]? = some source → s.sourceToClient source = some (clientId k)
  only : ∀ source id, s.sourceToClient source = some id → source ∈ s.registered
  next : s.nextClientId = clientId s.registered.length
  homes : ∀ id home, s.affinity id = some home ↔
    ∃ k < s.assigned, id = clientId k ∧ home = ((k % topo.numGpus : Nat) : Int)
  turn : Turn topo s
  holders : ∀ (j : Nat) (c : Caller), s.callers[j]? = some c → c.phase.holds = true → s.clientMutex = some j
  settled : ∀ c ∈ s.callers, ∀ id, c.phase.settled = some id →
    ∃ k < s.assigned, s.registered[k]? = some c.source ∧ id = clientId k

section
variable {topo : GpuTopology} {sources : Finset Bytes} {s : St} {i : Nat} {c : Caller}

theorem Inv.start : Inv topo sources {} where
  callers := nofun
  registered := nofun
  nodup := List.nodup_nil
  ids k source h := by simp at h
  only source id h := by simp at h
  next := rfl
  homes id home := by simp [St.assigned]
  turn := .free rfl rfl
  holders j c h := by simp at h
  settled := nofun

theorem Inv.length_le (h : Inv topo sources s) : s.registered.length ≤ sources.card := by
  rw [← List.toFinset_card_of_nodup h.nodup]
  refine Finset.card_le_card fun source hsource => ?_
  exact h.registered source (List.mem_toFinset.mp hsource)

/-- There are ids enough for the sources. -/
theorem Inv.clientId_inj (h : Inv topo sources s) (hfew : sources.card < 2 ^ 31 - 1) {j k : Nat}
    (hj : j < s.registered.length) (hk : k < s.registered.length) (heq : clientId j = clientId k) : j = k := by
  have hlen := h.length_le
  exact clientId_injective (by omega) (by omega) heq

theorem Inv.source_injective (h : Inv topo sources s) (hfew : sources.card < 2 ^ 31 - 1) {a b : Bytes} {id : Int32}
    (ha : s.sourceToClient a = some id) (hb : s.sourceToClient b = some id) : a = b := by
  obtain ⟨j, hj⟩ := List.mem_iff_getElem?.mp (h.only a id ha)
  obtain ⟨k, hk⟩ := List.mem_iff_getElem?.mp (h.only b id hb)
  have hid := ((h.ids j a hj).symm.trans ha).trans (hb.symm.trans (h.ids k b hk))
  have hjk := h.clientId_inj hfew (List.getElem?_eq_some_iff.mp hj).1 (List.getElem?_eq_some_iff.mp hk).1
    (Option.some.inj hid)
  subst hjk
  exact Option.some.inj (hj.symm.trans hk)

/-- A source without an id is none of the registered. -/
theorem Inv.unregistered (h : Inv topo sources s) {source : Bytes} (hnew : s.sourceToClient source = none) :
    source ∉ s.registered := by
  intro hmem
  obtain ⟨k, hk⟩ := List.mem_iff_getElem?.mp hmem
  rw [h.ids k _ hk] at hnew
  cases hnew

/-- While nobody registers, the round-robin counter is the number of sources. -/
theorem Inv.counter_free (h : Inv topo sources s) (hfree : s.clientMutex = none) :
    s.rrCounter = UInt64.ofNat s.registered.length := by
  cases h.turn with
  | free _ hrr => exact hrr
  | drawing hmutex => rw [hfree] at hmutex; cases hmutex
  | storing hmutex => rw [hfree] at hmutex; cases hmutex

/-- A caller that has come back with an id has a home on a GPU. -/
theorem Inv.home (h : Inv topo sources s) (hc : c ∈ s.callers) {id : Int32} (hid : c.phase.settled = some id) :
    ¬ Homeless topo s id := by
  obtain ⟨k, hk, -, rfl⟩ := h.settled c hc id hid
  have hhome := (h.homes (clientId k) _).mpr ⟨k, hk, rfl, rfl⟩
  have hlt := Nat.mod_lt k topo.counted.1
  unfold Homeless
  rw [hhome, Option.getD_some]
  omega

theorem forall_move {P : Caller → Prop} (h : ∀ c ∈ s.callers, P c) (hc : s.callers[i]? = some c) {phase : Phase}
    (hnew : P { c with phase }) : ∀ c ∈ (s.move i phase).callers, P c := by
  refine forall_mem_modify h ?_
  intro a ha
  rw [hc] at ha
  cases ha
  exact hnew

theorem holders_move (h : Inv topo sources s) {phase : Phase}
    (hnew : phase.holds = true → s.clientMutex = some i) :
    ∀ (j : Nat) (d : Caller), (s.move i phase).callers[j]? = some d → d.phase.holds = true → s.clientMutex = some j := by
  intro j d hd hholds
  rcases modify_get hd with ⟨a, rfl, -, rfl⟩ | ⟨-, hold⟩
  · exact hnew hholds
  · exact h.holders j d hold hholds

/-- Whoever does not hold the mutex leaves the registration where it stands. -/
theorem Turn.move (h : Turn topo s) (hc : s.callers[i]? = some c) (hout : c.phase.holds = false) (phase : Phase) :
    Turn topo (s.move i phase) := by
  have hother : ∀ {j : Nat} {d : Caller}, s.callers[j]? = some d → d.phase.holds = true →
      (s.move i phase).callers[j]? = some d := by
    intro j d hd hholds
    refine (modify_other _ fun hij => ?_).trans hd
    subst hij
    rw [hc] at hd
    cases hd
    rw [hout] at hholds
    cases hholds
  cases h with
  | free hmutex hrr => exact .free hmutex hrr
  | drawing hmutex hd hp hlast hk hrr => exact .drawing hmutex (hother hd (by rw [hp]; rfl)) hp hlast hk hrr
  | storing hmutex hd hp hlast hk hrr => exact .storing hmutex (hother hd (by rw [hp]; rfl)) hp hlast hk hrr

/-- A caller without the mutex moves on, with an id it may have. -/
theorem Inv.move (h : Inv topo sources s) (hc : s.callers[i]? = some c) (hout : c.phase.holds = false) {phase : Phase}
    (hfree : phase.holds = false)
    (hid : ∀ id, phase.settled = some id → ∃ k < s.assigned, s.registered[k]? = some c.source ∧ id = clientId k) :
    Inv topo sources (s.move i phase) where
  callers := forall_move h.callers hc (h.callers c (List.mem_of_getElem? hc))
  registered := h.registered
  nodup := h.nodup
  ids := h.ids
  only := h.only
  next := h.next
  homes := h.homes
  turn := h.turn.move hc hout phase
  holders := holders_move h (by rw [hfree]; nofun)
  settled := forall_move h.settled hc hid

theorem Inv.call (h : Inv topo sources s) {source : Bytes} {phase : Phase} (hsource : source ∈ sources)
    (hphase : phase = .entered ∨ ∃ gpu, phase = .named gpu) :
    Inv topo sources { s with callers := s.callers ++ [{ source, phase }] } where
  callers := by
    refine List.forall_mem_append.mpr ⟨h.callers, ?_⟩
    intro c hc
    cases List.mem_singleton.mp hc
    exact hsource
  registered := h.registered
  nodup := h.nodup
  ids := h.ids
  only := h.only
  next := h.next
  homes := h.homes
  turn := by
    have hstay : ∀ {j : Nat} {d : Caller}, s.callers[j]? = some d → (s.callers ++ [⟨source, phase⟩])[j]? = some d :=
      fun hd => (List.getElem?_append_left (List.getElem?_eq_some_iff.mp hd).1).trans hd
    cases h.turn with
    | free hmutex hrr => exact .free hmutex hrr
    | drawing hmutex hd hp hlast hk hrr => exact .drawing hmutex (hstay hd) hp hlast hk hrr
    | storing hmutex hd hp hlast hk hrr => exact .storing hmutex (hstay hd) hp hlast hk hrr
  holders := by
    intro j d hd hholds
    rcases concat_get hd with hd | rfl
    · exact h.holders j d hd hholds
    · rcases hphase with rfl | ⟨gpu, rfl⟩ <;> cases hholds
  settled := by
    refine List.forall_mem_append.mpr ⟨h.settled, ?_⟩
    intro c hc id hid
    cases List.mem_singleton.mp hc
    rcases hphase with rfl | ⟨gpu, rfl⟩ <;> cases hid

/-- The next id goes to the source that comes behind the registered ones. -/
theorem Inv.ids_concat (h : Inv topo sources s) {source : Bytes} (hnew : s.sourceToClient source = none) {k : Nat}
    {source' : Bytes} (hk : (s.registered ++ [source])[k]? = some source') :
    Function.update s.sourceToClient source (some s.nextClientId) source' = some (clientId k) := by
  by_cases hlt : k < s.registered.length
  · rw [List.getElem?_append_left hlt] at hk
    have hne : source' ≠ source := fun heq => h.unregistered hnew (heq ▸ List.mem_of_getElem? hk)
    rw [Function.update_of_ne hne]
    exact h.ids k source' hk
  · have hlen := (List.getElem?_eq_some_iff.mp hk).1
    rw [List.length_append, List.length_singleton] at hlen
    obtain rfl : k = s.registered.length := by omega
    rw [List.getElem?_concat_length] at hk
    cases hk
    rw [Function.update_self, h.next]

theorem Inv.register (h : Inv topo sources s) (hc : s.callers[i]? = some c) (hfree : s.clientMutex = none)
    (hnew : s.sourceToClient c.source = none) : Inv topo sources (lookupStep s i c) := by
  have hsource := h.callers c (List.mem_of_getElem? hc)
  have hbefore : s.assigned = s.registered.length := if_pos hfree
  have hkeep : ∀ {k : Nat} {source : Bytes}, s.registered[k]? = some source →
      (s.registered ++ [c.source])[k]? = some source :=
    fun hk => (List.getElem?_append_left (List.getElem?_eq_some_iff.mp hk).1).trans hk
  unfold lookupStep
  rw [hnew]
  have hassigned : ∀ t : St, t.clientMutex = some i → t.registered = s.registered ++ [c.source] →
      t.assigned = s.assigned := by
    intro t hmutex hreg
    rw [St.assigned, hmutex, if_neg nofun, hreg, List.length_append, List.length_singleton, hbefore]
    rfl
  constructor
  · exact forall_move h.callers hc hsource
  · refine List.forall_mem_append.mpr ⟨h.registered, ?_⟩
    intro source hs
    cases List.mem_singleton.mp hs
    exact hsource
  · exact List.nodup_append.mpr ⟨h.nodup, List.nodup_singleton _, fun a ha b hb => by
      cases List.mem_singleton.mp hb
      exact fun heq => h.unregistered hnew (heq ▸ ha)⟩
  · intro k source hk
    exact h.ids_concat hnew hk
  · intro source id hid
    by_cases heq : source = c.source
    · exact List.mem_append_right _ (List.mem_singleton.mpr heq)
    · dsimp only at hid
      rw [Function.update_of_ne heq] at hid
      exact List.mem_append_left _ (h.only source id hid)
  · dsimp only
    rw [h.next, List.length_append, List.length_singleton, clientId, clientId, Int32.ofNat_add (s.registered.length + 1) 1]
    rfl
  · intro id home
    rw [hassigned _ rfl rfl]
    exact h.homes id home
  · exact .drawing rfl (modify_same _ hc) (by rw [h.next]) List.getElem?_concat_length (by simp) (h.counter_free hfree)
  · intro j d hd hholds
    rcases modify_get hd with ⟨a, rfl, -, -⟩ | ⟨-, hold⟩
    · rfl
    · have hheld := h.holders j d hold hholds
      rw [hfree] at hheld
      cases hheld
  · refine forall_move ?_ hc nofun
    intro d hd id hid
    rw [hassigned _ rfl rfl]
    obtain ⟨k, hk, hreg, heq⟩ := h.settled d hd id hid
    exact ⟨k, hk, hkeep hreg, heq⟩

/-- Who is inside with the mutex is registering the last source. -/
theorem Inv.registering (h : Inv topo sources s) (hc : s.callers[i]? = some c) (hholds : c.phase.holds = true) :
    s.clientMutex = some i ∧ ∃ k, s.registered[k]? = some c.source ∧ s.registered.length = k + 1 ∧
      (c.phase = .drawing (clientId k) ∧ s.rrCounter = UInt64.ofNat k ∨
        c.phase = .storing (clientId k) (k % topo.numGpus : Nat) ∧ s.rrCounter = UInt64.ofNat (k + 1)) := by
  have hmutex := h.holders i c hc hholds
  refine ⟨hmutex, ?_⟩
  cases h.turn with
  | free hfree =>
    rw [hmutex] at hfree
    cases hfree
  | @drawing _ k _ hm hc' hp hlast hk hrr =>
    rw [hmutex] at hm
    cases hm
    rw [hc] at hc'
    cases hc'
    exact ⟨k, hlast, hk, Or.inl ⟨hp, hrr⟩⟩
  | @storing _ k _ hm hc' hp hlast hk hrr =>
    rw [hmutex] at hm
    cases hm
    rw [hc] at hc'
    cases hc'
    exact ⟨k, hlast, hk, Or.inr ⟨hp, hrr⟩⟩

/-- The number that is drawn is that of the source being registered. -/
theorem Inv.draw (h : Inv topo sources s) (hfew : sources.card < 2 ^ 31 - 1) (hc : s.callers[i]? = some c) {id : Int32}
    (hp : c.phase = .drawing id) : Inv topo sources (drawStep topo s i id) := by
  obtain ⟨hmutex, k, hlast, hk, hturn⟩ := h.registering hc (by rw [hp]; rfl)
  rcases hturn with ⟨hp', hrr⟩ | ⟨hp', -⟩ <;> rw [hp] at hp' <;> cases hp'
  have hlen := h.length_le
  have hnat : s.rrCounter.toNat = k := by
    rw [hrr]
    exact UInt64.toNat_ofNat_of_lt' (lt_of_lt_of_le (by omega : k < 2 ^ 31) (by decide))
  refine { h with callers := ?_, turn := ?_, holders := ?_, settled := ?_ }
  · exact forall_move h.callers hc (h.callers c (List.mem_of_getElem? hc))
  · refine .storing hmutex (modify_same _ hc) ?_ hlast hk ?_
    · rw [hnat]
    · show s.rrCounter + 1 = _
      rw [hrr, UInt64.ofNat_add]
      rfl
  · exact holders_move h fun _ => hmutex
  · exact forall_move h.settled hc nofun

/-- The home that is stored is the number the source drew, and it is new. -/
theorem Inv.store (h : Inv topo sources s) (hfew : sources.card < 2 ^ 31 - 1) (hc : s.callers[i]? = some c) {id : Int32}
    {home : Int} (hp : c.phase = .storing id home) :
    Inv topo sources (storeStep s i id home) ∧ s.affinity id = none := by
  obtain ⟨hmutex, k, hlast, hk, hturn⟩ := h.registering hc (by rw [hp]; rfl)
  rcases hturn with ⟨hp', -⟩ | ⟨hp', hrr⟩ <;> rw [hp] at hp' <;> cases hp'
  have hbefore : s.assigned = k := by
    rw [St.assigned, hmutex, if_neg nofun, hk]
    rfl
  have hafter : (storeStep s i (clientId k) (k % topo.numGpus : Nat)).assigned = k + 1 := by
    rw [← hk]
    exact if_pos rfl
  have hinj : ∀ j < k + 1, clientId k = clientId j → k = j :=
    fun j hj heq => h.clientId_inj hfew (by omega) (by omega) heq
  have hnone : s.affinity (clientId k) = none := by
    cases haff : s.affinity (clientId k) with
    | none => rfl
    | some home =>
      obtain ⟨j, hj, heq, -⟩ := (h.homes _ _).mp haff
      have := hinj j (by omega) heq
      omega
  refine ⟨{ h with callers := ?_, homes := ?_, turn := ?_, holders := ?_, settled := ?_ }, hnone⟩
  · exact forall_move h.callers hc (h.callers c (List.mem_of_getElem? hc))
  · intro id home
    rw [hafter]
    show Function.update s.affinity (clientId k) _ id = some home ↔ _
    by_cases hid : id = clientId k
    · subst hid
      rw [Function.update_self]
      refine ⟨fun heq => ⟨k, Nat.lt_succ_self k, rfl, (Option.some.inj heq).symm⟩, ?_⟩
      rintro ⟨j, hj, heq, rfl⟩
      rw [hinj j hj heq]
    · rw [Function.update_of_ne hid, h.homes, hbefore]
      refine ⟨fun ⟨j, hj, heq⟩ => ⟨j, Nat.lt_succ_of_lt hj, heq⟩, ?_⟩
      rintro ⟨j, hj, rfl, rfl⟩
      exact ⟨j, Nat.lt_of_le_of_ne (Nat.le_of_lt_succ hj) fun heq => hid (heq ▸ rfl), rfl, rfl⟩
  · refine .free rfl ?_
    rw [← hk] at hrr
    exact hrr
  · intro j d hd hholds
    rcases modify_get hd with ⟨a, rfl, -, rfl⟩ | ⟨hij, hold⟩
    · cases hholds
    · have hheld := h.holders j d hold hholds
      rw [hmutex] at hheld
      exact absurd (Option.some.inj hheld) hij
  · refine forall_move ?_ hc ?_
    · intro d hd id hid
      rw [hafter]
      obtain ⟨j, hj, hrest⟩ := h.settled d hd id hid
      exact ⟨j, by omega, hrest⟩
    · rintro id ⟨⟩
      rw [hafter]
      exact ⟨k, Nat.lt_succ_self k, hlast, rfl⟩

theorem Inv.place (h : Inv topo sources s) (hc : s.callers[i]? = some c) {id : Int32} (hp : c.phase = .known id)
    (backlogThreshold : Nat) (depth : Nat → Nat → Nat) : Inv topo sources (placeStep topo backlogThreshold s i id depth) := by
  have hmem := List.mem_of_getElem? hc
  have hid : c.phase.settled = some id := by rw [hp]; rfl
  rw [placeStep, if_neg (h.home hmem hid)]
  refine h.move hc (by rw [hp]; rfl) rfl ?_
  rintro _ ⟨⟩
  exact h.settled c hmem id hid

/-- What was given out stays. -/
structure Kept (s s' : St) : Prop where
  ids : ∀ source id, s.sourceToClient source = some id → s'.sourceToClient source = some id
  homes : ∀ id home, s.affinity id = some home → s'.affinity id = some home

/-- Nothing was given out. -/
theorem Kept.same {s s' : St} (hids : s'.sourceToClient = s.sourceToClient) (hhomes : s'.affinity = s.affinity) :
    Kept s s' where
  ids _ _ hid := hids ▸ hid
  homes _ _ hhome := hhomes ▸ hhome

theorem Kept.trans {s t u : St} (h : Kept s t) (h' : Kept t u) : Kept s u where
  ids source id hid := h'.ids source id (h.ids source id hid)
  homes id home hhome := h'.homes id home (h.homes id home hhome)

theorem inv_step {backlogThreshold : Nat} {s' : St} {e : Ev} (h : Inv topo sources s) (hfew : sources.card < 2 ^ 31 - 1)
    (hsource : ∀ source, e.source = some source → source ∈ sources) (heff : Effect topo backlogThreshold s e s') :
    Inv topo sources s' ∧ Kept s s' := by
  cases heff with
  | idle => exact ⟨h, .same rfl rfl⟩
  | calls hsrc hphase => exact ⟨h.call (hsource _ hsrc) hphase, .same rfl rfl⟩
  | @finds i c id hc hp hfree hid =>
    refine ⟨h.move hc (by rw [hp]; rfl) rfl ?_, .same rfl rfl⟩
    rintro _ ⟨⟩
    obtain ⟨k, hk⟩ := List.mem_iff_getElem?.mp (h.only _ _ hid)
    rw [h.ids k _ hk] at hid
    refine ⟨k, ?_, hk, (Option.some.inj hid).symm⟩
    rw [St.assigned, if_pos hfree]
    exact (List.getElem?_eq_some_iff.mp hk).1
  | @registers i c hc hp hfree hnew =>
    refine ⟨h.register hc hfree hnew, ?_⟩
    unfold lookupStep
    rw [hnew]
    refine ⟨?_, fun _ _ hhome => hhome⟩
    intro source id hid
    have hne : source ≠ c.source := by
      rintro rfl
      rw [hnew] at hid
      cases hid
    exact (Function.update_of_ne hne ..).trans hid
  | draws hc hp => exact ⟨h.draw hfew hc hp, .same rfl rfl⟩
  | @stores i c id home hc hp =>
    obtain ⟨hinv, hnone⟩ := h.store hfew hc hp
    refine ⟨hinv, fun _ _ hid => hid, ?_⟩
    intro id' home' hhome
    have hne : id' ≠ id := by
      rintro rfl
      rw [hnone] at hhome
      cases hhome
    exact (Function.update_of_ne hne ..).trans hhome
  | places hc hp => exact ⟨h.place hc hp _ _, .same rfl rfl⟩

theorem inv_run {backlogThreshold : Nat} {es : List Ev} (h : Inv topo sources s) (hfew : sources.card < 2 ^ 31 - 1)
    (hsource : ∀ e ∈ es, ∀ source, e.source = some source → source ∈ sources) :
    Inv topo sources (exec (step topo backlogThreshold) s es) ∧ Kept s (exec (step topo backlogThreshold) s es) := by
  induction es generalizing s with
  | nil => exact ⟨h, .same rfl rfl⟩
  | cons e es ih =>
    obtain ⟨hinv, hkept⟩ := inv_step h hfew (hsource e List.mem_cons_self) (step_effect topo backlogThreshold s e)
    obtain ⟨hinv', hkept'⟩ := ih hinv fun e' he' => hsource e' (List.mem_cons_of_mem e he')
    exact ⟨hinv', hkept.trans hkept'⟩

end

/-! ## Homes -/

def St.homeOf (s : St) (source : Bytes) : Option Int := (s.sourceToClient source).bind s.affinity

/-- How many sources are at home on the GPU. -/
def St.homesOn (s : St) (gpu : Nat) : Nat := s.registered.countP fun source => s.homeOf source = some (gpu : Int)

/-- Drawing homes in turn, no GPU gets two more than another. -/
theorem count_in_turn_le {n : Nat} (hn : 0 < n) (m : Nat) {g g' : Nat} (hg : g < n) (hg' : g' < n) :
    Nat.count (fun k => k % n = g) m ≤ Nat.count (fun k => k % n = g') m + 1 := by
  have hcount : ∀ r < n, Nat.count (fun k => k % n = r) m = m / n + if r < m % n then 1 else 0 := by
    intro r hr
    have hmod : (fun k => k % n = r) = fun k => k ≡ r [MOD n] := by
      funext k
      rw [Nat.ModEq, Nat.mod_eq_of_lt hr]
    simp only [hmod, Nat.count_modEq_card m hn r, Nat.mod_eq_of_lt hr]
  rw [hcount g hg, hcount g' hg']
  split <;> split <;> omega

section
variable {topo : GpuTopology} {sources : Finset Bytes} {s : St}

/-- The `k`-th source is at home on GPU `k mod n`, once it is registered. -/
theorem Inv.homeOf (h : Inv topo sources s) (hfew : sources.card < 2 ^ 31 - 1) {k : Nat} {source : Bytes}
    (hk : s.registered[k]? = some source) :
    s.homeOf source = if k < s.assigned then some ((k % topo.numGpus : Nat) : Int) else none := by
  rw [St.homeOf, h.ids k source hk, Option.bind_some]
  split
  next hlt => exact (h.homes _ _).mpr ⟨k, hlt, rfl, rfl⟩
  next hge =>
    cases haff : s.affinity (clientId k) with
    | none => rfl
    | some home =>
      obtain ⟨j, hj, heq, -⟩ := (h.homes _ _).mp haff
      have hkj := h.clientId_inj hfew (List.getElem?_eq_some_iff.mp hk).1 (Nat.lt_of_lt_of_le hj s.assigned_le) heq
      exact absurd (hkj ▸ hj) hge

/-- Only the last source can be without its home, while it is being registered. -/
theorem Inv.home_in_turn (h : Inv topo sources s) (hfew : sources.card < 2 ^ 31 - 1) {k : Nat} {source : Bytes}
    (hk : s.registered[k]? = some source) :
    s.homeOf source = some ((k % topo.numGpus : Nat) : Int) ∨ s.clientMutex ≠ none ∧ k + 1 = s.registered.length := by
  have hlt : k < s.registered.length := (List.getElem?_eq_some_iff.mp hk).1
  have hhome := h.homeOf hfew hk
  split at hhome
  next => exact Or.inl hhome
  next hge =>
    refine Or.inr ?_
    unfold St.assigned at hge
    split at hge
    next => exact absurd hlt hge
    next hheld => exact ⟨hheld, by omega⟩

theorem Inv.homesOn (h : Inv topo sources s) (hfew : sources.card < 2 ^ 31 - 1) (gpu : Nat) :
    s.homesOn gpu = Nat.count (fun k => k % topo.numGpus = gpu) s.assigned := by
  have hle := s.assigned_le
  rw [St.homesOn, countP_eq_length_places, Nat.count_eq_card_filter_range]
  have hplaces : ((List.range s.registered.length).filter fun k =>
      (s.registered[k]?).any fun source => s.homeOf source = some (gpu : Int)) =
      (List.range s.registered.length).filter fun k => k < s.assigned ∧ k % topo.numGpus = gpu := by
    refine List.filter_congr fun k hk => ?_
    have hget := List.getElem?_eq_getElem (List.mem_range.mp hk)
    rw [hget, Option.any_some, h.homeOf hfew hget]
    by_cases hlt : k < s.assigned
    · simp [hlt]
      omega
    · simp [hlt]
  rw [hplaces]
  have hcard : ((Finset.range s.registered.length).filter fun k => k < s.assigned ∧ k % topo.numGpus = gpu) =
      (Finset.range s.assigned).filter fun k => k % topo.numGpus = gpu := by
    ext k
    simp only [Finset.mem_filter, Finset.mem_range]
    omega
  rw [← hcard]
  rfl

end

/-- `place` draws a home because it finds none. -/
def FallsBack (topo : GpuTopology) (s : St) : Ev → Prop
  | .place i _ => ∃ (c : Caller) (id : Int32), s.callers[i]? = some c ∧ c.phase = .known id ∧ Homeless topo s id
  | _ => False

/-- The sources of all the calls. -/
def sourcesOf (es : List Ev) : Finset Bytes := (es.filterMap Ev.source).toFinset

/-- In every interleaving of the calls of fewer than 2^31 - 1 sources: a source that has an
    id keeps it, and its home once it has one; two sources have two ids; the `k`-th source
    registered is at home on GPU `k mod n` unless its registration is still under way, and
    whoever has come back with an id finds the source's home in place; of the GPUs none is
    home to two sources more than another; and `place` never falls back on a fresh home. -/
theorem affinity_sticky_and_fair (topo : GpuTopology) (backlogThreshold : Nat) (es : List Ev)
    (hfew : (sourcesOf es).card < 2 ^ 31 - 1) :
    let s := exec (step topo backlogThreshold) {} es
    (∀ pre, pre <+: es → Kept (exec (step topo backlogThreshold) {} pre) s) ∧
      (∀ a b id, s.sourceToClient a = some id → s.sourceToClient b = some id → a = b) ∧
      (∀ (k : Nat) (source : Bytes), s.registered[k]? = some source →
        s.homeOf source = some ((k % topo.numGpus : Nat) : Int) ∨
          s.clientMutex ≠ none ∧ k + 1 = s.registered.length) ∧
      (∀ c ∈ s.callers, ∀ id, c.phase.settled = some id →
        s.sourceToClient c.source = some id ∧ s.homeOf c.source ≠ none) ∧
      (∀ g g', g < topo.numGpus → g' < topo.numGpus → s.homesOn g ≤ s.homesOn g' + 1) ∧
      EachStep (step topo backlogThreshold) (fun s e => ¬ FallsBack topo s e) {} es := by
  have hsource : ∀ e ∈ es, ∀ source, e.source = some source → source ∈ sourcesOf es := by
    intro e he source hs
    exact List.mem_toFinset.mpr (List.mem_filterMap.mpr ⟨e, he, hs⟩)
  have hreach : ∀ pre, pre <+: es → Inv topo (sourcesOf es) (exec (step topo backlogThreshold) {} pre) := by
    intro pre hpre
    exact (inv_run .start hfew fun e he => hsource e (hpre.subset he)).1
  have h := hreach es (List.prefix_refl es)
  intro s
  refine ⟨?_, ?_, ?_, ?_, ?_, ?_⟩
  · intro pre hpre
    obtain ⟨rest, hrest⟩ := id hpre
    have hrun := (@inv_run topo _ _ backlogThreshold rest (hreach pre hpre) hfew
      fun e he => hsource e (hrest ▸ List.mem_append_right pre he)).2
    rwa [← exec_append, hrest] at hrun
  · exact fun a b id ha hb => h.source_injective hfew ha hb
  · exact fun k source hk => h.home_in_turn hfew hk
  · intro c hc id hid
    obtain ⟨k, hk, hreg, rfl⟩ := h.settled c hc id hid
    refine ⟨h.ids k _ hreg, ?_⟩
    rw [h.homeOf hfew hreg, if_pos hk]
    nofun
  · intro g g' hg hg'
    rw [h.homesOn hfew, h.homesOn hfew]
    exact count_in_turn_le topo.counted.1 _ hg hg'
  · refine eachStep_iff.mpr ?_
    rintro pre e hpre hfall
    have hinv := hreach pre ((List.prefix_append pre [e]).trans hpre)
    cases e with
    | place i depth =>
      obtain ⟨c, id, hc, hp, hless⟩ := hfall
      exact hinv.home (List.mem_of_getElem? hc) (by rw [hp]; rfl) hless
    | _ => exact hfall

/-- Two sources on two GPUs: the second looks up while the first is being registered, and
    the first comes back. -/
def twoSources : List Ev :=
  [.request (ascii "a"), .prepare (ascii "b") (-1), .lookup 0, .lookup 1, .draw 0, .store 0, .lookup 1, .draw 1,
    .store 1, .place 0 fun _ _ => 0, .request (ascii "a"), .lookup 2, .place 2 fun _ _ => 0, .place 1 fun _ _ => 0]

theorem affinity_sticky_and_fair_twoSources :
    let s := exec (step Admission.twoGpus 32) {} twoSources
    s.callers.map (·.phase) = [.placed 1 0, .placed 2 1, .placed 1 0] ∧ s.homesOn 0 ≤ s.homesOn 1 + 1 :=
  ⟨by decide +kernel,
    (affinity_sticky_and_fair Admission.twoGpus 32 twoSources (by decide +kernel)).2.2.2.2.1 0 1 (by decide) (by decide)⟩

end Overhauled.Broker.Affinity
