/-
  Overhauled.Broker.Lifecycle — whether a lifecycle request that is answered with
  Rejected or Error left the sandbox manager as it was.

  `handle_wasm_lifecycle_request` lets the manager act and encodes its reply afterwards.
  What the manager itself refuses changes nothing. But the reply of a call that went
  through carries the lease token, which `prepare_module` joins from three strings of the
  request that were each checked on their own; when the token is over the string limit,
  or the reply over the frame limit, the request is answered with Error and the change
  stays (`a_failed_prepare_leaves_its_record`). `lifecycle_atomic_iff` is the exact
  condition.
-/

import Overhauled.Broker.Answers

namespace Overhauled.Broker

open Wire
open Wasm (Manager WasmLifecycleRequest WasmLifecycleResponse WasmLimits Commits lifecycleKey)

/-- How long the lease token is that a call reports: a new one for a Prepare, else the
    record's. -/
def leaseLength (m : Manager) (req : WasmLifecycleRequest) : Nat :=
  if req.action = .prepare then
    9 + req.sandboxId.length + req.moduleId.length + req.moduleVersion.length + (decimal m.nextLeaseId.toNat).length
  else
    match m.modules (lifecycleKey req) with
    | none => 0
    | some record => record.leaseToken.length

/-- The reply has room for the lease token. -/
def LeaseFits (limits : WasmLimits) (m : Manager) (req : WasmLifecycleRequest) : Prop :=
  (leaseLength m req ≤ limits.maxStringBytes ∧ leaseLength m req < 256 ^ 2) ∧
    32 + req.requestId.length + req.sandboxId.length + req.moduleId.length + req.moduleVersion.length +
      leaseLength m req ≤ limits.maxFrameBytes

/-- Module table and lease counter are the same. -/
def SameTable (m m' : Manager) : Prop := m'.modules = m.modules ∧ m'.nextLeaseId = m.nextLeaseId

section
variable {limits : WasmLimits} {m m' : Manager} {req : WasmLifecycleRequest} {resp : WasmLifecycleResponse}

theorem length_newLease : (Wasm.newLease m req).length =
    9 + req.sandboxId.length + req.moduleId.length + req.moduleVersion.length + (decimal m.nextLeaseId.toNat).length := by
  have hlease : (ascii "lease-").length = 6 := by decide
  have hdash : (ascii "-").length = 1 := by decide
  simp only [Wasm.newLease, List.length_append, hlease, hdash]
  omega

/-- The reply of a call that went through: Ok, with the request's names, the token, and no
    error. -/
structure Grants (m : Manager) (req : WasmLifecycleRequest) (resp : WasmLifecycleResponse) : Prop where
  status : resp.status = .ok
  names : resp.requestId = req.requestId ∧ resp.sandboxId = req.sandboxId ∧ resp.moduleId = req.moduleId ∧
    resp.moduleVersion = req.moduleVersion
  lease : resp.leaseToken.length = leaseLength m req
  error : resp.error = []

theorem leaseLength_record {record : Wasm.ModuleRecord} (ha : req.action ≠ .prepare)
    (hrec : m.modules (lifecycleKey req) = some record) : leaseLength m req = record.leaseToken.length := by
  rw [leaseLength, if_neg ha, hrec]

theorem not_same_of_record {o o' : Option Wasm.ModuleRecord} (h : m.modules (lifecycleKey req) = o) (hne : o' ≠ o) :
    ¬ SameTable m (Wasm.setModule m (lifecycleKey req) o') := by
  intro hsame
  have hkey : (Wasm.setModule m (lifecycleKey req) o').modules (lifecycleKey req) = m.modules (lifecycleKey req) := by
    rw [hsame.1]
  simp only [Wasm.setModule, Function.update_self] at hkey
  exact hne (hkey.trans h)

/-- A call that commits changes the table and grants what was asked for. -/
theorem commits_grants (hc : Commits m req) :
    ∃ m' resp, Wasm.handleLifecycle m req = (m', .returned resp) ∧ ¬ SameTable m m' ∧ Grants m req resp := by
  have hout := @Wasm.handleLifecycle_outcome m req
  generalize hcall : Wasm.handleLifecycle m req = call at hout
  obtain ⟨m', reply⟩ := call
  dsimp only at hout
  cases hout with
  | throws hkept => exact absurd hc hkept
  | escapes hkept => exact absurd hc hkept
  | keeps hkept => exact absurd hc hkept
  | creates _ ha hgpu =>
    refine ⟨_, _, rfl, ?_, rfl, ⟨rfl, rfl, rfl, rfl⟩, ?_, rfl⟩
    · intro hsame
      have hnext : m.nextLeaseId + 1 = m.nextLeaseId := hsame.2
      simp at hnext
    · rw [leaseLength, if_pos ha]
      exact length_newLease
  | @drains record _ ha hrec hne =>
    refine ⟨_, _, rfl, not_same_of_record hrec ?_, rfl, ⟨rfl, rfl, rfl, rfl⟩, ?_, rfl⟩
    · intro h
      exact hne (Option.some.inj h)
    · rw [leaseLength_record (by rw [ha]; decide) hrec]
      rfl
  | @releases record _ ha hrec =>
    refine ⟨_, _, rfl, not_same_of_record hrec (by simp), rfl, ⟨rfl, rfl, rfl, rfl⟩, ?_, rfl⟩
    rw [leaseLength_record (by rw [ha]; decide) hrec]
    rfl

theorem keeps_table (hk : ¬ Commits m req) : SameTable m (Wasm.handleLifecycle m req).1 := by
  have hout := @Wasm.handleLifecycle_outcome m req
  generalize Wasm.handleLifecycle m req = call at hout ⊢
  obtain ⟨m', reply⟩ := call
  dsimp only at hout ⊢
  cases hout with
  | throws => exact ⟨rfl, rfl⟩
  | escapes => exact ⟨rfl, rfl⟩
  | keeps => exact ⟨rfl, rfl⟩
  | creates hc => exact absurd hc hk
  | drains hc => exact absurd hc hk
  | releases hc => exact absurd hc hk

/-- The strings of a decoded request fit, so only the token and the frame are left to ask
    for. -/
theorem grants_fits (hreq : Wasm.LifecycleRequestFits limits req) (hg : Grants m req resp) :
    Wasm.LifecycleResponseFits limits resp ↔ LeaseFits limits m req := by
  obtain ⟨hid, hsandbox, hmodule, hversion⟩ := hg.names
  have hlen := Wasm.length_lifecycleResponseBytes resp
  rw [hid, hsandbox, hmodule, hversion, hg.lease, hg.error, List.length_nil] at hlen
  have herror : Wasm.StringFits limits resp.error := by
    rw [hg.error]
    exact ⟨Nat.zero_le _, by decide⟩
  refine ⟨?_, ?_⟩
  · intro h
    have hlease := h.leaseToken
    have hframe := h.frame
    rw [Wasm.StringFits, hg.lease] at hlease
    exact ⟨hlease, by omega⟩
  · intro h
    exact
      { requestId := by rw [hid]; exact hreq.requestId
        sandboxId := by rw [hsandbox]; exact hreq.sandboxId
        moduleId := by rw [hmodule]; exact hreq.moduleId
        moduleVersion := by rw [hversion]; exact hreq.moduleVersion
        leaseToken := by rw [Wasm.StringFits, hg.lease]; exact h.1
        error := herror
        frame := by have := h.2; omega }

end

/-- A request answered with Rejected or Error left the table and the counter alone, exactly
    when the reply of whatever the request commits has room for the lease token. -/
theorem lifecycle_atomic_iff (svc : BrokerService) (m : Manager) (request : BrokerRequest) :
    (∀ m' r, handleWasmLifecycleRequest svc m request = (m', .returned r) → r.status = .rejected ∨ r.status = .error →
      SameTable m m') ↔
    ∀ req, Wasm.decodeWasmLifecycleRequest request.payload (wasmLimits svc.config.protocolLimits) = .ok req →
      Commits m (forKind request.kind req) →
      LeaseFits (wasmLimits svc.config.protocolLimits) m (forKind request.kind req) := by
  have hfits : ∀ {req}, Wasm.decodeWasmLifecycleRequest request.payload (wasmLimits svc.config.protocolLimits) = .ok req →
      Wasm.LifecycleRequestFits (wasmLimits svc.config.protocolLimits) (forKind request.kind req) := by
    intro req hdec
    obtain ⟨h, -, -⟩ := Wasm.decodeWasmLifecycleRequest_ok.mp hdec
    exact ⟨h.requestId, h.sandboxId, h.moduleId, h.moduleVersion, h.ackToken, h.payload, h.named⟩
  refine ⟨?_, ?_⟩
  · intro h req hdec hc
    obtain ⟨m₁, resp, hcall, hchanged, hgrants⟩ := commits_grants hc
    rw [← grants_fits (hfits hdec) hgrants]
    cases henc : Wasm.encodeWasmLifecycleResponse resp (wasmLimits svc.config.protocolLimits) with
    | ok encoded => exact (Wasm.encodeWasmLifecycleResponse_ok.mp henc).1
    | error e => exact absurd (h m₁ _ (lifecycle_unencoded hdec hcall henc) (Or.inr rfl)) hchanged
  · intro h m' r hr hstatus
    have hanswer := lifecycle_answer svc m request
    rw [hr] at hanswer
    cases hanswer with
    | undecoded => exact ⟨rfl, rfl⟩
    | @unencoded req _ resp e hdec hcall henc =>
      by_cases hc : Commits m (forKind request.kind req)
      · obtain ⟨_, _, hcall', -, hgrants⟩ := commits_grants hc
        rw [hcall] at hcall'
        cases hcall'
        have hok := Wasm.encodeWasmLifecycleResponse_ok.mpr
          ⟨(grants_fits (hfits hdec) hgrants).mpr (h req hdec hc), rfl⟩
        rw [henc] at hok
        cases hok
      · have hkept := keeps_table hc
        rwa [hcall] at hkept
    | @answered req _ resp encoded hdec hcall henc =>
      by_cases hc : Commits m (forKind request.kind req)
      · obtain ⟨_, _, hcall', -, hgrants⟩ := commits_grants hc
        rw [hcall] at hcall'
        cases hcall'
        dsimp only at hstatus
        rw [hgrants.status] at hstatus
        exact absurd hstatus (by decide)
      · have hkept := keeps_table hc
        rwa [hcall] at hkept

/-! ## A Prepare whose token is too long -/

def longName : Bytes := List.replicate 400 97

/-- Each of the three names is within the string limit of 1024. -/
def longPrepare : WasmLifecycleRequest :=
  { requestId := ascii "r", sandboxId := longName, moduleId := longName, moduleVersion := longName }

def prepareRequest (req : WasmLifecycleRequest) : BrokerRequest :=
  { taskId := ascii "t", source := ascii "s", destination := ascii "d", kind := Wasm.kWasmLifecycleKind
    timeoutMs := 1000, payload := Wasm.lifecycleRequestBytes req }

/-- The answer is Error, the record is there and the counter has moved on. -/
theorem a_failed_prepare_leaves_its_record :
    ((handleWasmLifecycleRequest {} { forceCpu := true } (prepareRequest longPrepare)).2.map (·.status)) = .returned .error ∧
      ((handleWasmLifecycleRequest {} { forceCpu := true } (prepareRequest longPrepare)).1.modules
        (lifecycleKey longPrepare)).isSome = true ∧
      (handleWasmLifecycleRequest {} { forceCpu := true } (prepareRequest longPrepare)).1.nextLeaseId = 2 := by
  decide +kernel

end Overhauled.Broker
