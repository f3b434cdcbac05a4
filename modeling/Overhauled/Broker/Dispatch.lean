/-
  Overhauled.Broker.Dispatch — which kind of backend executes a task
  (`include/backend_dispatch.h`). This layer runs before the placer: the placer only
  chooses which GPU once the GPU backend has been selected. A task without a profile
  is a plain CPU task unless the operator made the GPU the default.
-/

import Overhauled.Wire.Bytes

namespace Overhauled.Broker

open Wire

inductive BackendKind where
  | cpu
  | gpu
  | npu
  deriving DecidableEq, Repr

def backendName : BackendKind → Bytes
  | .cpu => ascii "cpu"
  | .gpu => ascii "gpu"
  | .npu => ascii "npu"

structure TaskProfile where
  requiresExactPrecision : Bool := false
  verificationSensitive : Bool := false
  cryptographic : Bool := false
  acceleratorVerified : Bool := false
  isInference : Bool := false
  isDataParallel : Bool := false
  estimatedBytes : Nat := 0
  estimatedFlops : Nat := 0
  fallbackSafe : Bool := false
  deriving DecidableEq, Repr

structure BackendPolicy where
  defaultBackend : BackendKind := .cpu
  gpuOffloadThresholdBytes : Nat := 1024 * 1024
  /-- 0 disables the flops criterion. -/
  gpuOffloadThresholdFlops : Nat := 0
  forceCpu : Bool := false
  gpuAvailable : Bool := false
  npuAvailable : Bool := false
  deriving DecidableEq, Repr

def profileRequiresCpu (p : TaskProfile) : Bool :=
  (p.requiresExactPrecision || p.verificationSensitive || p.cryptographic) && !p.acceleratorVerified

def selectBackend (policy : BackendPolicy) : Option TaskProfile → BackendKind
  | none =>
    if policy.forceCpu then .cpu
    else if policy.defaultBackend = .gpu ∧ policy.gpuAvailable then .gpu else .cpu
  | some profile =>
    if policy.forceCpu then .cpu
    else if profileRequiresCpu profile then .cpu
    else if profile.isInference ∧ policy.npuAvailable then .npu
    else if profile.isDataParallel ∧ policy.gpuAvailable then
      let bigEnough := decide (profile.estimatedBytes ≥ policy.gpuOffloadThresholdBytes) ||
        (decide (policy.gpuOffloadThresholdFlops > 0) &&
          decide (profile.estimatedFlops ≥ policy.gpuOffloadThresholdFlops))
      if bigEnough then .gpu else .cpu
    else .cpu

/-- With neither accelerator available every task runs on the CPU. -/
theorem selectBackend_cpu {policy : BackendPolicy} (hg : policy.gpuAvailable = false)
    (hn : policy.npuAvailable = false) (profile : Option TaskProfile) : selectBackend policy profile = .cpu := by
  cases profile with
  | none => simp [selectBackend, hg]
  | some p => simp [selectBackend, hg, hn]

theorem selectBackend_forced {policy : BackendPolicy} (h : policy.forceCpu = true) (profile : Option TaskProfile) :
    selectBackend policy profile = .cpu := by
  cases profile <;> simp [selectBackend, h]

end Overhauled.Broker
