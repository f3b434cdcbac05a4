/-
  Overhauled.Gpu.Placer — GPU topology and placement (`include/nvlink_placement.h`,
  `src/nvlink_placement.cpp`): which GPU a client's next task goes to.

  `place` prefers the client's home, then the home's best linked peer, then the GPU with
  the shortest queue. It reads the queue depths through a callback that locks for each
  reading, so the depths may change in between: `Placing.depth k g` is what the `k`-th
  reading of a call answers for GPU `g`. Both loops are scans of `Machine.Scan`, for the
  peer with the highest hint and for the queue with the lowest depth
  (`betterPeer_eq_improve`, `least_eq_scan`). Whatever the depths are, the answer is a GPU
  of the topology (`place_lt`).
-/

import Mathlib
import Overhauled.Machine.Scan

namespace Overhauled.Gpu

open Machine

inductive LinkType where
  | self
  | nvlink
  | pcie
  | none
  deriving DecidableEq, Repr

/-- Built by `detect` and `synthetic` only, which throw when there is no GPU; the count is
    an `int`. -/
structure GpuTopology where
  numGpus : Nat
  linkKind : Nat → Nat → LinkType
  linkBandwidth : Nat → Nat → Int
  counted : 0 < numGpus ∧ numGpus < 2 ^ 31

/-- Answers nothing when it throws. -/
def GpuTopology.synthetic (numGpus : Int32) : Option GpuTopology :=
  if h : 0 < numGpus.toInt then
    some
      { numGpus := numGpus.toInt.toNat
        linkKind := fun i j => if i = j then .self else .pcie
        linkBandwidth := fun i j => if i = j then 1000 else 10
        counted := by have := numGpus.toInt_lt; omega }
  else none

/-- One turn of `best_peer`'s loop, on the best peer so far and its score. -/
def betterPeer (topo : GpuTopology) (gpu : Nat) (best : Option Nat × Int) (j : Nat) : Option Nat × Int :=
  if j = gpu then best
  else if topo.linkKind gpu j = .none then best
  else if topo.linkBandwidth gpu j > best.2 then (some j, topo.linkBandwidth gpu j)
  else best

/-- `none` is the -1 of the source. -/
def bestPeer (topo : GpuTopology) (gpu : Nat) : Option Nat :=
  if gpu ≥ topo.numGpus then none
  else ((List.range topo.numGpus).foldl (betterPeer topo gpu) (none, -1)).1

/-- What a call of `place` meets: the client's entry in the affinity map, the round-robin
    counter, and the readings of the queue depths. -/
structure Placing where
  affinity : Option Int := none
  rrCounter : UInt64 := 0
  depth : Nat → Nat → Nat := fun _ _ => 0

/-- The client's home, or the next GPU in turn when the client has none. -/
def homeOf (topo : GpuTopology) (p : Placing) : Nat :=
  let home := p.affinity.getD (-1)
  if home < 0 ∨ home ≥ topo.numGpus then p.rrCounter.toNat % topo.numGpus else home.toNat

/-- One turn of the last loop of `place`, on the best GPU so far and its depth. -/
def lessLoaded (p : Placing) (best : Nat × Nat) (i : Nat) : Nat × Nat :=
  let d := p.depth (2 + i) i
  if d < best.2 then (i, d) else best

def place (topo : GpuTopology) (backlogThreshold : Nat) (p : Placing) : Nat :=
  let home := homeOf topo p
  let homeDepth := p.depth 0 home
  let least := ((List.range topo.numGpus).foldl (lessLoaded p) (home, homeDepth)).1
  if homeDepth < backlogThreshold then home
  else
    match bestPeer topo home with
    | some peer => if p.depth 1 peer < backlogThreshold then peer else least
    | none => least

/-! ## The two loops -/

/-- `j` is another GPU that `gpu` reaches directly. -/
def Linked (topo : GpuTopology) (gpu j : Nat) : Prop := j ≠ gpu ∧ topo.linkKind gpu j ≠ .none

instance (topo : GpuTopology) (gpu : Nat) : DecidablePred (Linked topo gpu) :=
  fun j => inferInstanceAs (Decidable (j ≠ gpu ∧ topo.linkKind gpu j ≠ .none))

theorem betterPeer_eq_improve (topo : GpuTopology) (gpu : Nat) :
    betterPeer topo gpu = improve some (Linked topo gpu) (topo.linkBandwidth gpu) := by
  funext best j
  unfold betterPeer improve Linked
  grind

/-- All GPUs are candidates, and a shorter queue scores higher. -/
theorem least_eq_scan (topo : GpuTopology) (p : Placing) (home depth : Nat) :
    ((List.range topo.numGpus).foldl (lessLoaded p) (home, depth)).1 =
      (scan id (fun _ => True) (fun i => OrderDual.toDual (p.depth (2 + i) i)) (home, OrderDual.toDual depth)
        topo.numGpus).1 := by
  -- turn by turn, on the same GPU and the same depth
  have hturn : ∀ best i, improve id (fun _ => True) (fun i => OrderDual.toDual (p.depth (2 + i) i))
      (Prod.map id OrderDual.toDual best) i = Prod.map id OrderDual.toDual (lessLoaded p best i) := by
    intro best i
    unfold improve lessLoaded
    simp only [true_and, Prod.map_snd, OrderDual.toDual_lt_toDual]
    by_cases hshorter : p.depth (2 + i) i < best.2
    · rw [if_pos hshorter, if_pos hshorter]
      rfl
    · rw [if_neg hshorter, if_neg hshorter]
  exact (congrArg Prod.fst (List.foldl_hom (Prod.map id OrderDual.toDual) hturn)).symm

/-! ## The answer is a GPU -/

section
variable (topo : GpuTopology)

theorem homeOf_lt (p : Placing) : homeOf topo p < topo.numGpus := by
  unfold homeOf
  dsimp only
  split
  · exact Nat.mod_lt _ topo.counted.1
  · omega

theorem bestPeer_lt {gpu peer : Nat} (h : bestPeer topo gpu = some peer) : peer < topo.numGpus := by
  unfold bestPeer at h
  split at h
  · cases h
  rw [betterPeer_eq_improve] at h
  change (scan _ _ _ _ _).1 = some peer at h
  rcases scan_cases some (Linked topo gpu) (topo.linkBandwidth gpu) (none, -1) topo.numGpus with
    ⟨hscan, -⟩ | ⟨b, hscan, -, hbest⟩ <;> rw [hscan] at h <;> cases h
  exact hbest.lt

theorem least_lt (p : Placing) {home depth : Nat} (h : home < topo.numGpus) :
    ((List.range topo.numGpus).foldl (lessLoaded p) (home, depth)).1 < topo.numGpus := by
  rw [least_eq_scan]
  rcases scan_cases id (fun _ => True) (fun i => OrderDual.toDual (p.depth (2 + i) i)) (home, OrderDual.toDual depth)
    topo.numGpus with ⟨hscan, -⟩ | ⟨b, hscan, -, hbest⟩ <;> rw [hscan]
  · exact h
  · exact hbest.lt

/-- Whatever the placer's state and however the depths change while it reads them. -/
theorem place_lt (backlogThreshold : Nat) (p : Placing) : place topo backlogThreshold p < topo.numGpus := by
  have hhome := homeOf_lt topo p
  unfold place
  dsimp only
  split
  · exact hhome
  split
  · rename_i peer hpeer
    split
    · exact bestPeer_lt topo hpeer
    · exact least_lt topo p hhome
  · exact least_lt topo p hhome

end

/-- The index as the `int` it is in the source. -/
theorem ofNat_gpu_nonneg {topo : GpuTopology} {g : Nat} (h : g < topo.numGpus) : 0 ≤ Int32.ofNat g := by
  have hbound := topo.counted.2
  rw [Int32.le_iff_toInt_le, Int32.toInt_ofNat_of_lt (by omega)]
  exact Int.natCast_nonneg g

end Overhauled.Gpu
