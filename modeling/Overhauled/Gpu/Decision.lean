/-
  Overhauled.Gpu.Decision — which GPU `Placer::place` picks for a client with a home, on
  every topology the program can build (`src/nvlink_placement.cpp`,
  `include/nvlink_placement.h`).

  `detect` asks CUDA about every ordered pair of GPUs; the answers are parameters
  (`CudaAnswers`). Whatever they are, an NVLink is given a hint of 90 or 100 and every
  other link 10 (`built_hints`), so that the peer of the highest hint is an NVLink peer as
  soon as there is one (`bestPeer_nvlink`): `best_peer` then answers what
  `best_nvlink_peer` does (`bestPeer_eq_bestNvlinkPeer`), and only a home without NVLink
  is given a PCIe peer.

  What the two loops find is said by `scan_cases`: the linked peer of the highest hint
  (`bestPeer_iff`) and the shortest queue (`least_steady`), the first of each.
  `place_decides` puts the three tiers together, for depths that do not change during the
  call.
-/

import Overhauled.Gpu.Placer

namespace Overhauled.Gpu

open Machine

/-! ## Topologies the program builds -/

/-- What the CUDA queries answer; `none` is an error. The query for native atomics is not
    checked for errors: its answer is whatever the variable holds afterwards. -/
structure CudaAnswers where
  deviceCount : Option Int32
  canAccessPeer : Nat → Nat → Option Int32
  performanceRank : Nat → Nat → Option Int32
  nativeAtomics : Nat → Nat → Int32

def getGpuCount (cuda : CudaAnswers) : Int32 := cuda.deviceCount.getD 0

/-- The link and the bandwidth hint `detect` enters for the pair `i`, `j`. -/
def detectLink (cuda : CudaAnswers) (i j : Nat) : LinkType × Int :=
  if i = j then (.self, 1000)
  else
    match cuda.canAccessPeer i j with
    | none => (.none, 0)
    | some canAccess =>
      if canAccess = 0 then (.none, 0)
      else
        match cuda.performanceRank i j with
        | none => (.pcie, 10)
        | some perfRank =>
          if perfRank = 0 ∧ cuda.nativeAtomics i j ≠ 0 then (.nvlink, 100)
          else if perfRank = 0 then (.nvlink, 90)
          else (.pcie, 10)

/-- Answers nothing when it throws. -/
def GpuTopology.detect (cuda : CudaAnswers) : Option GpuTopology :=
  if h : 0 < (getGpuCount cuda).toInt then
    some
      { numGpus := (getGpuCount cuda).toInt.toNat
        linkKind := fun i j => (detectLink cuda i j).1
        linkBandwidth := fun i j => (detectLink cuda i j).2
        counted := ⟨Int.pos_iff_toNat_pos.mp h, (Int.toNat_lt h.le).mpr (getGpuCount cuda).toInt_lt⟩ }
  else none

inductive Built (topo : GpuTopology) : Prop
  | synthetic (numGpus : Int32) (h : GpuTopology.synthetic numGpus = some topo)
  | detected (cuda : CudaAnswers) (h : GpuTopology.detect cuda = some topo)

/-- What the hint says about the link. -/
inductive Hinted : LinkType → Int → Prop
  | nvlink {hint : Int} (h : 90 ≤ hint) : Hinted .nvlink hint
  | pcie : Hinted .pcie 10
  | none : Hinted .none 0

theorem detectLink_hinted (cuda : CudaAnswers) {i j : Nat} (hij : i ≠ j) :
    Hinted (detectLink cuda i j).1 (detectLink cuda i j).2 := by
  unfold detectLink
  rw [if_neg hij]
  split
  · exact .none
  split
  · exact .none
  split
  · exact .pcie
  split
  · exact .nvlink (by decide)
  split
  · exact .nvlink (by decide)
  · exact .pcie

theorem built_hints {topo : GpuTopology} (hbuilt : Built topo) {i j : Nat} (hij : i ≠ j) :
    Hinted (topo.linkKind i j) (topo.linkBandwidth i j) := by
  cases hbuilt with
  | synthetic n h =>
    unfold GpuTopology.synthetic at h
    split at h
    · cases h
      simp only [if_neg hij]
      exact .pcie
    · cases h
  | detected cuda h =>
    unfold GpuTopology.detect at h
    split at h
    · cases h
      exact detectLink_hinted cuda hij
    · cases h

/-! ## The best linked peer -/

def NvLinked (topo : GpuTopology) (gpu j : Nat) : Prop := j ≠ gpu ∧ topo.linkKind gpu j = .nvlink

instance (topo : GpuTopology) (gpu : Nat) : DecidablePred (NvLinked topo gpu) :=
  fun j => inferInstanceAs (Decidable (j ≠ gpu ∧ topo.linkKind gpu j = .nvlink))

theorem NvLinked.linked {topo : GpuTopology} {gpu j : Nat} (h : NvLinked topo gpu j) : Linked topo gpu j :=
  ⟨h.1, by rw [h.2]; decide⟩

/-- The linked peer of the highest hint, and the first of these. -/
abbrev BestPeer (topo : GpuTopology) (gpu : Nat) : Nat → Prop :=
  FirstBest (Linked topo gpu) (topo.linkBandwidth gpu) topo.numGpus

/-- One turn of `best_nvlink_peer`'s loop. -/
def betterNvlinkPeer (topo : GpuTopology) (gpu : Nat) (best : Option Nat × Int) (j : Nat) : Option Nat × Int :=
  if j = gpu then best
  else if topo.linkKind gpu j ≠ .nvlink then best
  else if topo.linkBandwidth gpu j > best.2 then (some j, topo.linkBandwidth gpu j)
  else best

def bestNvlinkPeer (topo : GpuTopology) (gpu : Nat) : Option Nat :=
  if gpu ≥ topo.numGpus then none
  else ((List.range topo.numGpus).foldl (betterNvlinkPeer topo gpu) (none, -1)).1

theorem betterNvlinkPeer_eq_improve (topo : GpuTopology) (gpu : Nat) :
    betterNvlinkPeer topo gpu = improve some (NvLinked topo gpu) (topo.linkBandwidth gpu) := by
  funext best j
  unfold betterNvlinkPeer improve NvLinked
  grind

section
variable {topo : GpuTopology} {gpu : Nat}

theorem hint_nonneg (hbuilt : Built topo) {j : Nat} (h : j ≠ gpu) : 0 ≤ topo.linkBandwidth gpu j := by
  have hhint := built_hints hbuilt h.symm
  generalize topo.linkKind gpu j = kind at hhint
  generalize topo.linkBandwidth gpu j = hint at hhint ⊢
  cases hhint <;> omega

section
variable (hbuilt : Built topo) {cand : Nat → Prop} [DecidablePred cand] (hother : ∀ j, cand j → j ≠ gpu)
include hbuilt hother

/-- Both loops for a peer start below every hint, so they find one whenever there is one. -/
theorem peer_scan_none (h : (scan some cand (topo.linkBandwidth gpu) (none, -1) topo.numGpus).1 = none) :
    ∀ j < topo.numGpus, ¬ cand j := by
  intro j hj hc
  rcases scan_cases some cand (topo.linkBandwidth gpu) (none, -1) topo.numGpus with ⟨-, hle⟩ | ⟨b, hscan, -⟩
  · have hlow : topo.linkBandwidth gpu j ≤ -1 := hle j hj hc
    have hnonneg := hint_nonneg hbuilt (hother j hc)
    omega
  · rw [hscan] at h
    cases h

theorem peer_scan_iff (p : Nat) :
    (scan some cand (topo.linkBandwidth gpu) (none, -1) topo.numGpus).1 = some p ↔
      FirstBest cand (topo.linkBandwidth gpu) topo.numGpus p := by
  rcases scan_cases some cand (topo.linkBandwidth gpu) (none, -1) topo.numGpus with ⟨hscan, -⟩ | ⟨b, hscan, -, hbest⟩
  · have hnone := peer_scan_none hbuilt hother (congrArg Prod.fst hscan)
    rw [hscan]
    constructor
    · intro h
      cases h
    · exact fun h => absurd h.candidate (hnone p h.lt)
  · rw [hscan]
    constructor
    · intro h
      cases h
      exact hbest
    · exact fun h => congrArg some (hbest.unique h)

end

theorem bestPeer_iff (hbuilt : Built topo) (hgpu : gpu < topo.numGpus) (p : Nat) :
    bestPeer topo gpu = some p ↔ BestPeer topo gpu p := by
  unfold bestPeer
  rw [if_neg (Nat.not_le.mpr hgpu), betterPeer_eq_improve]
  exact peer_scan_iff hbuilt (fun _ h => h.1) p

theorem bestPeer_none (hbuilt : Built topo) (hgpu : gpu < topo.numGpus) (h : bestPeer topo gpu = none) :
    ∀ j < topo.numGpus, ¬ Linked topo gpu j := by
  unfold bestPeer at h
  rw [if_neg (Nat.not_le.mpr hgpu), betterPeer_eq_improve] at h
  exact peer_scan_none hbuilt (fun _ h => h.1) h

theorem bestNvlinkPeer_iff (hbuilt : Built topo) (hgpu : gpu < topo.numGpus) (p : Nat) :
    bestNvlinkPeer topo gpu = some p ↔ FirstBest (NvLinked topo gpu) (topo.linkBandwidth gpu) topo.numGpus p := by
  unfold bestNvlinkPeer
  rw [if_neg (Nat.not_le.mpr hgpu), betterNvlinkPeer_eq_improve]
  exact peer_scan_iff hbuilt (fun _ h => h.1) p

theorem bestPeer_exists (hbuilt : Built topo) (hgpu : gpu < topo.numGpus) (h : ∃ j < topo.numGpus, Linked topo gpu j) :
    ∃ p, BestPeer topo gpu p := by
  obtain ⟨j, hj, hlinked⟩ := h
  cases hpeer : bestPeer topo gpu with
  | none => exact absurd hlinked (bestPeer_none hbuilt hgpu hpeer j hj)
  | some p => exact ⟨p, (bestPeer_iff hbuilt hgpu p).mp hpeer⟩

/-- A hint of 90 or more is given to an NVLink only. -/
theorem nvLinked_of_hint (hbuilt : Built topo) {j : Nat} (hother : j ≠ gpu) (hhint : 90 ≤ topo.linkBandwidth gpu j) :
    NvLinked topo gpu j := by
  refine ⟨hother, ?_⟩
  have h := built_hints hbuilt hother.symm
  generalize topo.linkKind gpu j = kind at h
  generalize topo.linkBandwidth gpu j = hint at h hhint
  cases h with
  | nvlink => rfl
  | pcie => omega
  | none => omega

theorem hint_of_nvLinked (hbuilt : Built topo) {j : Nat} (h : NvLinked topo gpu j) : 90 ≤ topo.linkBandwidth gpu j := by
  have hhint := built_hints hbuilt h.1.symm
  rw [h.2] at hhint
  generalize topo.linkBandwidth gpu j = hint at hhint ⊢
  cases hhint
  assumption

theorem bestPeer_nvlink (hbuilt : Built topo) {p : Nat} (hp : BestPeer topo gpu p)
    (h : ∃ j < topo.numGpus, NvLinked topo gpu j) : NvLinked topo gpu p := by
  obtain ⟨j, hj, hnv⟩ := h
  exact nvLinked_of_hint hbuilt hp.candidate.1 ((hint_of_nvLinked hbuilt hnv).trans (hp.highest j hj hnv.linked))

/-- The peer the second tier is documented to use is the one it uses, when there is one. -/
theorem bestPeer_eq_bestNvlinkPeer (hbuilt : Built topo) (hgpu : gpu < topo.numGpus) {p : Nat}
    (h : bestNvlinkPeer topo gpu = some p) : bestPeer topo gpu = some p := by
  have hnv := (bestNvlinkPeer_iff hbuilt hgpu p).mp h
  have hhint := hint_of_nvLinked hbuilt hnv.candidate
  rw [bestPeer_iff hbuilt hgpu]
  refine ⟨hnv.lt, hnv.candidate.linked, ?_, ?_⟩
  · intro j hj hlinked
    -- a link of a lower kind has a hint below 90
    by_cases hj90 : 90 ≤ topo.linkBandwidth gpu j
    · exact hnv.highest j hj (nvLinked_of_hint hbuilt hlinked.1 hj90)
    · omega
  · intro j hj hlinked
    by_cases hj90 : 90 ≤ topo.linkBandwidth gpu j
    · exact hnv.first j hj (nvLinked_of_hint hbuilt hlinked.1 hj90)
    · omega

end

/-! ## The shortest queue -/

/-- `g` has a shortest queue: the home if it has one, and else the first GPU that has. -/
structure LeastLoaded (topo : GpuTopology) (depth : Nat → Nat) (home g : Nat) : Prop where
  least : ∀ i < topo.numGpus, depth g ≤ depth i
  stays : (∀ i < topo.numGpus, depth home ≤ depth i) → g = home
  lowest : ¬ (∀ i < topo.numGpus, depth home ≤ depth i) → ∀ i < g, depth g < depth i

/-- A call that meets a client with a home and depths that do not change. -/
def steady (home : Nat) (rrCounter : UInt64) (depth : Nat → Nat) : Placing :=
  { affinity := some (home : Int), rrCounter := rrCounter, depth := fun _ => depth }

section
variable (topo : GpuTopology) (home : Nat) (rrCounter : UInt64) (depth : Nat → Nat)

theorem homeOf_steady (hhome : home < topo.numGpus) : homeOf topo (steady home rrCounter depth) = home := by
  unfold homeOf steady
  simp only [Option.getD_some]
  rw [if_neg (by omega), Int.toNat_natCast]

theorem least_steady :
    LeastLoaded topo depth home
      ((List.range topo.numGpus).foldl (lessLoaded (steady home rrCounter depth)) (home, depth home)).1 := by
  rw [least_eq_scan]
  dsimp only [steady]
  rcases scan_cases id (fun _ => True) (fun i => OrderDual.toDual (depth i)) (home, OrderDual.toDual (depth home))
    topo.numGpus with ⟨hscan, hle⟩ | ⟨b, hscan, hlt, hbest⟩
  · -- nothing is shorter than the home's queue
    have hmin : ∀ i < topo.numGpus, depth home ≤ depth i := fun i hi => hle i hi trivial
    rw [hscan]
    exact ⟨hmin, fun _ => rfl, fun hnot => absurd hmin hnot⟩
  · have hshorter : depth b < depth home := hlt
    rw [hscan]
    refine ⟨fun i hi => hbest.highest i hi trivial, fun hmin => ?_, fun _ i hi => hbest.first i hi trivial⟩
    exact absurd (hmin b hbest.lt) (Nat.not_le.mpr hshorter)

end

/-! ## The three tiers -/

/-- What the placement of a client with home `home` comes to. -/
structure Decision (topo : GpuTopology) (backlogThreshold : Nat) (depth : Nat → Nat) (home g : Nat) : Prop where
  inRange : g < topo.numGpus
  atHome : depth home < backlogThreshold → g = home
  atPeer : backlogThreshold ≤ depth home → ∀ p, BestPeer topo home p → depth p < backlogThreshold → g = p
  elsewhere : backlogThreshold ≤ depth home → (∀ p, BestPeer topo home p → backlogThreshold ≤ depth p) →
    LeastLoaded topo depth home g
  peerExists : (∃ j < topo.numGpus, Linked topo home j) → ∃ p, BestPeer topo home p
  peerNvlink : ∀ p, BestPeer topo home p → (∃ j < topo.numGpus, NvLinked topo home j) → NvLinked topo home p
  below : (∃ i < topo.numGpus, depth i < backlogThreshold) → depth g < backlogThreshold

/-- What `place` is for such a call. -/
theorem place_steady (topo : GpuTopology) (backlogThreshold home : Nat) (rrCounter : UInt64) (depth : Nat → Nat)
    (hhome : home < topo.numGpus) :
    place topo backlogThreshold (steady home rrCounter depth) =
      if depth home < backlogThreshold then home
      else
        match bestPeer topo home with
        | some peer =>
          if depth peer < backlogThreshold then peer
          else ((List.range topo.numGpus).foldl (lessLoaded (steady home rrCounter depth)) (home, depth home)).1
        | none => ((List.range topo.numGpus).foldl (lessLoaded (steady home rrCounter depth)) (home, depth home)).1 := by
  unfold place
  rw [homeOf_steady topo home rrCounter depth hhome]
  rfl

theorem place_decides (topo : GpuTopology) (hbuilt : Built topo) (backlogThreshold home : Nat)
    (hhome : home < topo.numGpus) (rrCounter : UInt64) (depth : Nat → Nat) :
    Decision topo backlogThreshold depth home (place topo backlogThreshold (steady home rrCounter depth)) := by
  have hin := place_lt topo backlogThreshold (steady home rrCounter depth)
  have hleast := least_steady topo home rrCounter depth
  have hexists := bestPeer_exists hbuilt hhome
  have hnvlink := fun p (hp : BestPeer topo home p) => bestPeer_nvlink hbuilt hp
  rw [place_steady topo backlogThreshold home rrCounter depth hhome] at hin ⊢
  generalize ((List.range topo.numGpus).foldl (lessLoaded (steady home rrCounter depth)) (home, depth home)).1 = least
    at hin hleast ⊢
  by_cases hdepth : depth home < backlogThreshold
  · rw [if_pos hdepth]
    exact ⟨hhome, fun _ => rfl, fun h => absurd hdepth (Nat.not_lt.mpr h), fun h => absurd hdepth (Nat.not_lt.mpr h),
      hexists, hnvlink, fun _ => hdepth⟩
  rw [if_neg hdepth] at hin ⊢
  cases hpeer : bestPeer topo home with
  | none =>
    -- no linked peer, and so no best one
    have hnone : ∀ p, ¬ BestPeer topo home p := fun p hp => bestPeer_none hbuilt hhome hpeer p hp.lt hp.candidate
    rw [hpeer] at hin
    refine ⟨hin, fun h => absurd h hdepth, fun _ p hp => absurd hp (hnone p), fun _ _ => hleast, hexists, hnvlink, ?_⟩
    rintro ⟨i, hi, hlow⟩
    exact (hleast.least i hi).trans_lt hlow
  | some peer =>
    have hbest := (bestPeer_iff hbuilt hhome peer).mp hpeer
    rw [hpeer] at hin
    dsimp only at hin ⊢
    split at hin <;> rename_i hlow
    · rw [if_pos hlow]
      refine ⟨hin, fun h => absurd h hdepth, fun _ p hp _ => hbest.unique hp, fun _ hbusy => ?_, hexists, hnvlink,
        fun _ => hlow⟩
      exact absurd hlow (Nat.not_lt.mpr (hbusy peer hbest))
    · rw [if_neg hlow]
      refine ⟨hin, fun h => absurd h hdepth, fun _ p hp hp' => ?_, fun _ _ => hleast, hexists, hnvlink, ?_⟩
      · exact absurd (hbest.unique hp ▸ hp') hlow
      · rintro ⟨i, hi, hi'⟩
        exact (hleast.least i hi).trans_lt hi'

/-- Four GPUs, of which 0 and 2 are joined by NVLink and 3 is out of reach of 0. -/
def fourGpus : CudaAnswers where
  deviceCount := some 4
  canAccessPeer i j := if i = 0 ∧ j = 3 then some 0 else some 1
  performanceRank i j := if i + j = 2 ∧ i ≠ j then some 0 else some 1
  nativeAtomics _ _ := 0

def fourGpusTopology : GpuTopology where
  numGpus := 4
  linkKind i j := (detectLink fourGpus i j).1
  linkBandwidth i j := (detectLink fourGpus i j).2
  counted := by decide

theorem fourGpusTopology_built : Built fourGpusTopology := .detected fourGpus rfl

/-- A backed-up home gives way to its NVLink peer, although GPUs 1 and 3 have shorter queues. -/
theorem place_decides_fourGpus :
    place fourGpusTopology 2 (steady 0 0 fun g => [5, 0, 1, 0].getD g 0) = 2 ∧
      Decision fourGpusTopology 2 (fun g => [5, 0, 1, 0].getD g 0) 0
        (place fourGpusTopology 2 (steady 0 0 fun g => [5, 0, 1, 0].getD g 0)) :=
  ⟨by decide, place_decides fourGpusTopology fourGpusTopology_built 2 0 (by decide) 0 fun g => [5, 0, 1, 0].getD g 0⟩

end Overhauled.Gpu
