/-
  Overhauled.Npu.Bundle — the YU85BND1 model bundle of the Ethos-U85 executor
  (`load_bundle` in `src/ethosu_u85_drm_executor.cpp`, `docs/ETHOSU_U85_BUNDLE.md`): a
  magic, fourteen little-endian words, a command stream, and the memory regions, each
  behind its length.

  The counts and lengths are checked as they are read, the two tensor ranges when all
  regions are known. What is accepted is exactly the layout (`bundleBytes`) of a bundle
  that meets the documented bounds (`WellFormed`): `loadBundle_ok`. Nothing is read from a
  region before its index is checked, so the loader itself never faults.

  A float of the bundle is its bits. The zero points are any 32-bit integers: the loader
  does not look at them.
-/

import Overhauled.Wire.Float32
import Overhauled.Wire.Host
import Overhauled.Wire.Reader

namespace Overhauled.Npu

open Wire Reader

def kMaxRegions : Nat := 8
def kMaxCommandBytes : Nat := 64 * 1024 * 1024
def kMaxRegionBytes : Nat := 256 * 1024 * 1024

def bundleMagic : Bytes := ascii "YU85BND1"

structure Bundle where
  sramSize : UInt32 := 0
  commandStream : Bytes := []
  regions : List Bytes := []
  inputRegion : UInt32 := 0
  outputRegion : UInt32 := 0
  inputOffset : UInt32 := 0
  outputOffset : UInt32 := 0
  inputElements : UInt32 := 0
  outputElements : UInt32 := 0
  inputScale : UInt32 := 0x3f800000
  outputScale : UInt32 := 0x3f800000
  inputZero : Int32 := 0
  outputZero : Int32 := 0
  deriving DecidableEq, Repr

/-! ## The loader -/

def readU32 : Reader UInt32 := do
  let b ← block 4 (ascii "truncated Ethos-U bundle header")
  return UInt32.ofNat (ofMemory .little b)

/-- The words after the version: the sizes of what follows, and the bundle so far. -/
def readHeader : Reader (UInt32 × UInt32 × Bundle) := do
  let sramSize ← readU32
  let cmdSize ← readU32
  let regionCount ← readU32
  let inputRegion ← readU32
  let outputRegion ← readU32
  let inputOffset ← readU32
  let outputOffset ← readU32
  let inputElements ← readU32
  let outputElements ← readU32
  let inputScale ← readU32
  let inputZero ← readU32
  let outputScale ← readU32
  let outputZero ← readU32
  return (cmdSize, regionCount,
    { sramSize, inputRegion, outputRegion, inputOffset, outputOffset, inputElements, outputElements, inputScale,
      inputZero := inputZero.toInt32, outputScale, outputZero := outputZero.toInt32 })

/-- What the header is rejected for. -/
def headerInvalid (cmdSize regionCount : UInt32) (b : Bundle) : Bool :=
  cmdSize = 0 || cmdSize.toNat > kMaxCommandBytes || regionCount = 0 ||
    regionCount.toNat > kMaxRegions || b.sramSize = 0 ||
    b.inputRegion ≥ regionCount || b.outputRegion ≥ regionCount ||
    b.inputElements = 0 || b.outputElements = 0 ||
    !isFinite32 b.inputScale || leZero32 b.inputScale ||
    !isFinite32 b.outputScale || leZero32 b.outputScale

def readRegion : Reader Bytes := do
  let size ← readU32
  rejectIf (size = 0 ∨ size.toNat > kMaxRegionBytes) (ascii "invalid Ethos-U region size")
  block size.toNat (ascii "truncated Ethos-U region data")

/-- `b.regions[i].size()`, unchecked. -/
def regionSize (regions : List Bytes) (i : UInt32) : Reader Nat := fun _ off =>
  match regions[i.toNat]? with
  | some region => .ok (region.length, off)
  | none => .error .fault

/-- The sum is taken in 64 bits. -/
def exceedsRegion (offset elements : UInt32) (size : Nat) : Bool := (offset.toNat + elements.toNat) % 2 ^ 64 > size

def bundleReader : Reader Bundle := do
  let magic ← block 8 (ascii "invalid Ethos-U bundle magic (expected YU85BND1)")
  rejectIf (magic ≠ bundleMagic) (ascii "invalid Ethos-U bundle magic (expected YU85BND1)")
  let version ← readU32
  rejectIf (version ≠ 1) (ascii "unsupported Ethos-U bundle version")
  let (cmdSize, regionCount, b) ← readHeader
  rejectIf (headerInvalid cmdSize regionCount b = true) (ascii "invalid Ethos-U bundle dimensions or quantization")
  let commandStream ← block cmdSize.toNat (ascii "truncated Ethos-U command stream")
  let regions ← many readRegion regionCount.toNat
  atEnd (ascii "trailing bytes in Ethos-U bundle")
  let inputSize ← regionSize regions b.inputRegion
  let outputSize ← regionSize regions b.outputRegion
  rejectIf (exceedsRegion b.inputOffset b.inputElements inputSize = true ∨
      exceedsRegion b.outputOffset b.outputElements outputSize = true)
    (ascii "Ethos-U tensor range exceeds its region")
  return { b with commandStream, regions }

/-- `file` is what the file at `path` holds, if it can be opened. -/
def loadBundle (path : Bytes) : Option Bytes → Except Stop Bundle
  | none => .error (.reject (ascii "cannot open Ethos-U bundle: " ++ path))
  | some file => bundleReader.run file

/-! ## The layout -/

/-- A word as the file has it. -/
def le4 (v : UInt32) : Bytes := memory .little 4 v.toNat

def headerWords (cmdSize regionCount : UInt32) (b : Bundle) : List UInt32 :=
  [b.sramSize, cmdSize, regionCount, b.inputRegion, b.outputRegion, b.inputOffset, b.outputOffset, b.inputElements,
    b.outputElements, b.inputScale, b.inputZero.toUInt32, b.outputScale, b.outputZero.toUInt32]

/-- All fourteen words of a bundle. -/
def bundleWords (b : Bundle) : List UInt32 :=
  1 :: headerWords (UInt32.ofNat b.commandStream.length) (UInt32.ofNat b.regions.length) b

def regionBytes (region : Bytes) : Bytes := le4 (UInt32.ofNat region.length) ++ region

def bundleBytes (b : Bundle) : Bytes :=
  bundleMagic ++ (bundleWords b).flatMap le4 ++ b.commandStream ++ b.regions.flatMap regionBytes

/-- A tensor of `elements` bytes at `offset` lies in the region `i`. -/
def TensorFits (regions : List Bytes) (i offset elements : UInt32) : Prop :=
  ∃ region, regions[i.toNat]? = some region ∧ offset.toNat + elements.toNat ≤ region.length

/-- A finite number greater than zero. -/
def PositiveFinite (bits : UInt32) : Prop := isFinite32 bits = true ∧ 0 < value32 bits

/-- The header's bounds, on it and on the sizes of what follows. -/
structure HeaderFits (cmdSize regionCount : Nat) (b : Bundle) : Prop where
  sram : b.sramSize ≠ 0
  command : 1 ≤ cmdSize ∧ cmdSize ≤ kMaxCommandBytes
  count : 1 ≤ regionCount ∧ regionCount ≤ kMaxRegions
  indices : b.inputRegion.toNat < regionCount ∧ b.outputRegion.toNat < regionCount
  elements : b.inputElements ≠ 0 ∧ b.outputElements ≠ 0
  scales : PositiveFinite b.inputScale ∧ PositiveFinite b.outputScale

structure WellFormed (b : Bundle) : Prop extends HeaderFits b.commandStream.length b.regions.length b where
  region : ∀ region ∈ b.regions, 1 ≤ region.length ∧ region.length ≤ kMaxRegionBytes
  input : TensorFits b.regions b.inputRegion b.inputOffset b.inputElements
  output : TensorFits b.regions b.outputRegion b.outputOffset b.outputElements

/-! ## What each part of the loader accepts -/

section
variable {file : Bytes} {off off' : Nat}

theorem readU32_ok {v : UInt32} : readU32 file off = .ok (v, off') ↔ At file off (le4 v) off' := by
  unfold readU32
  simp only [bind_ok, block_ok, pure_ok]
  constructor
  · intro h
    obtain ⟨w, _, ⟨hw, hat⟩, rfl, rfl⟩ := h
    have hlt := ofMemory_lt .little w
    rw [hw] at hlt
    have hback := memory_ofMemory .little w
    rw [hw] at hback
    rw [le4, UInt32.toNat_ofNat_of_lt' hlt, hback]
    exact hat
  · intro h
    refine ⟨le4 v, off', ⟨length_memory .little 4 _, h⟩, ?_, rfl⟩
    rw [le4, ofMemory_memory .little v.toNat_lt, UInt32.ofNat_toNat]

theorem readHeader_ok {cmdSize regionCount : UInt32} {b : Bundle} :
    readHeader file off = .ok ((cmdSize, regionCount, b), off') ↔
      (b.commandStream = [] ∧ b.regions = []) ∧ At file off ((headerWords cmdSize regionCount b).flatMap le4) off' := by
  simp only [readHeader, bind_ok, readU32_ok, pure_ok, headerWords, List.flatMap_cons, List.flatMap_nil, List.append_nil,
    at_append, Prod.mk.injEq]
  constructor
  · intro h
    obtain ⟨_, _, h1, _, _, h2, _, _, h3, _, _, h4, _, _, h5, _, _, h6, _, _, h7, _, _, h8, _, _, h9, _, _, h10, _, _, h11,
      _, _, h12, _, _, h13, ⟨rfl, rfl, rfl⟩, rfl⟩ := h
    exact ⟨⟨rfl, rfl⟩, _, h1, _, h2, _, h3, _, h4, _, h5, _, h6, _, h7, _, h8, _, h9, _, h10, _, h11, _, h12, h13⟩
  · intro h
    obtain ⟨⟨hcommand, hregions⟩, _, h1, _, h2, _, h3, _, h4, _, h5, _, h6, _, h7, _, h8, _, h9, _, h10, _, h11, _, h12,
      h13⟩ := h
    refine ⟨_, _, h1, _, _, h2, _, _, h3, _, _, h4, _, _, h5, _, _, h6, _, _, h7, _, _, h8, _, _, h9, _, _, h10, _, _, h11,
      _, _, h12, _, _, h13, ⟨rfl, rfl, ?_⟩, rfl⟩
    obtain ⟨⟩ := b
    subst hcommand hregions
    rfl

theorem readRegion_ok {region : Bytes} :
    readRegion file off = .ok (region, off') ↔
      (1 ≤ region.length ∧ region.length ≤ kMaxRegionBytes) ∧ At file off (regionBytes region) off' := by
  simp only [readRegion, bind_ok, readU32_ok, rejectIf_ok, block_ok, regionBytes, at_append]
  constructor
  · intro h
    obtain ⟨size, o, hsize, _, _, ⟨hok, rfl⟩, hlen, hat⟩ := h
    push Not at hok
    have hpos : size.toNat ≠ 0 := fun h0 => hok.1 (UInt32.toNat_inj.mp h0)
    rw [hlen, UInt32.ofNat_toNat]
    exact ⟨⟨by omega, hok.2⟩, _, hsize, hat⟩
  · intro h
    obtain ⟨⟨hpos, hmax⟩, o, hsize, hat⟩ := h
    have hlt : region.length < 2 ^ 32 := by
      unfold kMaxRegionBytes at hmax
      omega
    have hword : (UInt32.ofNat region.length).toNat = region.length := UInt32.toNat_ofNat_of_lt' hlt
    refine ⟨UInt32.ofNat region.length, o, hsize, (), o, ⟨?_, rfl⟩, by rw [hword], hat⟩
    rw [hword, ← UInt32.toNat_inj, hword]
    push Not
    exact ⟨Nat.ne_of_gt hpos, hmax⟩

theorem regionSize_ok {regions : List Bytes} {i : UInt32} {size : Nat} :
    regionSize regions i file off = .ok (size, off') ↔
      (∃ region, regions[i.toNat]? = some region ∧ size = region.length) ∧ off' = off := by
  unfold regionSize
  cases regions[i.toNat]? with
  | none => simp
  | some region => simp [eq_comm]

end

theorem exceedsRegion_eq_false {offset elements : UInt32} {size : Nat} :
    exceedsRegion offset elements size = false ↔ offset.toNat + elements.toNat ≤ size := by
  have ho := offset.toNat_lt
  have he := elements.toNat_lt
  simp only [exceedsRegion, gt_iff_lt, decide_eq_false_iff_not, not_lt]
  rw [Nat.mod_eq_of_lt (by omega)]

theorem positiveFinite_iff (bits : UInt32) : PositiveFinite bits ↔ isFinite32 bits = true ∧ leZero32 bits = false := by
  unfold PositiveFinite
  exact and_congr_right fun h => (leZero32_eq_false_iff h).symm

theorem headerInvalid_eq_false {cmdSize regionCount : UInt32} {b : Bundle} :
    headerInvalid cmdSize regionCount b = false ↔ HeaderFits cmdSize.toNat regionCount.toNat b := by
  have hzero : ∀ v : UInt32, v = 0 ↔ v.toNat = 0 := fun v => UInt32.toNat_inj.symm
  have hge : ∀ v w : UInt32, v ≥ w ↔ w.toNat ≤ v.toNat := fun v w => UInt32.le_iff_toNat_le
  simp only [headerInvalid, Bool.or_eq_false_iff, decide_eq_false_iff_not, Bool.not_eq_false', hge, hzero cmdSize,
    hzero regionCount]
  constructor
  · rintro ⟨⟨⟨⟨⟨⟨⟨⟨⟨⟨⟨⟨hc, hc'⟩, hr⟩, hr'⟩, hs⟩, hi⟩, ho⟩, hie⟩, hoe⟩, hif⟩, hiz⟩, hof⟩, hoz⟩
    exact ⟨hs, by omega, by omega, by omega, ⟨hie, hoe⟩, (positiveFinite_iff _).mpr ⟨hif, hiz⟩,
      (positiveFinite_iff _).mpr ⟨hof, hoz⟩⟩
  · rintro ⟨hs, hc, hr, hi, ⟨hie, hoe⟩, hin, hout⟩
    obtain ⟨hif, hiz⟩ := (positiveFinite_iff _).mp hin
    obtain ⟨hof, hoz⟩ := (positiveFinite_iff _).mp hout
    exact ⟨⟨⟨⟨⟨⟨⟨⟨⟨⟨⟨⟨by omega, by omega⟩, by omega⟩, by omega⟩, hs⟩, by omega⟩, by omega⟩, hie⟩, hoe⟩, hif⟩, hiz⟩, hof⟩, hoz⟩

/-! ## What is accepted -/

/-- The tensor ranges, checked against the sizes of the regions. -/
theorem tensorFits_iff {regions : List Bytes} {i offset elements : UInt32} {region : Bytes}
    (h : regions[i.toNat]? = some region) :
    TensorFits regions i offset elements ↔ exceedsRegion offset elements region.length = false := by
  rw [exceedsRegion_eq_false]
  constructor
  · rintro ⟨region', h', hle⟩
    rw [h] at h'
    cases h'
    exact hle
  · exact fun hle => ⟨region, h, hle⟩

theorem loadBundle_ok (path file : Bytes) (b : Bundle) :
    loadBundle path (some file) = .ok b ↔ WellFormed b ∧ file = bundleBytes b := by
  unfold loadBundle
  rw [run_ok, ← at_whole (w := bundleBytes b), bundleBytes, bundleWords, List.flatMap_cons]
  simp only [bundleReader, bind_ok, block_ok, rejectIf_ok, readU32_ok, atEnd_ok, regionSize_ok, pure_ok, at_append]
  constructor
  · intro h
    obtain ⟨_, magic, _, ⟨-, hmagic⟩, _, _, ⟨hm, rfl⟩, version, _, hversion, _, _, ⟨hv, rfl⟩, ⟨cmdSize, regionCount, b0⟩,
      _, hheader, _, _, ⟨hvalid, rfl⟩, command, _, ⟨hcommand, hcommandAt⟩, regions, _, hmany, _, _, ⟨rfl, rfl⟩, _, _,
      ⟨⟨iregion, hiregion, rfl⟩, rfl⟩, _, _, ⟨⟨oregion, horegion, rfl⟩, rfl⟩, _, _, ⟨hfits, rfl⟩, rfl, rfl⟩ := h
    obtain rfl := not_not.mp hm
    obtain rfl := not_not.mp hv
    obtain ⟨-, hheaderAt⟩ := readHeader_ok.mp hheader
    obtain ⟨hcount, hsizes, hregionsAt⟩ := (many_ok readRegion_ok hcommandAt.le).mp hmany
    have hfit := headerInvalid_eq_false.mp (Bool.not_eq_true _ ▸ hvalid)
    simp only [not_or, Bool.not_eq_true] at hfits
    rw [← hcommand, ← hcount] at hfit
    refine ⟨⟨⟨hfit.sram, hfit.command, hfit.count, hfit.indices, hfit.elements, hfit.scales⟩, hsizes,
      (tensorFits_iff hiregion).mpr hfits.1, (tensorFits_iff horegion).mpr hfits.2⟩, ?_⟩
    refine ⟨_, ⟨_, ⟨_, hmagic, _, hversion, ?_⟩, hcommandAt⟩, hregionsAt⟩
    show At file _ ((headerWords (UInt32.ofNat command.length) (UInt32.ofNat regions.length) b0).flatMap le4) _
    rw [hcommand, hcount, UInt32.ofNat_toNat, UInt32.ofNat_toNat]
    exact hheaderAt
  · intro h
    obtain ⟨hb, o4, ⟨o3, ⟨o1, hmagic, o2, hversion, hheaderAt⟩, hcommandAt⟩, hregionsAt⟩ := h
    have hcommand : (UInt32.ofNat b.commandStream.length).toNat = b.commandStream.length :=
      UInt32.toNat_ofNat_of_lt' (hb.command.2.trans_lt (by decide))
    have hcount : (UInt32.ofNat b.regions.length).toNat = b.regions.length :=
      UInt32.toNat_ofNat_of_lt' (hb.count.2.trans_lt (by decide))
    have hheader := readHeader_ok (b := { b with commandStream := [], regions := [] }).mpr ⟨⟨rfl, rfl⟩, hheaderAt⟩
    have hmany := (many_ok readRegion_ok hcommandAt.le).mpr ⟨hcount.symm, hb.region, hregionsAt⟩
    have hfit : HeaderFits b.commandStream.length b.regions.length { b with commandStream := [], regions := [] } :=
      ⟨hb.sram, hb.command, hb.count, hb.indices, hb.elements, hb.scales⟩
    rw [← hcommand, ← hcount] at hfit
    obtain ⟨iregion, hiregion, -⟩ := hb.input
    obtain ⟨oregion, horegion, -⟩ := hb.output
    have hi := (tensorFits_iff hiregion).mp hb.input
    have ho := (tensorFits_iff horegion).mp hb.output
    refine ⟨file.length, bundleMagic, o1, ⟨rfl, hmagic⟩, (), o1, ⟨not_not.mpr rfl, rfl⟩, 1, o2, hversion, (), o2,
      ⟨not_not.mpr rfl, rfl⟩, _, o3, hheader, (), o3, ⟨?_, rfl⟩, b.commandStream, o4, ⟨hcommand.symm, hcommandAt⟩, b.regions,
      file.length, hmany, (), file.length, ⟨rfl, rfl⟩, _, file.length, ⟨⟨iregion, hiregion, rfl⟩, rfl⟩, _, file.length,
      ⟨⟨oregion, horegion, rfl⟩, rfl⟩, (), file.length, ⟨?_, rfl⟩, rfl, rfl⟩
    · rw [headerInvalid_eq_false.mpr hfit]
      decide
    · rw [hi, ho]
      decide

end Overhauled.Npu
