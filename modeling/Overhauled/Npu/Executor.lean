/-
  Overhauled.Npu.Executor — one inference on the Ethos-U85 (`EthosU85DrmExecutor::run` in
  `src/ethosu_u85_drm_executor.cpp`): every region is copied into a mapping of its size,
  the input is quantised into the input tensor, the job runs, and the output tensor is
  read and dequantised.

  The driver is a parameter (`Device`): each call may fail with a text, and the job may
  leave any bytes in the mappings, which keep their sizes. So is the floating-point part of
  the arithmetic (`Arithmetic`). The tensors are accessed through raw pointers: an access
  outside the mapping is `outOfRange`, and the subtraction of the output's zero point is
  one of `int`s, for which C++ defines nothing when it overflows (`overflow`).

  What the loader checks is enough for the accesses: a run with an accepted bundle never
  leaves a mapping (`run_ends`). It is not enough for the subtraction. The zero point is
  documented as a signed 8-bit number and loaded as any 32-bit one, and the difference of
  every byte from it fits exactly when it stays 128 away from both ends of `int`
  (`differences_fit_iff`). Outside that range some output of the device overflows
  (`run_overflows`).
-/

import Overhauled.Machine.Ends
import Overhauled.Npu.Bundle

namespace Overhauled.Npu

open Wire Machine

inductive Halt where
  | throws (msg : Bytes)
  | outOfRange
  | overflow
  deriving DecidableEq, Repr

/-- The floating-point operations: the clamped `nearbyint(x / scale) + zero`, and the product of an
    `int` and a float, as a double. -/
structure Arithmetic where
  quantise : UInt64 → UInt32 → Int32 → Int8
  scaled : Int32 → UInt32 → UInt64

/-- What the driver does in a run. A call that fails leaves its `strerror` text; the calls
    for the regions are numbered. -/
structure Device where
  opened : Bool := true
  boCreate : Nat → Option Bytes := fun _ => none
  boMmapOffset : Nat → Option Bytes := fun _ => none
  mmap : Nat → Option Bytes := fun _ => none
  cmdstreamCreate : Option Bytes := none
  submit : Option Bytes := none
  clockFails : Bool := false
  boWait : Option Bytes := none
  job : List Bytes → List Bytes
  sizes : ∀ maps, (job maps).map List.length = maps.map List.length

/-! ## The steps of a run -/

def failed (what : Bytes) : Option Bytes → Except Halt Unit
  | some why => .error (.throws (what ++ why))
  | none => .ok ()

/-- A mapping that holds the region's bytes. -/
def mapRegion (device : Device) (i : Nat) (region : Bytes) : Except Halt Bytes := do
  failed (ascii "Ethos-U BO_CREATE failed: ") (device.boCreate i)
  failed (ascii "Ethos-U DRM BO_MMAP_OFFSET failed: ") (device.boMmapOffset i)
  failed (ascii "Ethos-U DRM mmap failed: ") (device.mmap i)
  return region

def mapRegions (device : Device) : Nat → List Bytes → Except Halt (List Bytes)
  | _, [] => return []
  | i, region :: regions => do
    let map ← mapRegion device i region
    let maps ← mapRegions device (i + 1) regions
    return map :: maps

/-- `static_cast<int8_t*>(maps[r].address)[pos] = v` -/
def store (maps : List Bytes) (r pos : Nat) (v : Int8) : Except Halt (List Bytes) :=
  match maps[r]? with
  | some map => if pos < map.length then .ok (maps.set r (map.set pos v.toUInt8)) else .error .outOfRange
  | none => .error .outOfRange

/-- `static_cast<const int8_t*>(maps[r].address)[pos]` -/
def load (maps : List Bytes) (r pos : Nat) : Except Halt Int8 :=
  match maps[r]? with
  | some map =>
    match map[pos]? with
    | some x => .ok x.toInt8
    | none => .error .outOfRange
  | none => .error .outOfRange

def nonFiniteInput : Bytes := ascii "Ethos-U input contains NaN or infinity"

/-- The loop over the input, from its `i`-th number on. -/
def quantiseInput (arith : Arithmetic) (b : Bundle) : Nat → List UInt64 → List Bytes → Except Halt (List Bytes)
  | _, [], maps => return maps
  | i, x :: xs, maps => do
    stopIf (isFinite x = false) (.throws nonFiniteInput)
    let maps ← store maps b.inputRegion.toNat (b.inputOffset.toNat + i) (arith.quantise x b.inputScale b.inputZero)
    quantiseInput arith b (i + 1) xs maps

/-- The difference is an `int`. -/
def FitsInt (d : Int) : Prop := -2 ^ 31 ≤ d ∧ d < 2 ^ 31

instance (d : Int) : Decidable (FitsInt d) := inferInstanceAs (Decidable (_ ∧ _))

/-- `static_cast<int>(x) - zero` -/
def subtract (x : Int8) (zero : Int32) : Except Halt Int32 := do
  stopIf (¬ FitsInt (x.toInt - zero.toInt)) .overflow
  return Int32.ofInt (x.toInt - zero.toInt)

/-- The loop over the output: `n` elements from the `i`-th on. -/
def dequantiseOutput (arith : Arithmetic) (b : Bundle) (maps : List Bytes) : Nat → Nat → Except Halt (List UInt64)
  | 0, _ => return []
  | n + 1, i => do
    let x ← load maps b.outputRegion.toNat (b.outputOffset.toNat + i)
    let d ← subtract x b.outputZero
    let output ← dequantiseOutput arith b maps n (i + 1)
    return arith.scaled d b.outputScale :: output

def run (arith : Arithmetic) (device : Device) (b : Bundle) (input : List UInt64) : Except Halt (List UInt64) := do
  stopIf (device.opened = false) (.throws (ascii "mainline Ethos-U DRM device is unavailable"))
  stopIf (input.length ≠ b.inputElements.toNat) (.throws (ascii "input element count does not match Ethos-U bundle"))
  let maps ← mapRegions device 0 b.regions
  let maps ← quantiseInput arith b 0 input maps
  failed (ascii "Ethos-U CMDSTREAM_BO_CREATE failed: ") device.cmdstreamCreate
  failed (ascii "Ethos-U SUBMIT failed: ") device.submit
  stopIf (device.clockFails = true) (.throws (ascii "clock_gettime failed while waiting for Ethos-U job"))
  failed (ascii "Ethos-U BO_WAIT failed: ") device.boWait
  dequantiseOutput arith b (device.job maps) b.outputElements.toNat 0

/-! ## Accesses -/

section
variable {maps maps' : List Bytes} {r offset elements : UInt32}

/-- Only the sizes of the mappings matter. -/
theorem TensorFits.of_sizes (h : TensorFits maps r offset elements)
    (hsizes : maps'.map List.length = maps.map List.length) : TensorFits maps' r offset elements := by
  obtain ⟨map, hmap, hle⟩ := h
  have hsize : (maps'.map List.length)[r.toNat]? = some map.length := by
    rw [hsizes, List.getElem?_map, hmap]
    rfl
  rw [List.getElem?_map] at hsize
  obtain ⟨map', hmap', hlength⟩ := Option.map_eq_some_iff.mp hsize
  exact ⟨map', hmap', by omega⟩

theorem store_ends {i : Nat} (h : TensorFits maps r offset elements) (hi : i < elements.toNat) (v : Int8) :
    Ends (store maps r.toNat (offset.toNat + i) v) (fun maps' => maps'.map List.length = maps.map List.length)
      fun _ => False := by
  obtain ⟨map, hmap, hle⟩ := h
  unfold store
  rw [hmap]
  dsimp only
  rw [if_pos (by omega)]
  show (maps.set r.toNat (map.set _ _)).map List.length = maps.map List.length
  obtain ⟨hr, hget⟩ := List.getElem?_eq_some_iff.mp hmap
  rw [List.map_set, List.length_set, ← hget, ← List.map_set, List.set_getElem_self]

theorem load_ends {i : Nat} (h : TensorFits maps r offset elements) (hi : i < elements.toNat) :
    Ends (load maps r.toNat (offset.toNat + i)) (fun _ => True) fun _ => False := by
  obtain ⟨map, hmap, hle⟩ := h
  unfold load
  rw [hmap]
  dsimp only
  rw [List.getElem?_eq_getElem (by omega)]
  trivial

end

section
variable (arith : Arithmetic) (device : Device) {b : Bundle}

theorem failed_ends (what : Bytes) (why : Option Bytes) :
    Ends (failed what why) (fun _ => True) fun h => ∃ msg, h = .throws msg := by
  cases why with
  | none => trivial
  | some why => exact ⟨_, rfl⟩

theorem mapRegions_ends (i : Nat) (regions : List Bytes) :
    Ends (mapRegions device i regions) (fun maps => maps = regions) fun h => ∃ msg, h = .throws msg := by
  induction regions generalizing i with
  | nil => rfl
  | cons region regions ih =>
    have hone : Ends (mapRegion device i region) (fun map => map = region) fun h => ∃ msg, h = .throws msg := by
      unfold mapRegion
      refine ends_bind (failed_ends _ _) fun _ _ => ends_bind (failed_ends _ _) fun _ _ => ?_
      exact ends_bind (failed_ends _ _) fun _ _ => ends_pure rfl
    rw [mapRegions]
    refine ends_bind hone fun map hmap => ends_bind (ih (i + 1)) fun maps hmaps => ends_pure ?_
    rw [hmap, hmaps]

/-- By induction over the input: each turn stores inside the tensor and keeps the sizes. -/
theorem quantiseInput_ends {i : Nat} {input : List UInt64} {maps : List Bytes}
    (h : TensorFits maps b.inputRegion b.inputOffset b.inputElements) (hi : i + input.length ≤ b.inputElements.toNat) :
    Ends (quantiseInput arith b i input maps) (fun maps' => maps'.map List.length = maps.map List.length)
      fun h => h = .throws nonFiniteInput ∧ ∃ x ∈ input, isFinite x = false := by
  induction input generalizing i maps with
  | nil => exact ends_pure rfl
  | cons x input ih =>
    rw [List.length_cons] at hi
    rw [quantiseInput]
    refine ends_bind (ends_stopIf fun hx => ⟨rfl, x, List.mem_cons_self, hx⟩) fun _ _ => ?_
    refine ends_bind ((store_ends h (by omega) _).mono (fun _ hs => hs) fun _ => False.elim) fun maps' hsizes => ?_
    refine (ih (h.of_sizes hsizes) (by omega)).mono (fun _ hs => hs.trans hsizes) ?_
    rintro _ ⟨rfl, y, hy, hfinite⟩
    exact ⟨rfl, y, List.mem_cons_of_mem x hy, hfinite⟩

theorem subtract_ends (x : Int8) (zero : Int32) :
    Ends (subtract x zero) (fun _ => True) fun h => h = .overflow ∧ ¬ FitsInt (x.toInt - zero.toInt) := by
  unfold subtract
  exact ends_bind (ends_stopIf fun h => ⟨rfl, h⟩) fun _ _ => ends_pure trivial

theorem dequantiseOutput_ends {maps : List Bytes} (h : TensorFits maps b.outputRegion b.outputOffset b.outputElements)
    {n i : Nat} (hi : i + n ≤ b.outputElements.toNat) :
    Ends (dequantiseOutput arith b maps n i) (fun output => output.length = n)
      fun h => h = .overflow ∧ ∃ x : Int8, ¬ FitsInt (x.toInt - b.outputZero.toInt) := by
  induction n generalizing i with
  | zero => exact ends_pure rfl
  | succ n ih =>
    rw [dequantiseOutput]
    refine ends_bind ((load_ends h (by omega)).mono (fun _ ht => ht) fun _ => False.elim) fun x _ => ?_
    refine ends_bind ((subtract_ends x b.outputZero).mono (fun _ ht => ht) fun _ hx => ⟨hx.1, x, hx.2⟩) fun d _ => ?_
    exact ends_bind (ih (by omega)) fun output hlength => ends_pure (by rw [List.length_cons, hlength])

/-- How a run with a well-formed bundle can stop. -/
inductive Stopped (b : Bundle) : Halt → Prop
  | thrown (msg : Bytes) : Stopped b (.throws msg)
  | overflowed (x : Int8) (h : ¬ FitsInt (x.toInt - b.outputZero.toInt)) : Stopped b .overflow

theorem run_ends (hb : WellFormed b) (input : List UInt64) :
    Ends (run arith device b input) (fun output => output.length = b.outputElements.toNat) (Stopped b) := by
  have hthrown : ∀ h : Halt, (∃ msg, h = .throws msg) → Stopped b h := by
    rintro _ ⟨msg, rfl⟩
    exact .thrown msg
  have hfailed : ∀ what why, Ends (failed what why) (fun _ => True) (Stopped b) :=
    fun what why => (failed_ends what why).mono (fun _ ht => ht) hthrown
  unfold run
  refine ends_bind (ends_stopIf fun _ => .thrown _) fun _ _ => ?_
  refine ends_bind (ends_stopIf fun _ => .thrown _) fun _ hlength => ?_
  refine ends_bind ((mapRegions_ends device 0 b.regions).mono (fun _ hm => hm) hthrown) fun maps hmaps => ?_
  subst hmaps
  refine ends_bind ((quantiseInput_ends arith hb.input (by omega)).mono (fun _ hs => hs) ?_) fun maps hsizes => ?_
  · rintro _ ⟨rfl, -⟩
    exact .thrown _
  refine ends_bind (hfailed _ _) fun _ _ => ends_bind (hfailed _ _) fun _ _ => ?_
  refine ends_bind (ends_stopIf fun _ => .thrown _) fun _ _ => ends_bind (hfailed _ _) fun _ _ => ?_
  have houtput := hb.output.of_sizes ((device.sizes maps).trans hsizes)
  refine (dequantiseOutput_ends arith houtput (by omega)).mono (fun _ hl => hl) ?_
  rintro _ ⟨rfl, x, hx⟩
  exact .overflowed x hx

end

/-- Where the `i`-th element of a tensor that fits lies. -/
theorem TensorFits.inside {regions : List Bytes} {r offset elements : UInt32} (h : TensorFits regions r offset elements) :
    ∀ i < elements.toNat, ∃ region, regions[r.toNat]? = some region ∧ offset.toNat + i < region.length := by
  obtain ⟨region, hregion, hle⟩ := h
  exact fun i hi => ⟨region, hregion, by omega⟩

/-- Every element of the two tensors lies in its region, and no run leaves a mapping. -/
structure InRange (b : Bundle) : Prop where
  writes : ∀ i < b.inputElements.toNat,
    ∃ region, b.regions[b.inputRegion.toNat]? = some region ∧ b.inputOffset.toNat + i < region.length
  reads : ∀ i < b.outputElements.toNat,
    ∃ region, b.regions[b.outputRegion.toNat]? = some region ∧ b.outputOffset.toNat + i < region.length
  runs : ∀ arith device input, run arith device b input ≠ .error .outOfRange

theorem accepted_bundles_are_in_range (path file : Bytes) (b : Bundle) :
    (loadBundle path (some file) = .ok b ↔ WellFormed b ∧ file = bundleBytes b) ∧
      (loadBundle path (some file) = .ok b → InRange b) := by
  have hload := loadBundle_ok path file b
  refine ⟨hload, fun h => ?_⟩
  have hb := (hload.mp h).1
  refine ⟨hb.input.inside, hb.output.inside, fun arith device input hrun => ?_⟩
  cases (run_ends arith device hb input).of_error hrun

/-! ## The zero point of the output -/

theorem differences_fit_iff (zero : Int32) :
    (∀ x : Int8, FitsInt (x.toInt - zero.toInt)) ↔ -2147483520 ≤ zero.toInt ∧ zero.toInt ≤ 2147483520 := by
  unfold FitsInt
  constructor
  · intro h
    have hmax := h 127
    have hmin := h (-128)
    rw [show (127 : Int8).toInt = 127 from rfl] at hmax
    rw [show (-128 : Int8).toInt = -128 from rfl] at hmin
    omega
  · intro h x
    have hlow := x.le_toInt
    have hhigh := x.toInt_lt
    omega

/-- A device on which everything succeeds and every byte of the output is `x`. -/
def flooding (x : Int8) : Device where
  job maps := maps.map fun map => List.replicate map.length x.toUInt8
  sizes maps := by simp [Function.comp_def]

theorem load_flooding {maps : List Bytes} {r offset elements : UInt32} (h : TensorFits maps r offset elements)
    (hpos : elements ≠ 0) (x : Int8) : load ((flooding x).job maps) r.toNat (offset.toNat + 0) = .ok x := by
  obtain ⟨map, hmap, hle⟩ := h
  have hne : elements.toNat ≠ 0 := fun h0 => hpos (UInt32.toNat_inj.mp h0)
  unfold load flooding
  dsimp only
  rw [List.getElem?_map, hmap]
  dsimp only [Option.map_some]
  rw [List.getElem?_replicate_of_lt (by omega)]
  simp

theorem mapRegions_flooding (x : Int8) (i : Nat) (regions : List Bytes) :
    mapRegions (flooding x) i regions = .ok regions := by
  induction regions generalizing i with
  | nil => rfl
  | cons region regions ih =>
    rw [mapRegions, ih]
    rfl

/-- Where the difference does not fit, a device that answers with that byte overflows it. -/
theorem run_overflows {b : Bundle} (hb : WellFormed b) (arith : Arithmetic) {x : Int8}
    (hx : ¬ FitsInt (x.toInt - b.outputZero.toInt)) :
    run arith (flooding x) b (List.replicate b.inputElements.toNat 0) = .error .overflow := by
  have hlength : (List.replicate b.inputElements.toNat (0 : UInt64)).length = b.inputElements.toNat := List.length_replicate
  -- zeros are finite, so the input is taken
  have hinput := quantiseInput_ends arith hb.input ((Nat.zero_add _).trans hlength).le
  have hfinite : ∀ h : Halt, (h = .throws nonFiniteInput ∧ ∃ y ∈ List.replicate b.inputElements.toNat (0 : UInt64),
      isFinite y = false) → False := by
    rintro _ ⟨-, y, hy, hy'⟩
    rw [List.eq_of_mem_replicate hy] at hy'
    cases hy'
  obtain ⟨maps, hquantised, hsizes⟩ := (hinput.mono (fun _ hs => hs) hfinite).answers
  -- and the first element of the output is read
  have hload := load_flooding (hb.output.of_sizes hsizes) hb.elements.2 x
  have hsub : subtract x b.outputZero = .error .overflow := by
    rw [subtract, stopIf, if_pos hx]
    rfl
  obtain ⟨n, hn⟩ := Nat.exists_eq_succ_of_ne_zero fun h0 => hb.elements.2 (UInt32.toNat_inj.mp h0)
  have hread : dequantiseOutput arith b ((flooding x).job maps) b.outputElements.toNat 0 = .error .overflow := by
    rw [hn, dequantiseOutput, hload]
    show (subtract x b.outputZero >>= _) = _
    rw [hsub]
    rfl
  have hopened : ¬ (flooding x).opened = false := by
    intro hclosed
    cases hclosed
  rw [run, mapRegions_flooding, stopIf, stopIf, if_neg hopened, if_neg (not_not.mpr hlength)]
  show (quantiseInput arith b 0 _ b.regions >>= _) = _
  rw [hquantised]
  exact hread

theorem dequantisation_overflow_iff (path file : Bytes) (b : Bundle) (h : loadBundle path (some file) = .ok b) :
    ((∀ x : Int8, FitsInt (x.toInt - b.outputZero.toInt)) ↔
        -2147483520 ≤ b.outputZero.toInt ∧ b.outputZero.toInt ≤ 2147483520) ∧
      ((∀ arith device input, run arith device b input ≠ .error .overflow) ↔
        -2147483520 ≤ b.outputZero.toInt ∧ b.outputZero.toInt ≤ 2147483520) := by
  have hb := ((loadBundle_ok path file b).mp h).1
  have hfit := differences_fit_iff b.outputZero
  refine ⟨hfit, ?_⟩
  rw [← hfit]
  constructor
  · intro hrun x
    by_contra hx
    exact hrun ⟨fun _ _ _ => 0, fun _ _ => 0⟩ (flooding x) _ (run_overflows hb _ hx)
  · intro hx arith device input hrun
    cases (run_ends arith device hb input).of_error hrun with
    | overflowed x hover => exact hover (hx x)

/-- The smallest bundle: one byte of command stream, one region of one byte that is input and output. -/
def smallBundle (outputZero : Int32) : Bundle :=
  { sramSize := 1, commandStream := [0], regions := [[0]], inputElements := 1, outputElements := 1, outputZero }

/-- Within the documented range of the zero point nothing overflows. -/
theorem dequantisation_overflow_iff_int8 :
    loadBundle (ascii "model.bundle") (some (bundleBytes (smallBundle (-128)))) = .ok (smallBundle (-128)) ∧
      ∀ arith device input, run arith device (smallBundle (-128)) input ≠ .error .overflow :=
  have hload : loadBundle (ascii "model.bundle") (some (bundleBytes (smallBundle (-128)))) = .ok (smallBundle (-128)) := by
    decide +kernel
  ⟨hload, (dequantisation_overflow_iff _ _ _ hload).2.mpr (by decide)⟩

/-- The loader accepts the smallest `int` as zero point, and a device that answers 0 then
    makes the run compute `0 - INT_MIN`. -/
theorem zero_point_overflows :
    loadBundle (ascii "model.bundle") (some (bundleBytes (smallBundle (-2147483648)))) = .ok (smallBundle (-2147483648)) ∧
      ¬ FitsInt ((0 : Int8).toInt - (smallBundle (-2147483648)).outputZero.toInt) ∧
      run ⟨fun _ _ _ => 0, fun _ _ => 0⟩ (flooding 0) (smallBundle (-2147483648)) [0] = .error .overflow := by
  refine ⟨?_, ?_, ?_⟩ <;> decide +kernel

end Overhauled.Npu
