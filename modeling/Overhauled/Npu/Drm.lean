/-
  Overhauled.Npu.Drm — what the Ethos-U85 executor takes from the kernel and gives back
  (`src/ethosu_u85_drm_executor.cpp`): the device file, the buffer objects and the
  mappings, over the whole life of an executor.

  `Npu.Executor` has the data of a run; here a run also keeps its locals, the two vectors
  of `GemHandle` and `Mapping` and the handle of the command stream, and a call that fails
  throws through them. Every call goes to a log. `Kernel` is what the kernel holds for the
  process after a log, and `Kernel.Allows` which calls are in order: a handle is closed
  once, while it is open, and after what was mapped of it; a job names open buffers only.

  The driver is free to fail any call. It promises that a new handle is not zero and not
  open, and that a new mapping lies where nothing is mapped. The order in which a vector
  destroys its elements is left open, as the standard leaves it.

  `Owns` ties the locals to the kernel: what their destructors would call is exactly what
  the kernel holds. Every step keeps it, so whatever throws, the unwinding gives everything
  back (`run_gives_back`).
-/

import Overhauled.Machine.Run
import Overhauled.Machine.Scope
import Overhauled.Npu.Executor

namespace Overhauled.Npu.Drm

open Wire Machine

/-! ## The kernel -/

/-- `DrmJob` -/
structure Job where
  cmdBo : UInt32
  sramSize : UInt32
  regionBoHandles : List UInt32
  deriving DecidableEq, Repr

/-- The calls that succeed. -/
inductive Call where
  | openFile (fd : Int)
  | closeFile (fd : Int)
  | create (fd : Int) (handle : UInt32)
  | close (fd : Int) (handle : UInt32)
  | map (fd : Int) (handle : UInt32) (address size : Nat)
  | unmap (address size : Nat)
  | submit (fd : Int) (job : Job)
  | wait (fd : Int) (handle : UInt32) (deadline : Int)
  deriving DecidableEq, Repr

structure Mapped where
  fd : Int
  handle : UInt32
  address : Nat
  size : Nat
  deriving DecidableEq, Repr

/-- What the kernel holds for the process. -/
structure Kernel where
  files : List Int := []
  handles : List (Int × UInt32) := []
  maps : List Mapped := []
  deriving DecidableEq, Repr

def closeCall (h : Int × UInt32) : Call := .close h.1 h.2

def unmapCall (m : Mapped) : Call := .unmap m.address m.size

def Kernel.after (k : Kernel) : Call → Kernel
  | .openFile fd => { k with files := fd :: k.files }
  | .closeFile fd => { k with files := k.files.erase fd }
  | .create fd handle => { k with handles := (fd, handle) :: k.handles }
  | .close fd handle => { k with handles := k.handles.erase (fd, handle) }
  | .map fd handle address size => { k with maps := ⟨fd, handle, address, size⟩ :: k.maps }
  | .unmap address size => { k with maps := k.maps.eraseP fun m => unmapCall m = .unmap address size }
  | .submit _ _ => k
  | .wait _ _ _ => k

/-- The call is in order. -/
def Kernel.Allows (k : Kernel) : Call → Prop
  | .openFile fd => 0 ≤ fd ∧ fd ∉ k.files
  | .closeFile fd => fd ∈ k.files ∧ (∀ h ∈ k.handles, h.1 ≠ fd) ∧ ∀ m ∈ k.maps, m.fd ≠ fd
  | .create fd handle => fd ∈ k.files ∧ handle ≠ 0 ∧ (fd, handle) ∉ k.handles
  | .close fd handle => (fd, handle) ∈ k.handles ∧ ∀ m ∈ k.maps, (m.fd, m.handle) ≠ (fd, handle)
  | .map fd handle address _ => (fd, handle) ∈ k.handles ∧ ∀ m ∈ k.maps, m.address ≠ address
  | .unmap address size => ∃ m ∈ k.maps, unmapCall m = .unmap address size
  | .submit fd job => (fd, job.cmdBo) ∈ k.handles ∧ job.cmdBo ∉ job.regionBoHandles ∧
      job.regionBoHandles.length = kMaxRegions ∧
      ∀ handle ∈ job.regionBoHandles, handle ≠ 0 → ∃ m ∈ k.maps, (m.fd, m.handle) = (fd, handle)
  | .wait fd handle _ => (fd, handle) ∈ k.handles

/-- What the kernel holds after the calls of a log. -/
def kernel (log : List Call) : Kernel := exec Kernel.after {} log

/-- Every call of the log was in order when it was made. -/
def Orderly (log : List Call) : Prop := EachStep Kernel.after Kernel.Allows {} log

theorem kernel_append (log calls : List Call) : kernel (log ++ calls) = exec Kernel.after (kernel log) calls :=
  exec_append calls

theorem kernel_concat (log : List Call) (c : Call) : kernel (log ++ [c]) = (kernel log).after c := exec_concat c

theorem orderly_append {log calls : List Call} :
    Orderly (log ++ calls) ↔ Orderly log ∧ EachStep Kernel.after Kernel.Allows (kernel log) calls := eachStep_append

theorem orderly_concat {log : List Call} {c : Call} : Orderly (log ++ [c]) ↔ Orderly log ∧ (kernel log).Allows c := by
  rw [orderly_append, EachStep, EachStep, and_true]

/-! ## The locals of a run -/

/-- `GemHandle` -/
structure GemHandle where
  fd : Int := -1
  value : UInt32 := 0
  deriving DecidableEq, Repr

/-- What `~GemHandle` calls. -/
def GemHandle.destroy (h : GemHandle) : List Call := if 0 ≤ h.fd ∧ h.value ≠ 0 then [.close h.fd h.value] else []

/-- `Mapping`; an address that is `none` is `MAP_FAILED`. -/
structure Mapping where
  address : Option Nat := none
  size : Nat := 0
  deriving DecidableEq, Repr

/-- What `~Mapping` calls. -/
def Mapping.destroy (m : Mapping) : List Call :=
  match m.address with
  | some address => [.unmap address m.size]
  | none => []

/-- The locals, and the calls made so far. -/
structure Frame where
  log : List Call
  handles : List GemHandle := []
  maps : List Mapping := []
  command : Option GemHandle := none

/-- The order in which a vector destroys its elements. -/
structure Order where
  order : {α : Type} → List α → List α
  perm : ∀ {α : Type} (l : List α), (order l).Perm l

/-- The locals are destroyed in the reverse order of their declarations. -/
def Frame.unwind (o : Order) (f : Frame) : List Call :=
  f.command.toList.flatMap GemHandle.destroy ++
    ((o.order f.maps).flatMap Mapping.destroy ++ (o.order f.handles).flatMap GemHandle.destroy)

/-! ## The driver -/

/-- A handle the driver may give out. -/
def NewHandle (fd : Int) (log : List Call) (handle : UInt32) : Prop :=
  handle ≠ 0 ∧ (fd, handle) ∉ (kernel log).handles

/-- What the driver does in a run, given the calls before; a call that fails leaves its `strerror` text. -/
structure Driver where
  boCreate : Int → List Call → Except Bytes UInt32
  boCreate_new : ∀ fd log handle, boCreate fd log = .ok handle → NewHandle fd log handle
  boMmapOffset : Int → List Call → Option Bytes
  mmap : List Call → Except Bytes Nat
  mmap_new : ∀ log address, mmap log = .ok address → ∀ m ∈ (kernel log).maps, m.address ≠ address
  cmdstreamCreate : Int → List Call → Except Bytes UInt32
  cmdstreamCreate_new : ∀ fd log handle, cmdstreamCreate fd log = .ok handle → NewHandle fd log handle
  submit : Job → Option Bytes
  clock : Option (Int × Int)
  boWait : Option Bytes
  job : List Bytes → List Bytes
  sizes : ∀ maps, (job maps).map List.length = maps.map List.length

/-! ## A run -/

def kJobTimeoutNs : Int := 30 * 1000 * 1000 * 1000

/-- A call that gives something: it throws, or goes to the log. -/
def call {α : Type} (what : Bytes) (answer : List Call → Except Bytes α) (made : α → Call) :
    ExceptT Halt (StateM Frame) α := fun f =>
  match answer f.log with
  | .error why => (.error (.throws (what ++ why)), f)
  | .ok a => (.ok a, { f with log := f.log ++ [made a] })

def addHandle (h : GemHandle) : ExceptT Halt (StateM Frame) Unit :=
  fun f => (.ok (), { f with handles := f.handles ++ [h] })

def addMapping (m : Mapping) : ExceptT Halt (StateM Frame) Unit :=
  fun f => (.ok (), { f with maps := f.maps ++ [m] })

def setCommand (h : GemHandle) : ExceptT Halt (StateM Frame) Unit :=
  fun f => (.ok (), { f with command := some h })

def frame : ExceptT Halt (StateM Frame) Frame := fun f => (.ok f, f)

/-- One turn of the loop over the regions. `reserve` was called, so neither `emplace_back`
    moves an element, and the first cannot fail. -/
def mapRegion (d : Driver) (fd : Int) (region : Bytes) : ExceptT Halt (StateM Frame) Bytes := do
  let handle ← call (ascii "Ethos-U BO_CREATE failed: ") (d.boCreate fd) (.create fd)
  addHandle ⟨fd, handle⟩
  let f ← frame
  plain (failed (ascii "Ethos-U DRM BO_MMAP_OFFSET failed: ") (d.boMmapOffset fd f.log))
  let address ← call (ascii "Ethos-U DRM mmap failed: ") d.mmap fun address => .map fd handle address region.length
  addMapping ⟨some address, region.length⟩
  return region

def mapRegions (d : Driver) (fd : Int) : List Bytes → ExceptT Halt (StateM Frame) (List Bytes)
  | [] => return []
  | region :: regions => do
    let map ← mapRegion d fd region
    let maps ← mapRegions d fd regions
    return map :: maps

/-- `job.region_bo_handles[i] = handles[i].value`, for an array of eight zeros. -/
def regionHandles (handles : List GemHandle) : Except Halt (List UInt32) := do
  stopIf (kMaxRegions < handles.length) .outOfRange
  return handles.map GemHandle.value ++ List.replicate (kMaxRegions - handles.length) 0

/-- `handles[i].value` -/
def handleAt (handles : List GemHandle) (i : Nat) : Except Halt UInt32 :=
  match handles[i]? with
  | some h => .ok h.value
  | none => .error .outOfRange

def readClock (d : Driver) : Except Halt (Int × Int) :=
  match d.clock with
  | some now => .ok now
  | none => .error (.throws (ascii "clock_gettime failed while waiting for Ethos-U job"))

/-- A call that gives nothing. -/
def answered : Option Bytes → Except Bytes Unit
  | some why => .error why
  | none => .ok ()

def body (arith : Arithmetic) (d : Driver) (fd : Int) (b : Bundle) (input : List UInt64) :
    ExceptT Halt (StateM Frame) (List UInt64) := do
  plain (stopIf (fd < 0) (.throws (ascii "mainline Ethos-U DRM device is unavailable")))
  plain (stopIf (input.length ≠ b.inputElements.toNat)
    (.throws (ascii "input element count does not match Ethos-U bundle")))
  let maps ← mapRegions d fd b.regions
  let maps ← plain (quantiseInput arith b 0 input maps)
  let command ← call (ascii "Ethos-U CMDSTREAM_BO_CREATE failed: ") (d.cmdstreamCreate fd) (.create fd)
  setCommand ⟨fd, command⟩
  let f ← frame
  let regions ← plain (regionHandles f.handles)
  let job : Job := ⟨command, b.sramSize, regions⟩
  call (ascii "Ethos-U SUBMIT failed: ") (fun _ => answered (d.submit job)) fun _ => .submit fd job
  let now ← plain (readClock d)
  let output ← plain (handleAt f.handles b.outputRegion.toNat)
  call (ascii "Ethos-U BO_WAIT failed: ") (fun _ => answered d.boWait) fun _ =>
    .wait fd output (now.1 * 1000000000 + now.2 + kJobTimeoutNs)
  plain (dequantiseOutput arith b (d.job maps) b.outputElements.toNat 0)

/-- C++ says what follows: an answer, or an exception. -/
def defined : Except Halt (List UInt64) → Bool
  | .ok _ => true
  | .error (.throws _) => true
  | .error .outOfRange => false
  | .error .overflow => false

/-- `EthosU85DrmExecutor::run`, from the log so far. The locals are destroyed where the behaviour is defined. -/
def run (arith : Arithmetic) (d : Driver) (o : Order) (fd : Int) (b : Bundle) (input : List UInt64) (log : List Call) :
    Except Halt (List UInt64) × List Call :=
  let (result, f) := leave (body arith d fd b input) { log }
  (result, if defined result = true then f.log ++ f.unwind o else f.log)

/-! ## The locals and the kernel -/

/-- What a handle of the process is to the kernel. -/
def GemHandle.key (h : GemHandle) : Int × UInt32 := (h.fd, h.value)

/-- The kernel holds what the destructors of the locals would give back, and the file. -/
structure Owns (fd : Int) (f : Frame) : Prop where
  orderly : Orderly f.log
  nonneg : 0 ≤ fd
  files : (kernel f.log).files = [fd]
  handles : (kernel f.log).handles.Perm ((f.handles ++ f.command.toList).map GemHandle.key)
  nodup : (kernel f.log).handles.Nodup
  own : ∀ h ∈ f.handles ++ f.command.toList, h.fd = fd ∧ h.value ≠ 0
  maps : ((kernel f.log).maps.map unmapCall).Perm (f.maps.flatMap Mapping.destroy)
  mapped : ∀ m ∈ (kernel f.log).maps, ∃ h ∈ f.handles, (m.fd, m.handle) = h.key

section
variable {fd : Int} {f : Frame} {handle : UInt32}

theorem Owns.start (hfd : 0 ≤ fd) {log : List Call} (horderly : Orderly log) (hk : kernel log = { files := [fd] }) :
    Owns fd { log } := by
  refine ⟨horderly, hfd, ?_, ?_, ?_, ?_, ?_, ?_⟩ <;> simp [hk]

/-- A call that takes nothing and gives nothing back. -/
theorem Owns.note (h : Owns fd f) {c : Call} (hafter : (kernel f.log).after c = kernel f.log)
    (hallows : (kernel f.log).Allows c) : Owns fd { f with log := f.log ++ [c] } := by
  have hk : kernel (f.log ++ [c]) = kernel f.log := by rw [kernel_concat, hafter]
  refine ⟨orderly_concat.mpr ⟨h.orderly, hallows⟩, h.nonneg, ?_, ?_, ?_, h.own, ?_, ?_⟩
  · rw [hk]
    exact h.files
  · rw [hk]
    exact h.handles
  · rw [hk]
    exact h.nodup
  · rw [hk]
    exact h.maps
  · rw [hk]
    exact h.mapped

theorem Owns.allows_create (h : Owns fd f) (hnew : NewHandle fd f.log handle) :
    (kernel f.log).Allows (.create fd handle) := by
  refine ⟨?_, hnew⟩
  rw [h.files]
  exact List.mem_singleton_self fd

/-- A new buffer, in a frame that differs from the one before by the local that holds it. -/
theorem Owns.create (h : Owns fd f) (hnew : NewHandle fd f.log handle) {f' : Frame}
    (hlog : f'.log = f.log ++ [.create fd handle]) (hmaps : f'.maps = f.maps)
    (hlocals : (f'.handles ++ f'.command.toList).Perm (⟨fd, handle⟩ :: (f.handles ++ f.command.toList)))
    (hkeeps : ∀ g ∈ f.handles, g ∈ f'.handles) : Owns fd f' := by
  have hk : kernel f'.log = { kernel f.log with handles := (fd, handle) :: (kernel f.log).handles } := by
    rw [hlog, kernel_concat]
    rfl
  refine ⟨?_, h.nonneg, ?_, ?_, ?_, ?_, ?_, ?_⟩
  · rw [hlog]
    exact orderly_concat.mpr ⟨h.orderly, h.allows_create hnew⟩
  · rw [hk]
    exact h.files
  · rw [hk]
    exact (h.handles.cons (fd, handle)).trans (hlocals.map GemHandle.key).symm
  · rw [hk]
    exact List.nodup_cons.mpr ⟨hnew.2, h.nodup⟩
  · intro g hg
    rcases List.mem_cons.mp (hlocals.mem_iff.mp hg) with rfl | hg
    · exact ⟨rfl, hnew.1⟩
    · exact h.own g hg
  · rw [hk, hmaps]
    exact h.maps
  · rw [hk]
    intro m hm
    obtain ⟨g, hg, hkey⟩ := h.mapped m hm
    exact ⟨g, hkeeps g hg, hkey⟩

theorem Owns.map (h : Owns fd f) (hhandle : ⟨fd, handle⟩ ∈ f.handles) {address size : Nat}
    (hnew : ∀ m ∈ (kernel f.log).maps, m.address ≠ address) :
    Owns fd { f with log := f.log ++ [.map fd handle address size], maps := f.maps ++ [⟨some address, size⟩] } := by
  have hk : kernel (f.log ++ [.map fd handle address size]) =
      { kernel f.log with maps := ⟨fd, handle, address, size⟩ :: (kernel f.log).maps } := by
    rw [kernel_concat]
    rfl
  have hopen : (fd, handle) ∈ (kernel f.log).handles :=
    h.handles.mem_iff.mpr (List.mem_map.mpr ⟨_, List.mem_append_left _ hhandle, rfl⟩)
  refine ⟨orderly_concat.mpr ⟨h.orderly, hopen, hnew⟩, h.nonneg, ?_, ?_, ?_, h.own, ?_, ?_⟩
  · rw [hk]
    exact h.files
  · rw [hk]
    exact h.handles
  · rw [hk]
    exact h.nodup
  · rw [hk, List.flatMap_append]
    exact (h.maps.cons _).trans (List.perm_append_singleton _ _).symm
  · rw [hk]
    intro m hm
    rcases List.mem_cons.mp hm with rfl | hm
    · exact ⟨_, hhandle, rfl⟩
    · exact h.mapped m hm

/-! ## The unwinding -/

theorem destroy_own {hs : List GemHandle} (hfd : 0 ≤ fd) (h : ∀ g ∈ hs, g.fd = fd ∧ g.value ≠ 0) :
    hs.flatMap GemHandle.destroy = (hs.map GemHandle.key).map closeCall := by
  induction hs with
  | nil => rfl
  | cons g hs ih =>
    obtain ⟨rfl, hvalue⟩ := h g List.mem_cons_self
    have hone : g.destroy = [closeCall g.key] := if_pos ⟨hfd, hvalue⟩
    rw [List.flatMap_cons, hone, ih fun g' hg' => h g' (List.mem_cons_of_mem g hg')]
    rfl

theorem map_eraseP_unmapCall (c : Call) (maps : List Mapped) :
    (maps.eraseP fun m => unmapCall m = c).map unmapCall = (maps.map unmapCall).erase c := by
  induction maps with
  | nil => rfl
  | cons m maps ih =>
    by_cases hm : unmapCall m = c
    · simp [hm]
    · simp [hm, ih]

/-- By induction over the calls: each finds its mapping, whatever the order. -/
theorem unmap_all {k : Kernel} {calls : List Call} (h : calls.Perm (k.maps.map unmapCall)) :
    EachStep Kernel.after Kernel.Allows k calls ∧ exec Kernel.after k calls = { k with maps := [] } := by
  induction calls generalizing k with
  | nil =>
    have hnil : k.maps = [] := List.map_eq_nil_iff.mp h.nil_eq.symm
    exact ⟨trivial, by rw [exec_nil, ← hnil]⟩
  | cons c calls ih =>
    obtain ⟨m, hm, rfl⟩ := List.mem_map.mp (h.mem_iff.mp List.mem_cons_self)
    have hrest : calls.Perm ((k.after (unmapCall m)).maps.map unmapCall) := by
      show calls.Perm ((k.maps.eraseP fun m' => unmapCall m' = unmapCall m).map unmapCall)
      rw [map_eraseP_unmapCall]
      exact (List.cons_perm_iff_perm_erase.mp h).2
    obtain ⟨heach, hexec⟩ := ih hrest
    exact ⟨⟨⟨m, hm, rfl⟩, heach⟩, hexec⟩

theorem close_all {k : Kernel} {keys : List (Int × UInt32)} (h : keys.Perm k.handles) (hmaps : k.maps = []) :
    EachStep Kernel.after Kernel.Allows k (keys.map closeCall) ∧
      exec Kernel.after k (keys.map closeCall) = { k with handles := [] } := by
  induction keys generalizing k with
  | nil =>
    have hnil : k.handles = [] := h.nil_eq.symm
    exact ⟨trivial, by rw [List.map_nil, exec_nil, ← hnil]⟩
  | cons key keys ih =>
    obtain ⟨hmem, hrest⟩ := List.cons_perm_iff_perm_erase.mp h
    obtain ⟨heach, hexec⟩ := ih (k := k.after (closeCall key)) hrest hmaps
    refine ⟨⟨⟨hmem, ?_⟩, heach⟩, hexec⟩
    rw [hmaps]
    simp

/-- The handle of the command stream is closed first, while the regions are still mapped. -/
theorem Owns.close_command (h : Owns fd f) :
    ∃ handles, handles.Perm (f.handles.map GemHandle.key) ∧
      EachStep Kernel.after Kernel.Allows (kernel f.log) (f.command.toList.flatMap GemHandle.destroy) ∧
      exec Kernel.after (kernel f.log) (f.command.toList.flatMap GemHandle.destroy) =
        { kernel f.log with handles := handles } := by
  have hperm := h.handles
  cases hc : f.command with
  | none =>
    rw [hc, Option.toList_none, List.append_nil] at hperm
    exact ⟨_, hperm, trivial, rfl⟩
  | some c =>
    rw [hc, Option.toList_some, List.map_append] at hperm
    have hown := h.own
    rw [hc, Option.toList_some] at hown
    rw [Option.toList_some, destroy_own h.nonneg fun g hg => hown g (List.mem_append_right _ hg)]
    have hmem : c.key ∈ (kernel f.log).handles := hperm.mem_iff.mpr (List.mem_append_right _ (List.mem_singleton_self _))
    have hcons : (c.key :: f.handles.map GemHandle.key).Perm (kernel f.log).handles :=
      (List.perm_append_singleton _ _).symm.trans hperm.symm
    -- no mapping is of the command stream: they are of the regions, and no handle is held twice
    have hfree : ∀ m ∈ (kernel f.log).maps, (m.fd, m.handle) ≠ c.key := by
      intro m hm hkey
      obtain ⟨g, hg, hgkey⟩ := h.mapped m hm
      have hdistinct := (List.nodup_cons.mp (hcons.nodup_iff.mpr h.nodup)).1
      exact hdistinct (List.mem_map.mpr ⟨g, hg, hgkey.symm.trans hkey⟩)
    exact ⟨_, (List.cons_perm_iff_perm_erase.mp hcons).2.symm, ⟨⟨hmem, hfree⟩, trivial⟩, rfl⟩

theorem Owns.unwound (h : Owns fd f) (o : Order) :
    Orderly (f.log ++ f.unwind o) ∧ kernel (f.log ++ f.unwind o) = { files := [fd] } := by
  obtain ⟨handles, hhandles, hclose, hclosed⟩ := h.close_command
  have hmaps : ((o.order f.maps).flatMap Mapping.destroy).Perm ((kernel f.log).maps.map unmapCall) :=
    ((o.perm f.maps).flatMap_right _).trans h.maps.symm
  obtain ⟨hunmap, hunmapped⟩ := unmap_all (k := { kernel f.log with handles := handles }) hmaps
  have hregions : (o.order f.handles).flatMap GemHandle.destroy = ((o.order f.handles).map GemHandle.key).map closeCall :=
    destroy_own h.nonneg fun g hg => h.own g (List.mem_append_left _ ((o.perm f.handles).mem_iff.mp hg))
  obtain ⟨hfree, hfreed⟩ := close_all (k := { files := (kernel f.log).files, handles := handles, maps := [] })
    (((o.perm f.handles).map GemHandle.key).trans hhandles.symm) rfl
  refine ⟨orderly_append.mpr ⟨h.orderly, ?_⟩, ?_⟩
  · rw [Frame.unwind, eachStep_append, hclosed, eachStep_append, hunmapped, hregions]
    exact ⟨hclose, hunmap, hfree⟩
  · rw [kernel_append, Frame.unwind, exec_append, hclosed, exec_append, hunmapped, hregions, hfreed, h.files]

/-! ## The steps of a run -/

variable {d : Driver}

theorem leave_call {α : Type} (what : Bytes) (answer : List Call → Except Bytes α) (made : α → Call) (f : Frame) :
    leave (call what answer made) f = match answer f.log with
      | .error why => (.error (.throws (what ++ why)), f)
      | .ok a => (.ok a, { f with log := f.log ++ [made a] }) := rfl

theorem leaves_call {α : Type} {what : Bytes} {answer : List Call → Except Bytes α} {made : α → Call} :
    Leaves (call what answer made) f (fun a f' => answer f.log = .ok a ∧ f' = { f with log := f.log ++ [made a] })
      fun e f' => (∃ why, e = .throws (what ++ why)) ∧ f' = f := by
  unfold Leaves
  rw [leave_call]
  cases answer f.log with
  | ok a => exact ⟨rfl, rfl⟩
  | error why => exact ⟨⟨why, rfl⟩, rfl⟩

/-- Between two turns of the loop: what is held is mapped too. -/
structure Loaded (fd : Int) (f : Frame) : Prop extends Owns fd f where
  command : f.command = none
  all : ∀ h ∈ f.handles, ∃ m ∈ (kernel f.log).maps, (m.fd, m.handle) = h.key

/-- After the two calls of a turn that succeed. -/
theorem Loaded.next (h : Loaded fd f) (howns : Owns fd { f with
      log := f.log ++ [.create fd handle], handles := f.handles ++ [⟨fd, handle⟩] }) {address size : Nat}
    (hnew : ∀ m ∈ (kernel (f.log ++ [.create fd handle])).maps, m.address ≠ address) :
    Loaded fd { f with
      log := f.log ++ [.create fd handle] ++ [.map fd handle address size]
      handles := f.handles ++ [⟨fd, handle⟩]
      maps := f.maps ++ [⟨some address, size⟩] } := by
  refine ⟨howns.map (List.mem_append_right _ (List.mem_singleton_self _)) hnew, h.command, ?_⟩
  have hk : (kernel (f.log ++ [.create fd handle] ++ [.map fd handle address size])).maps =
      ⟨fd, handle, address, size⟩ :: (kernel f.log).maps := by
    rw [kernel_concat, kernel_concat]
    rfl
  intro g hg
  rw [hk]
  rcases List.mem_append.mp hg with hg | hg
  · obtain ⟨m, hm, hkey⟩ := h.all g hg
    exact ⟨m, List.mem_cons_of_mem _ hm, hkey⟩
  · rw [List.mem_singleton.mp hg]
    exact ⟨_, List.mem_cons_self, rfl⟩

/-- One turn. It can throw with the handle in its vector and nothing mapped, which `Owns` allows. -/
theorem mapRegion_owns (h : Loaded fd f) (region : Bytes) :
    Leaves (mapRegion d fd region) f (fun _ f' => Loaded fd f') fun _ f' => Owns fd f' := by
  unfold mapRegion
  refine leaves_bind (leaves_call.mono (fun _ _ h => h) ?_) ?_
  · rintro _ _ ⟨-, rfl⟩
    exact h.toOwns
  rintro handle _ ⟨hcreate, rfl⟩
  have howns : Owns fd { f with log := f.log ++ [.create fd handle], handles := f.handles ++ [⟨fd, handle⟩] } := by
    refine h.toOwns.create (d.boCreate_new fd f.log handle hcreate) rfl rfl ?_ fun g hg => List.mem_append_left _ hg
    rw [h.command, Option.toList_none, List.append_nil, List.append_nil]
    exact List.perm_append_singleton _ _
  refine leaves_bind (Q := fun _ f' => f' = _) (rfl : _ = _) ?_
  rintro _ _ rfl
  refine leaves_bind (Q := fun _ f' => f' = _) (rfl : _ = _) ?_
  rintro _ _ rfl
  refine leaves_bind ((leaves_plain (failed_ends _ _)).mono (fun _ _ h => h) ?_) ?_
  · rintro _ _ ⟨-, rfl⟩
    exact howns
  rintro _ _ ⟨-, rfl⟩
  refine leaves_bind (leaves_call.mono (fun _ _ h => h) ?_) ?_
  · rintro _ _ ⟨-, rfl⟩
    exact howns
  rintro address _ ⟨hmmap, rfl⟩
  exact h.next howns (d.mmap_new _ address hmmap)

/-- By induction over the regions, `Loaded` being what a turn keeps. -/
theorem mapRegions_owns (h : Loaded fd f) (regions : List Bytes) :
    Leaves (mapRegions d fd regions) f (fun _ f' => Loaded fd f') fun _ f' => Owns fd f' := by
  induction regions generalizing f with
  | nil => exact h
  | cons region regions ih =>
    rw [mapRegions]
    refine leaves_bind (mapRegion_owns h region) fun _ f' hf' => ?_
    exact leaves_bind (ih hf') fun _ _ hf'' => leaves_pure hf''

theorem regionHandles_ends (hs : List GemHandle) :
    Ends (regionHandles hs)
      (fun regions => hs.length ≤ kMaxRegions ∧ regions = hs.map GemHandle.value ++ List.replicate (kMaxRegions - hs.length) 0)
      fun e => e = .outOfRange ∧ kMaxRegions < hs.length := by
  unfold regionHandles
  exact ends_bind (ends_stopIf fun h => ⟨rfl, h⟩) fun _ h => ends_pure ⟨Nat.not_lt.mp h, rfl⟩

theorem handleAt_ends (hs : List GemHandle) (i : Nat) :
    Ends (handleAt hs i) (fun v => ∃ h ∈ hs, h.value = v) fun e => e = .outOfRange ∧ hs.length ≤ i := by
  unfold handleAt
  cases hget : hs[i]? with
  | some h => exact ⟨h, List.mem_of_getElem? hget, rfl⟩
  | none => exact ⟨rfl, List.getElem?_eq_none_iff.mp hget⟩

/-- The frame once the command stream has its buffer. -/
def commanded (fd : Int) (f : Frame) (command : UInt32) : Frame :=
  { f with log := f.log ++ [.create fd command], command := some ⟨fd, command⟩ }

variable {command : UInt32}

theorem kernel_commanded : kernel (commanded fd f command).log =
    { kernel f.log with handles := (fd, command) :: (kernel f.log).handles } := by
  unfold commanded
  rw [kernel_concat]
  rfl

theorem Loaded.owns_commanded (h : Loaded fd f) (hnew : NewHandle fd f.log command) : Owns fd (commanded fd f command) := by
  refine h.toOwns.create hnew rfl rfl ?_ fun g hg => hg
  show (f.handles ++ [(⟨fd, command⟩ : GemHandle)]).Perm _
  rw [h.command, Option.toList_none, List.append_nil]
  exact List.perm_append_singleton _ _

/-- The job names the command stream and the regions, which are distinct and mapped. -/
theorem Loaded.allows_submit (h : Loaded fd f) (hnew : NewHandle fd f.log command) (sramSize : UInt32)
    (hle : f.handles.length ≤ kMaxRegions) :
    (kernel (commanded fd f command).log).Allows (.submit fd ⟨command, sramSize,
      f.handles.map GemHandle.value ++ List.replicate (kMaxRegions - f.handles.length) 0⟩) := by
  rw [kernel_commanded]
  refine ⟨List.mem_cons_self, ?_, ?_, ?_⟩
  · intro hmem
    rcases List.mem_append.mp hmem with hmem | hmem
    · obtain ⟨g, hg, hvalue⟩ := List.mem_map.mp hmem
      have hkey : (fd, command) = g.key := Prod.ext (h.own g (List.mem_append_left _ hg)).1.symm hvalue.symm
      refine hnew.2 (h.handles.mem_iff.mpr ?_)
      rw [hkey]
      exact List.mem_map.mpr ⟨g, List.mem_append_left _ hg, rfl⟩
    · exact hnew.1 (List.eq_of_mem_replicate hmem)
  · show (f.handles.map GemHandle.value ++ List.replicate (kMaxRegions - f.handles.length) 0).length = kMaxRegions
    rw [List.length_append, List.length_map, List.length_replicate]
    omega
  · intro handle hmem hne
    rcases List.mem_append.mp hmem with hmem | hmem
    · obtain ⟨g, hg, rfl⟩ := List.mem_map.mp hmem
      obtain ⟨m, hm, hkey⟩ := h.all g hg
      refine ⟨m, hm, ?_⟩
      rw [hkey, GemHandle.key, (h.own g (List.mem_append_left _ hg)).1]
    · exact absurd (List.eq_of_mem_replicate hmem) hne

theorem Owns.allows_wait (h : Owns fd f) {v : UInt32} (hv : ∃ g ∈ f.handles, g.value = v) (deadline : Int) :
    (kernel f.log).Allows (.wait fd v deadline) := by
  obtain ⟨g, hg, rfl⟩ := hv
  refine h.handles.mem_iff.mpr (List.mem_map.mpr ⟨g, List.mem_append_left _ hg, ?_⟩)
  rw [GemHandle.key, (h.own g (List.mem_append_left _ hg)).1]

/-- Whatever fails, the locals hold what the kernel holds. -/
theorem body_owns (arith : Arithmetic) (h : Loaded fd f) (b : Bundle) (input : List UInt64) :
    Leaves (body arith d fd b input) f (fun _ f' => Owns fd f') fun _ f' => Owns fd f' := by
  have hplain : ∀ {α : Type} (x : Except Halt α), Ends x (fun _ => True) fun _ => True := by
    intro α x
    cases x <;> trivial
  unfold body
  refine leaves_bind ((leaves_plain (hplain _)).mono (fun _ _ h => h) fun _ _ he => he.2 ▸ h.toOwns) ?_
  rintro _ _ ⟨-, rfl⟩
  refine leaves_bind ((leaves_plain (hplain _)).mono (fun _ _ h => h) fun _ _ he => he.2 ▸ h.toOwns) ?_
  rintro _ _ ⟨-, rfl⟩
  refine leaves_bind (mapRegions_owns h b.regions) fun maps f hf => ?_
  refine leaves_bind ((leaves_plain (hplain _)).mono (fun _ _ h => h) fun _ _ he => he.2 ▸ hf.toOwns) ?_
  rintro maps _ ⟨-, rfl⟩
  refine leaves_bind (leaves_call.mono (fun _ _ h => h) fun _ _ he => he.2 ▸ hf.toOwns) ?_
  rintro command _ ⟨hcreate, rfl⟩
  have hnew := d.cmdstreamCreate_new fd _ command hcreate
  have howns := hf.owns_commanded hnew
  refine leaves_bind (Q := fun _ f' => f' = commanded fd _ command) (rfl : _ = _) ?_
  rintro _ _ rfl
  refine leaves_bind (Q := fun a f' => a = commanded fd _ command ∧ f' = a) ⟨rfl, rfl⟩ ?_
  rintro _ _ ⟨rfl, rfl⟩
  refine leaves_bind ((leaves_plain (regionHandles_ends _)).mono (fun _ _ h => h) fun _ _ he => he.2 ▸ howns) ?_
  rintro regions _ ⟨⟨hle, rfl⟩, rfl⟩
  refine leaves_bind (leaves_call.mono (fun _ _ h => h) fun _ _ he => he.2 ▸ howns) ?_
  rintro _ _ ⟨-, rfl⟩
  have hsubmitted := howns.note rfl (hf.allows_submit hnew b.sramSize hle)
  refine leaves_bind ((leaves_plain (hplain _)).mono (fun _ _ h => h) fun _ _ he => he.2 ▸ hsubmitted) ?_
  rintro now _ ⟨-, rfl⟩
  refine leaves_bind ((leaves_plain (handleAt_ends _ _)).mono (fun _ _ h => h) fun _ _ he => he.2 ▸ hsubmitted) ?_
  rintro output _ ⟨hmem, rfl⟩
  refine leaves_bind (leaves_call.mono (fun _ _ h => h) fun _ _ he => he.2 ▸ hsubmitted) ?_
  rintro _ _ ⟨-, rfl⟩
  have hwaited := hsubmitted.note rfl (hsubmitted.allows_wait hmem (now.1 * 1000000000 + now.2 + kJobTimeoutNs))
  exact (leaves_plain (hplain _)).mono (fun _ _ he => he.2 ▸ hwaited) fun _ _ he => he.2 ▸ hwaited

/-- However the run ends, the kernel is left with the file alone. -/
theorem run_gives_back (arith : Arithmetic) (o : Order) (hfd : 0 ≤ fd) {log : List Call} (horderly : Orderly log)
    (hk : kernel log = { files := [fd] }) (b : Bundle) (input : List UInt64) :
    Orderly (run arith d o fd b input log).2 ∧
      (defined (run arith d o fd b input log).1 = true → kernel (run arith d o fd b input log).2 = { files := [fd] }) := by
  have hloaded : Loaded fd { log } := by
    refine ⟨Owns.start hfd horderly hk, rfl, ?_⟩
    intro h hh
    cases hh
  have hbody := body_owns (d := d) arith hloaded b input
  have howns : Owns fd (leave (body arith d fd b input) { log }).2 := by
    unfold Leaves at hbody
    cases hr : (leave (body arith d fd b input) { log }).1 with
    | ok output =>
      rw [hr] at hbody
      exact hbody
    | error e =>
      rw [hr] at hbody
      exact hbody
  unfold run
  dsimp only
  split
  · exact ⟨(howns.unwound o).1, fun _ => (howns.unwound o).2⟩
  · exact ⟨howns.orderly, fun h => absurd h ‹_›⟩

end

end Overhauled.Npu.Drm
