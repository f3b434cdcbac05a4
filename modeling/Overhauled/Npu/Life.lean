/-
  Overhauled.Npu.Life — the life of an Ethos-U85 executor (`EthosU85DrmExecutor` and its
  `Impl` in `src/ethosu_u85_drm_executor.cpp`): it loads its bundle, looks for a device and
  opens it, serves calls of `run` one after the other, and closes the file.

  A run with its locals has the result of `Npu.run` with the device the driver amounts to
  (`run_refines`), so what holds of `Npu.run` for accepted bundles holds here. Between two
  runs the kernel holds the file and nothing else (`Resting`), and an executor's life ends
  with nothing held (`executor_gives_everything_back`).
-/

import Overhauled.Npu.Drm

namespace Overhauled.Npu.Drm

open Wire Machine

/-! ## The run without its locals -/

section
variable {d : Driver} {fd : Int} {f : Frame}

def reason {α : Type} : Except Bytes α → Option Bytes
  | .error why => some why
  | .ok _ => none

/-- How the three calls for a region fail, if they do. -/
structure Reasons where
  create : Option Bytes
  offset : Option Bytes
  map : Option Bytes

def reasons (d : Driver) (fd : Int) (f : Frame) : Reasons :=
  let created := (leave (call (ascii "Ethos-U BO_CREATE failed: ") (d.boCreate fd) (.create fd)) f).2
  ⟨reason (d.boCreate fd f.log), d.boMmapOffset fd created.log, reason (d.mmap created.log)⟩

/-- The frame when the `i`-th turn begins. -/
def frameAt (d : Driver) (fd : Int) (regions : List Bytes) (f : Frame) (i : Nat) : Frame :=
  (leave (mapRegions d fd (regions.take i)) f).2

/-- The job, once the command stream has its buffer. -/
def jobAt (d : Driver) (fd : Int) (b : Bundle) (f : Frame) : Job :=
  { cmdBo := match d.cmdstreamCreate fd f.log with
      | .ok command => command
      | .error _ => 0
    sramSize := b.sramSize
    regionBoHandles := f.handles.map GemHandle.value ++ List.replicate (kMaxRegions - f.handles.length) 0 }

/-- The driver as a run without locals sees it. -/
def Driver.device (d : Driver) (fd : Int) (b : Bundle) (log : List Call) : Device where
  opened := decide (0 ≤ fd)
  boCreate i := (reasons d fd (frameAt d fd b.regions { log } i)).create
  boMmapOffset i := (reasons d fd (frameAt d fd b.regions { log } i)).offset
  mmap i := (reasons d fd (frameAt d fd b.regions { log } i)).map
  cmdstreamCreate := reason (d.cmdstreamCreate fd (frameAt d fd b.regions { log } b.regions.length).log)
  submit := d.submit (jobAt d fd b (frameAt d fd b.regions { log } b.regions.length))
  clockFails := d.clock.isNone
  boWait := d.boWait
  job := d.job
  sizes := d.sizes

def Device.reasonsAt (device : Device) (i : Nat) : Reasons :=
  ⟨device.boCreate i, device.boMmapOffset i, device.mmap i⟩

theorem follows_call {α β : Type} {what : Bytes} {answer : List Call → Except Bytes α} {made : α → Call}
    {g : α → ExceptT Halt (StateM Frame) β} {y : Except Halt β} {R : β → Frame → Prop}
    (h : ∀ a, answer f.log = .ok a → Follows (g a) { f with log := f.log ++ [made a] } y R) :
    Follows (call what answer made >>= g) f (failed what (reason (answer f.log)) >>= fun _ => y) R := by
  unfold Follows Leaves
  rw [leave_bind, leave_call]
  cases ha : answer f.log with
  | ok a => exact h a ha
  | error why => exact rfl

theorem mapRegion_follows {device : Device} {i : Nat} (h : Device.reasonsAt device i = reasons d fd f) (region : Bytes) :
    Follows (mapRegion d fd region) f (Npu.mapRegion device i region)
      fun _ f' => f'.handles.length = f.handles.length + 1 := by
  obtain ⟨hcreate, hoffset, hmap⟩ := Reasons.mk.inj h
  unfold mapRegion Npu.mapRegion
  rw [hcreate, hoffset, hmap]
  refine follows_call fun handle hhandle => ?_
  have hlog : (leave (call (ascii "Ethos-U BO_CREATE failed: ") (d.boCreate fd) (.create fd)) f).2.log =
      f.log ++ [.create fd handle] := by
    rw [leave_call, hhandle]
  rw [hlog]
  refine follows_skip (R := fun _ f' => f' = _) (rfl : _ = _) ?_
  rintro _ _ rfl
  refine follows_skip (R := fun a f' => a = _ ∧ f' = a) ⟨rfl, rfl⟩ ?_
  rintro _ _ ⟨rfl, rfl⟩
  refine follows_bind (follows_plain _) ?_
  rintro _ _ rfl
  refine follows_call fun address _ => ?_
  refine follows_skip (R := fun _ f' => f' = _) (rfl : _ = _) ?_
  rintro _ _ rfl
  exact follows_pure List.length_append

/-- A turn that answers leads to the next one's frame. -/
theorem frameAt_succ {region map : Bytes} {regions : List Bytes} {f' : Frame}
    (h : leave (mapRegion d fd region) f = (.ok map, f')) (j : Nat) :
    frameAt d fd (region :: regions) f (j + 1) = frameAt d fd regions f' j := by
  unfold frameAt
  rw [List.take_succ_cons, mapRegions, leave_bind, h]
  dsimp only
  rw [leave_bind]
  cases leave (mapRegions d fd (regions.take j)) f' with
  | mk x f'' => cases x <;> rfl

/-- By induction over the regions, the device being asked from the `i`-th region on. -/
theorem mapRegions_follows {device : Device} {i : Nat} {regions : List Bytes}
    (h : ∀ j < regions.length, Device.reasonsAt device (i + j) = reasons d fd (frameAt d fd regions f j)) :
    Follows (mapRegions d fd regions) f (Npu.mapRegions device i regions)
      fun _ f' => f'.handles.length = f.handles.length + regions.length := by
  induction regions generalizing i f with
  | nil => exact follows_pure rfl
  | cons region regions ih =>
    have hfirst : Device.reasonsAt device i = reasons d fd f := h 0 (Nat.zero_lt_succ _)
    have hturn := (mapRegion_follows hfirst region).left
    rw [mapRegions, Npu.mapRegions]
    cases hl : leave (mapRegion d fd region) f with
    | mk x f₁ =>
      rw [hl] at hturn
      cases x with
      | error e =>
        -- the turn throws, and so does the loop
        have hresult := hturn.result
        rw [hl] at hresult
        unfold Follows Leaves
        rw [leave_bind, hl, ← hresult]
        rfl
      | ok map =>
        refine follows_bind hturn ?_
        rintro _ f₁ ⟨rfl, hlength⟩
        have hrest : ∀ j < regions.length,
            Device.reasonsAt device (i + 1 + j) = reasons d fd (frameAt d fd regions f₁ j) := by
          intro j hj
          rw [← frameAt_succ hl, ← h (j + 1) (Nat.succ_lt_succ hj), Nat.add_assoc, Nat.add_comm 1 j]
        refine follows_bind (ih hrest) fun maps f₂ hlength' => follows_pure ?_
        rw [hlength', hlength, List.length_cons]
        omega

theorem stopIf_congr {ε : Type} {c c' : Prop} [Decidable c] [Decidable c'] (h : c ↔ c') (e : ε) :
    stopIf c e = stopIf c' e := by
  unfold stopIf
  exact if_congr h rfl rfl

/-- The clock's reading is only used for the deadline. -/
theorem follows_clock {β : Type} {g : Int × Int → ExceptT Halt (StateM Frame) β} {y : Except Halt β}
    {R : β → Frame → Prop} (h : ∀ now, Follows (g now) f y R) :
    Follows (plain (readClock d) >>= g) f
      (stopIf (d.clock.isNone = true) (.throws (ascii "clock_gettime failed while waiting for Ethos-U job")) >>= fun _ => y)
      R := by
  unfold readClock
  cases d.clock with
  | some now => exact h now
  | none => exact rfl

theorem answered_reason (why : Option Bytes) : reason (answered why) = why := by
  cases why <;> rfl

theorem body_follows (arith : Arithmetic) {b : Bundle} (hb : WellFormed b) (input : List UInt64) (log : List Call) :
    Follows (body arith d fd b input) { log } (Npu.run arith (d.device fd b log) b input) fun _ _ => True := by
  have hopened : fd < 0 ↔ (d.device fd b log).opened = false := by
    show _ ↔ decide (0 ≤ fd) = false
    rw [decide_eq_false_iff_not, not_le]
  unfold body Npu.run
  rw [stopIf_congr hopened]
  refine follows_bind (follows_plain _) ?_
  rintro _ _ rfl
  refine follows_bind (follows_plain _) ?_
  rintro _ _ rfl
  have hregions : ∀ j < b.regions.length,
      Device.reasonsAt (d.device fd b log) (0 + j) = reasons d fd (frameAt d fd b.regions { log } j) := by
    intro j _
    rw [Nat.zero_add]
    rfl
  refine follows_bind (mapRegions_follows hregions).left ?_
  rintro maps f ⟨hframe, hlength⟩
  have hat : frameAt d fd b.regions { log } b.regions.length = f := by
    rw [frameAt, List.take_length, hframe]
  have hcount : f.handles.length = b.regions.length := by
    rw [hlength]
    exact Nat.zero_add _
  refine follows_bind (follows_plain _) ?_
  rintro maps f rfl
  show Follows _ _ (failed _ (reason (d.cmdstreamCreate fd (frameAt d fd b.regions { log } b.regions.length).log)) >>= _) _
  rw [hat]
  refine follows_call fun command hcommand => ?_
  refine follows_skip (R := fun _ f' => f' = _) (rfl : _ = _) ?_
  rintro _ _ rfl
  refine follows_skip (R := fun a f' => a = _ ∧ f' = a) ⟨rfl, rfl⟩ ?_
  rintro _ _ ⟨rfl, rfl⟩
  -- the array of the job has room for every region of a well-formed bundle
  have hroom : ∀ e, (e = Halt.outOfRange ∧ kMaxRegions < f.handles.length) → False := by
    intro e he
    have := hb.count.2
    omega
  refine follows_skip ((leaves_plain (regionHandles_ends _)).mono (fun _ _ h => h) fun e _ he => hroom e he.1) ?_
  rintro regions _ ⟨⟨-, rfl⟩, rfl⟩
  have hjob : (d.device fd b log).submit = reason (answered (d.submit
      ⟨command, b.sramSize, f.handles.map GemHandle.value ++ List.replicate (kMaxRegions - f.handles.length) 0⟩)) := by
    show d.submit (jobAt d fd b (frameAt d fd b.regions { log } b.regions.length)) = _
    rw [answered_reason, hat, jobAt, hcommand]
  rw [hjob]
  refine follows_call fun _ _ => ?_
  refine follows_clock fun now => ?_
  -- and the output's region has its handle
  have houtput : ∀ e, (e = Halt.outOfRange ∧ f.handles.length ≤ b.outputRegion.toNat) → False := by
    intro e he
    have := hb.indices.2
    omega
  refine follows_skip ((leaves_plain (handleAt_ends _ _)).mono (fun _ _ h => h) fun e _ he => houtput e he.1) ?_
  rintro output _ ⟨-, rfl⟩
  have hwait : (d.device fd b log).boWait = reason (answered d.boWait) := (answered_reason _).symm
  rw [hwait]
  refine follows_call fun _ _ => ?_
  exact (follows_plain _).mono (fun _ _ h => ⟨h.1, trivial⟩) fun _ _ h => h

theorem run_refines (arith : Arithmetic) (o : Order) {b : Bundle} (hb : WellFormed b) (input : List UInt64)
    (log : List Call) : (run arith d o fd b input log).1 = Npu.run arith (d.device fd b log) b input :=
  (body_follows arith hb input log).result

end

/-! ## The life of an executor -/

/-- What the process finds when the executor is built: the bundle's file, `ETHOSU_DRM_DEVICE`,
    the device files it may use, and how opening and asking one ends. -/
structure Env where
  file : Option Bytes
  getenv : Option Bytes
  access : Bytes → Bool
  openFile : Bytes → Option Int
  openFile_nonneg : ∀ path fd, openFile path = some fd → 0 ≤ fd
  query : Bool

def renderNode (i : Nat) : Bytes := ascii "/dev/dri/renderD" ++ decimal i

def scanDevices (env : Env) : Bytes := (((List.range' 128 128).map renderNode).find? env.access).getD []

def findDevice (env : Env) (requested : Bytes) : Bytes :=
  if requested ≠ [] then requested
  else match env.getenv with
    | some path => if path ≠ [] then path else scanDevices env
    | none => scanDevices env

/-- The descriptor, or -1, and the calls made. -/
def openEthosu (env : Env) (path : Bytes) : Int × List Call :=
  if path = [] then (-1, [])
  else match env.openFile path with
    | none => (-1, [])
    | some fd => if env.query = true then (fd, [.openFile fd]) else (-1, [.openFile fd, .closeFile fd])

/-- `EthosU85DrmExecutor::Impl` -/
structure Impl where
  bundle : Bundle
  path : Bytes
  fd : Int

/-- The bundle is loaded before a device is looked for. -/
def construct (env : Env) (bundlePath device : Bytes) : Except Stop Impl × List Call :=
  match loadBundle bundlePath env.file with
  | .error e => (.error e, [])
  | .ok bundle =>
    let path := findDevice env device
    let (fd, calls) := openEthosu env path
    (.ok ⟨bundle, path, fd⟩, calls)

/-- What `~Impl` calls. -/
def Impl.destroy (x : Impl) : List Call := if 0 ≤ x.fd then [.closeFile x.fd] else []

/-- One call of `run`: what the driver and the vectors do, and the input. -/
structure Use where
  driver : Driver
  order : Order
  input : List UInt64

/-- The calls of `run`, which `mutex` puts one after the other. -/
def Impl.runs (arith : Arithmetic) (x : Impl) : List Use → List Call → List (Except Halt (List UInt64)) × List Call
  | [], log => ([], log)
  | u :: us, log =>
    let (result, log) := run arith u.driver u.order x.fd x.bundle u.input log
    let (results, log) := x.runs arith us log
    (result :: results, log)

/-- An executor is built, used and destroyed. -/
def life (arith : Arithmetic) (env : Env) (bundlePath device : Bytes) (us : List Use) :
    List (Except Halt (List UInt64)) × List Call :=
  match construct env bundlePath device with
  | (.error _, log) => ([], log)
  | (.ok x, log) =>
    let (results, log) := x.runs arith us log
    (results, log ++ x.destroy)

section
variable (arith : Arithmetic)

theorem run_unavailable (d : Driver) (o : Order) {fd : Int} (hfd : fd < 0) (b : Bundle) (input : List UInt64)
    (log : List Call) : run arith d o fd b input log =
      (.error (.throws (ascii "mainline Ethos-U DRM device is unavailable")), log) := by
  have hbody : leave (body arith d fd b input) { log } =
      (.error (.throws (ascii "mainline Ethos-U DRM device is unavailable")), { log }) := by
    rw [body, leave_bind, leave_plain, stopIf, if_pos hfd]
  have hnone : Frame.unwind o { log } = [] := by
    unfold Frame.unwind
    rw [(o.perm _).eq_nil, (o.perm _).eq_nil]
    rfl
  rw [run, hbody]
  show (_, log ++ Frame.unwind o { log }) = _
  rw [hnone, List.append_nil]

/-- With a well-formed bundle only the overflow leaves what C++ defines. -/
theorem run_defined (d : Driver) (o : Order) (fd : Int) {b : Bundle} (hb : WellFormed b) (input : List UInt64)
    (log : List Call) (h : (run arith d o fd b input log).1 ≠ .error .overflow) :
    defined (run arith d o fd b input log).1 = true := by
  have hends := run_ends arith (d.device fd b log) hb input
  rw [← run_refines arith o hb input log] at hends
  cases hr : (run arith d o fd b input log).1 with
  | ok output => rfl
  | error e =>
    cases hends.of_error hr with
    | thrown msg => rfl
    | overflowed x hx => exact absurd hr h

/-- Between two runs the kernel holds the file, if there is one, and nothing else. -/
def Resting (fd : Int) (log : List Call) : Prop :=
  Orderly log ∧ kernel log = { files := if 0 ≤ fd then [fd] else [] }

theorem Impl.runs_rest {x : Impl} (hb : WellFormed x.bundle) (us : List Use) {log : List Call} (h : Resting x.fd log)
    (hover : ∀ r ∈ (x.runs arith us log).1, r ≠ .error .overflow) :
    Resting x.fd (x.runs arith us log).2 ∧ ∀ r ∈ (x.runs arith us log).1, defined r = true := by
  induction us generalizing log with
  | nil =>
    refine ⟨h, ?_⟩
    intro r hr
    cases hr
  | cons u us ih =>
    have hdefined := run_defined arith u.driver u.order x.fd hb u.input log (hover _ List.mem_cons_self)
    have hrest : Resting x.fd (run arith u.driver u.order x.fd x.bundle u.input log).2 := by
      by_cases hfd : 0 ≤ x.fd
      · unfold Resting at h ⊢
        rw [if_pos hfd] at h ⊢
        obtain ⟨horderly, hback⟩ := run_gives_back (d := u.driver) arith u.order hfd h.1 h.2 x.bundle u.input
        exact ⟨horderly, hback hdefined⟩
      · rw [run_unavailable arith u.driver u.order (not_le.mp hfd)]
        exact h
    obtain ⟨hresting, hall⟩ := ih hrest fun r hr => hover r (List.mem_cons_of_mem _ hr)
    refine ⟨hresting, ?_⟩
    intro r hr
    rcases List.mem_cons.mp hr with rfl | hr
    · exact hdefined
    · exact hall r hr

/-- The file can be closed when nothing else is held. -/
theorem allows_closeFile (fd : Int) : ({ files := [fd] } : Kernel).Allows (.closeFile fd) := by
  refine ⟨List.mem_singleton_self fd, ?_, ?_⟩ <;>
  · intro _ hmem
    cases hmem

theorem after_closeFile (fd : Int) : ({ files := [fd] } : Kernel).after (.closeFile fd) = {} := by
  show ({ files := List.erase [fd] fd } : Kernel) = _
  rw [List.erase_cons_head]

theorem openEthosu_rests (env : Env) (path : Bytes) : Resting (openEthosu env path).1 (openEthosu env path).2 := by
  unfold openEthosu
  split
  · exact ⟨trivial, rfl⟩
  · split
    · exact ⟨trivial, rfl⟩
    · next fd hopen =>
      have hfd := env.openFile_nonneg path fd hopen
      have hopened : ({} : Kernel).Allows (.openFile fd) := ⟨hfd, List.not_mem_nil⟩
      split
      · refine ⟨⟨hopened, trivial⟩, ?_⟩
        rw [if_pos hfd]
        rfl
      · exact ⟨⟨hopened, allows_closeFile fd, trivial⟩, after_closeFile fd⟩

theorem Impl.destroyed {x : Impl} {log : List Call} (h : Resting x.fd log) :
    Orderly (log ++ x.destroy) ∧ kernel (log ++ x.destroy) = {} := by
  obtain ⟨horderly, hk⟩ := h
  unfold Impl.destroy
  by_cases hfd : 0 ≤ x.fd
  · rw [if_pos hfd] at hk ⊢
    refine ⟨orderly_concat.mpr ⟨horderly, ?_⟩, ?_⟩
    · rw [hk]
      exact allows_closeFile x.fd
    · rw [kernel_concat, hk]
      exact after_closeFile x.fd
  · rw [if_neg hfd] at hk ⊢
    rw [List.append_nil]
    exact ⟨horderly, hk⟩

end

/-- Over an executor's life, whichever calls of the driver fail in whichever run: every call to
    the kernel was in order, at the end it holds nothing, and no access left its memory. -/
theorem executor_gives_everything_back (arith : Arithmetic) (env : Env) (bundlePath device : Bytes) (us : List Use)
    (h : ∀ r ∈ (life arith env bundlePath device us).1, r ≠ .error .overflow) :
    Orderly (life arith env bundlePath device us).2 ∧ kernel (life arith env bundlePath device us).2 = {} ∧
      ∀ r ∈ (life arith env bundlePath device us).1, defined r = true := by
  unfold life construct at h ⊢
  cases hload : loadBundle bundlePath env.file with
  | error e =>
    refine ⟨trivial, rfl, ?_⟩
    intro r hr
    cases hr
  | ok bundle =>
    rw [hload] at h
    have hb : WellFormed bundle := by
      cases hfile : env.file with
      | none =>
        rw [hfile] at hload
        cases hload
      | some file =>
        rw [hfile] at hload
        exact ((loadBundle_ok bundlePath file bundle).mp hload).1
    obtain ⟨hrest, hdefined⟩ := Impl.runs_rest (x := ⟨bundle, findDevice env device, _⟩) arith hb us
      (openEthosu_rests env (findDevice env device)) h
    obtain ⟨horderly, hk⟩ := Impl.destroyed hrest
    exact ⟨horderly, hk, hdefined⟩

/-- A driver that numbers what it gives out by the calls so far; the mapping may fail. -/
def numbering (mmapFails : Bool) : Driver where
  boCreate fd log :=
    let handle := UInt32.ofNat (log.length + 1)
    if handle ≠ 0 ∧ (fd, handle) ∉ (kernel log).handles then .ok handle else .error []
  boCreate_new fd log handle h := by
    dsimp only at h
    split at h
    · cases h
      exact ‹_ ∧ _›
    · cases h
  boMmapOffset _ _ := none
  mmap log :=
    if mmapFails = false ∧ ∀ m ∈ (kernel log).maps, m.address ≠ log.length then .ok log.length else .error (ascii "ENOMEM")
  mmap_new log address h := by
    split at h
    · cases h
      exact (‹_ ∧ _› : _ ∧ _).2
    · cases h
  cmdstreamCreate fd log :=
    let handle := UInt32.ofNat (log.length + 1)
    if handle ≠ 0 ∧ (fd, handle) ∉ (kernel log).handles then .ok handle else .error []
  cmdstreamCreate_new fd log handle h := by
    dsimp only at h
    split at h
    · cases h
      exact ‹_ ∧ _›
    · cases h
  submit _ := none
  clock := some (0, 0)
  boWait := none
  job maps := maps
  sizes _ := rfl

/-- A device at `/dev/dri/renderD128`, and the smallest bundle. -/
def oneDevice : Env where
  file := some (bundleBytes (smallBundle (-128)))
  getenv := none
  access path := path = renderNode 128
  openFile path := if path = renderNode 128 then some 3 else none
  openFile_nonneg path fd h := by
    split at h
    · cases h
      decide
    · cases h
  query := true

def inOrder : Order := ⟨fun l => l, fun l => List.Perm.refl l⟩

def zeros : Arithmetic := ⟨fun _ _ _ => 0, fun _ _ => 0⟩

/-- A run that throws with a buffer and no mapping, and one that answers. -/
def throwThenAnswer : List Use := [⟨numbering true, inOrder, [0]⟩, ⟨numbering false, inOrder, [0]⟩]

theorem executor_gives_everything_back_throwThenAnswer :
    (life zeros oneDevice (ascii "model.bundle") [] throwThenAnswer).1 =
        [.error (.throws (ascii "Ethos-U DRM mmap failed: ENOMEM")), .ok [0]] ∧
      Orderly (life zeros oneDevice (ascii "model.bundle") [] throwThenAnswer).2 ∧
      kernel (life zeros oneDevice (ascii "model.bundle") [] throwThenAnswer).2 = {} := by
  have hresults : (life zeros oneDevice (ascii "model.bundle") [] throwThenAnswer).1 =
      [.error (.throws (ascii "Ethos-U DRM mmap failed: ENOMEM")), .ok [0]] := by decide +kernel
  have hover : ∀ r ∈ (life zeros oneDevice (ascii "model.bundle") [] throwThenAnswer).1, r ≠ .error .overflow := by
    intro r hr
    rw [hresults] at hr
    rcases List.mem_cons.mp hr with rfl | hr
    · intro h
      cases h
    · rw [List.mem_singleton.mp hr]
      intro h
      cases h
  have hback := executor_gives_everything_back zeros oneDevice (ascii "model.bundle") [] throwThenAnswer hover
  -- the two together: `hback.1` would have Lean unfold `Orderly` and replay the log
  rw [← and_assoc] at hback
  exact And.intro hresults hback.1

end Overhauled.Npu.Drm
