/-
  Overhauled.Wasm.Wsm1 — the WSM1 wire format (`include/wasm_sandbox.h`,
  `src/wasm_sandbox.cpp`): what a sandbox's host adapter sends inside a broker payload,
  and what the broker answers with.

  The server decodes task and lifecycle requests and encodes their responses; the other
  four functions are the host adapter's. Statuses, actions and module states are cast
  from and to a byte of the frame without a check, so each is the byte, with names for
  the values the source names.

  As for BRK1, each decoder accepts exactly the layouts of the messages within the
  limits, and each encoder appends exactly that layout. A task request's flags byte is
  the exception: it is read and not looked at, so an accepted frame may hold any byte
  there, while the encoder always writes zero.
-/

import Overhauled.Wire.Reader
import Overhauled.Wire.Writer

namespace Overhauled.Wasm

open Wire Reader

def wasmMagic : UInt32 := 0x57534D31
def wasmProtocolVersion : UInt16 := 1

def kWasmTaskKind : Bytes := ascii "wasm.task.v1"
def kWasmLifecycleKind : Bytes := ascii "wasm.lifecycle.v1"
def kWasmLifecyclePrepareKind : Bytes := ascii "wasm.lifecycle.prepare.v1"
def kWasmLifecycleDrainKind : Bytes := ascii "wasm.lifecycle.drain.v1"
def kWasmLifecycleReleaseKind : Bytes := ascii "wasm.lifecycle.release.v1"
def kWasmLifecycleQueryKind : Bytes := ascii "wasm.lifecycle.query.v1"

inductive WasmMessageType where
  | taskRequest | taskResponse | lifecycleRequest | lifecycleResponse
  deriving DecidableEq, Repr

def WasmMessageType.raw : WasmMessageType → UInt8
  | .taskRequest => 1
  | .taskResponse => 2
  | .lifecycleRequest => 3
  | .lifecycleResponse => 4

structure WasmTaskStatus where
  raw : UInt8
  deriving DecidableEq, Repr

namespace WasmTaskStatus
def ok : WasmTaskStatus := ⟨0⟩
def rejected : WasmTaskStatus := ⟨1⟩
def error : WasmTaskStatus := ⟨2⟩
def timeout : WasmTaskStatus := ⟨3⟩
def moduleDraining : WasmTaskStatus := ⟨4⟩
def moduleNotFound : WasmTaskStatus := ⟨5⟩
def versionMismatch : WasmTaskStatus := ⟨6⟩
end WasmTaskStatus

structure WasmLifecycleAction where
  raw : UInt8
  deriving DecidableEq, Repr

namespace WasmLifecycleAction
def prepare : WasmLifecycleAction := ⟨1⟩
def drain : WasmLifecycleAction := ⟨2⟩
def release : WasmLifecycleAction := ⟨3⟩
def query : WasmLifecycleAction := ⟨4⟩
end WasmLifecycleAction

structure WasmLifecycleStatus where
  raw : UInt8
  deriving DecidableEq, Repr

namespace WasmLifecycleStatus
def ok : WasmLifecycleStatus := ⟨0⟩
def rejected : WasmLifecycleStatus := ⟨1⟩
def error : WasmLifecycleStatus := ⟨2⟩
def busy : WasmLifecycleStatus := ⟨3⟩
def notFound : WasmLifecycleStatus := ⟨4⟩
end WasmLifecycleStatus

structure WasmModuleState where
  raw : UInt8
  deriving DecidableEq, Repr

namespace WasmModuleState
def unknown : WasmModuleState := ⟨0⟩
def prepared : WasmModuleState := ⟨1⟩
def active : WasmModuleState := ⟨2⟩
def draining : WasmModuleState := ⟨3⟩
def stopped : WasmModuleState := ⟨4⟩
def released : WasmModuleState := ⟨5⟩
end WasmModuleState

structure WasmBufferDescriptor where
  bufferId : UInt32 := 0
  flags : UInt32 := 3
  offset : UInt64 := 0
  length : UInt64 := 0
  name : Bytes := []
  deriving DecidableEq, Repr

structure WasmLimits where
  maxStringBytes : Nat := 1024
  maxPayloadBytes : Nat := 512 * 1024
  maxBuffers : Nat := 64
  maxFrameBytes : Nat := 1024 * 1024
  deriving DecidableEq, Repr

structure WasmTaskRequest where
  taskId : Bytes := []
  sandboxId : Bytes := []
  moduleId : Bytes := []
  moduleVersion : Bytes := []
  taskKind : Bytes := []
  priority : UInt8 := 0
  deadlineMs : UInt64 := 0
  bufferDescriptors : List WasmBufferDescriptor := []
  payload : Bytes := []
  deriving DecidableEq, Repr

structure WasmTaskResponse where
  taskId : Bytes := []
  status : WasmTaskStatus := .error
  protocolVersion : UInt16 := wasmProtocolVersion
  selectedGpu : Int32 := -1
  latencyMs : UInt64 := 0
  bufferDescriptors : List WasmBufferDescriptor := []
  result : Bytes := []
  error : Bytes := []
  deriving DecidableEq, Repr

structure WasmLifecycleRequest where
  action : WasmLifecycleAction := .prepare
  requestId : Bytes := []
  sandboxId : Bytes := []
  moduleId : Bytes := []
  moduleVersion : Bytes := []
  targetGpu : Int32 := -1
  gracePeriodMs : UInt32 := 0
  ackToken : Bytes := []
  payload : Bytes := []
  deriving DecidableEq, Repr

structure WasmLifecycleResponse where
  action : WasmLifecycleAction := .prepare
  status : WasmLifecycleStatus := .error
  protocolVersion : UInt16 := wasmProtocolVersion
  requestId : Bytes := []
  sandboxId : Bytes := []
  moduleId : Bytes := []
  moduleVersion : Bytes := []
  assignedGpu : Int32 := -1
  activeTasks : UInt32 := 0
  state : WasmModuleState := .unknown
  leaseToken : Bytes := []
  error : Bytes := []
  deriving DecidableEq, Repr

/-! ## Encoding -/

def appendString (out value : Bytes) (limits : WasmLimits) : Except Bytes Bytes :=
  appendPre 2 limits.maxStringBytes (ascii "string length exceeds maximum allowed limit") out value

def appendBlob (out value : Bytes) (limits : WasmLimits) : Except Bytes Bytes :=
  appendPre 4 limits.maxPayloadBytes (ascii "payload blob exceeds maximum allowed limit") out value

def appendBufferDescriptor (limits : WasmLimits) (out : Bytes) (buf : WasmBufferDescriptor) : Except Bytes Bytes :=
  appendString (out ++ be 4 buf.bufferId.toNat ++ be 4 buf.flags.toNat ++ be 8 buf.offset.toNat ++
    be 8 buf.length.toNat) buf.name limits

def appendBufferDescriptors (out : Bytes) (buffers : List WasmBufferDescriptor) (limits : WasmLimits) :
    Except Bytes Bytes := do
  failIf (buffers.length > limits.maxBuffers ∨ buffers.length > 256 ^ 2 - 1)
    (ascii "buffer descriptor count exceeds maximum allowed limit")
  buffers.foldlM (appendBufferDescriptor limits) (out ++ be 2 buffers.length)

def appendHeader (frame : Bytes) (type : WasmMessageType) (actionOrFlags : UInt8) : Bytes :=
  frame ++ be 4 wasmMagic.toNat ++ be 2 wasmProtocolVersion.toNat ++ [type.raw] ++ [actionOrFlags]

def encodeWasmTaskRequest (req : WasmTaskRequest) (limits : WasmLimits) : Except Bytes Bytes := do
  failIf (req.taskId = [] ∨ req.sandboxId = [] ∨ req.moduleId = [] ∨ req.moduleVersion = [] ∨ req.taskKind = [])
    (ascii "task_id, sandbox_id, module_id, module_version, and task_kind must be non-empty")
  let frame := appendHeader [] .taskRequest 0
  let frame ← appendString frame req.taskId limits
  let frame ← appendString frame req.sandboxId limits
  let frame ← appendString frame req.moduleId limits
  let frame ← appendString frame req.moduleVersion limits
  let frame ← appendString frame req.taskKind limits
  let frame := frame ++ [req.priority] ++ be 8 req.deadlineMs.toNat
  let frame ← appendBufferDescriptors frame req.bufferDescriptors limits
  let frame ← appendBlob frame req.payload limits
  failIf (frame.length > limits.maxFrameBytes) (ascii "encoded task request exceeds max_frame_bytes")
  return frame

def encodeWasmTaskResponse (resp : WasmTaskResponse) (limits : WasmLimits) : Except Bytes Bytes := do
  let frame := appendHeader [] .taskResponse resp.status.raw
  let frame := frame ++ be 2 resp.protocolVersion.toNat
  let frame ← appendString frame resp.taskId limits
  let frame := frame ++ be 4 resp.selectedGpu.toUInt32.toNat ++ be 8 resp.latencyMs.toNat
  let frame ← appendString frame resp.error limits
  let frame ← appendBufferDescriptors frame resp.bufferDescriptors limits
  let frame ← appendBlob frame resp.result limits
  failIf (frame.length > limits.maxFrameBytes) (ascii "encoded task response exceeds max_frame_bytes")
  return frame

def encodeWasmLifecycleRequest (req : WasmLifecycleRequest) (limits : WasmLimits) : Except Bytes Bytes := do
  failIf (req.requestId = [] ∨ req.sandboxId = [] ∨ req.moduleId = [] ∨ req.moduleVersion = [])
    (ascii "request_id, sandbox_id, module_id, and module_version must be non-empty")
  let frame := appendHeader [] .lifecycleRequest req.action.raw
  let frame ← appendString frame req.requestId limits
  let frame ← appendString frame req.sandboxId limits
  let frame ← appendString frame req.moduleId limits
  let frame ← appendString frame req.moduleVersion limits
  let frame := frame ++ be 4 req.targetGpu.toUInt32.toNat ++ be 4 req.gracePeriodMs.toNat
  let frame ← appendString frame req.ackToken limits
  let frame ← appendBlob frame req.payload limits
  failIf (frame.length > limits.maxFrameBytes) (ascii "encoded lifecycle request exceeds max_frame_bytes")
  return frame

def encodeWasmLifecycleResponse (resp : WasmLifecycleResponse) (limits : WasmLimits) : Except Bytes Bytes := do
  let frame := appendHeader [] .lifecycleResponse resp.action.raw
  let frame := frame ++ [resp.status.raw] ++ be 2 resp.protocolVersion.toNat ++ [resp.state.raw]
  let frame ← appendString frame resp.requestId limits
  let frame ← appendString frame resp.sandboxId limits
  let frame ← appendString frame resp.moduleId limits
  let frame ← appendString frame resp.moduleVersion limits
  let frame := frame ++ be 4 resp.assignedGpu.toUInt32.toNat ++ be 4 resp.activeTasks.toNat
  let frame ← appendString frame resp.leaseToken limits
  let frame ← appendString frame resp.error limits
  failIf (frame.length > limits.maxFrameBytes) (ascii "encoded lifecycle response exceeds max_frame_bytes")
  return frame

/-! ## Decoding -/

/-- What `take` says, whichever reader calls it. -/
def truncated : Bytes := ascii "frame truncated or incomplete"

def readBe16 : Reader UInt16 := guarded 2 truncated u16
def readBe32 : Reader UInt32 := guarded 4 truncated u32
def readBe64 : Reader UInt64 := guarded 8 truncated u64
def readByte : Reader UInt8 := guarded 1 truncated u8

def readString (limits : WasmLimits) : Reader Bytes :=
  prefixed 2 limits.maxStringBytes truncated (ascii "string length exceeds configured limit")

def readBlob (limits : WasmLimits) : Reader Bytes :=
  prefixed 4 limits.maxPayloadBytes truncated (ascii "payload length exceeds configured limit")

def readBufferDescriptor (limits : WasmLimits) : Reader WasmBufferDescriptor := do
  let bufferId ← readBe32
  let flags ← readBe32
  let offset ← readBe64
  let length ← readBe64
  let name ← readString limits
  return { bufferId, flags, offset, length, name }

def readBufferDescriptors (limits : WasmLimits) : Reader (List WasmBufferDescriptor) := do
  let count ← readBe16
  rejectIf (count.toNat > limits.maxBuffers) (ascii "buffer descriptor count exceeds configured limit")
  many (readBufferDescriptor limits) count.toNat

/-- Answers `*out_action_or_flags`. -/
def decodeHeader (expectedType : WasmMessageType) (limits : WasmLimits) : Reader UInt8 := do
  let n ← size
  rejectIf (n = 0 ∨ n > limits.maxFrameBytes) (ascii "invalid frame size")
  take 8 truncated
  let magic ← readBe32
  rejectIf (magic ≠ wasmMagic) (ascii "invalid WSM1 protocol magic")
  let version ← readBe16
  rejectIf (version ≠ wasmProtocolVersion) (ascii "unsupported WSM1 protocol version")
  let msgTypeRaw ← u8
  rejectIf (msgTypeRaw ≠ expectedType.raw) (ascii "unexpected WSM1 message type")
  u8

def taskRequestReader (limits : WasmLimits) : Reader WasmTaskRequest := do
  let _ ← decodeHeader .taskRequest limits
  let taskId ← readString limits
  let sandboxId ← readString limits
  let moduleId ← readString limits
  let moduleVersion ← readString limits
  let taskKind ← readString limits
  let priority ← readByte
  let deadlineMs ← readBe64
  let bufferDescriptors ← readBufferDescriptors limits
  let payload ← readBlob limits
  atEnd (ascii "task request frame contains trailing bytes")
  rejectIf (taskId = [] ∨ sandboxId = [] ∨ moduleId = [] ∨ moduleVersion = [] ∨ taskKind = [])
    (ascii "task_id, sandbox_id, module_id, module_version, and task_kind must be non-empty")
  return { taskId, sandboxId, moduleId, moduleVersion, taskKind, priority, deadlineMs, bufferDescriptors, payload }

def decodeWasmTaskRequest (frame : Bytes) (limits : WasmLimits) : Except Stop WasmTaskRequest :=
  (taskRequestReader limits).run frame

def taskResponseReader (limits : WasmLimits) : Reader WasmTaskResponse := do
  let statusRaw ← decodeHeader .taskResponse limits
  let protocolVersion ← readBe16
  let taskId ← readString limits
  let gpu ← readBe32
  let latencyMs ← readBe64
  let error ← readString limits
  let bufferDescriptors ← readBufferDescriptors limits
  let result ← readBlob limits
  atEnd (ascii "task response frame contains trailing bytes")
  return { protocolVersion, taskId, latencyMs, error, bufferDescriptors, result
           status := ⟨statusRaw⟩, selectedGpu := gpu.toInt32 }

def decodeWasmTaskResponse (frame : Bytes) (limits : WasmLimits) : Except Stop WasmTaskResponse :=
  (taskResponseReader limits).run frame

def lifecycleRequestReader (limits : WasmLimits) : Reader WasmLifecycleRequest := do
  let actionRaw ← decodeHeader .lifecycleRequest limits
  let requestId ← readString limits
  let sandboxId ← readString limits
  let moduleId ← readString limits
  let moduleVersion ← readString limits
  let targetGpu ← readBe32
  let gracePeriodMs ← readBe32
  let ackToken ← readString limits
  let payload ← readBlob limits
  atEnd (ascii "lifecycle request frame contains trailing bytes")
  rejectIf (requestId = [] ∨ sandboxId = [] ∨ moduleId = [] ∨ moduleVersion = [])
    (ascii "request_id, sandbox_id, module_id, and module_version must be non-empty")
  return { requestId, sandboxId, moduleId, moduleVersion, gracePeriodMs, ackToken, payload
           action := ⟨actionRaw⟩, targetGpu := targetGpu.toInt32 }

def decodeWasmLifecycleRequest (frame : Bytes) (limits : WasmLimits) : Except Stop WasmLifecycleRequest :=
  (lifecycleRequestReader limits).run frame

def lifecycleResponseReader (limits : WasmLimits) : Reader WasmLifecycleResponse := do
  let actionRaw ← decodeHeader .lifecycleResponse limits
  let statusRaw ← readByte
  let protocolVersion ← readBe16
  let stateRaw ← readByte
  let requestId ← readString limits
  let sandboxId ← readString limits
  let moduleId ← readString limits
  let moduleVersion ← readString limits
  let assignedGpu ← readBe32
  let activeTasks ← readBe32
  let leaseToken ← readString limits
  let error ← readString limits
  atEnd (ascii "lifecycle response frame contains trailing bytes")
  return { protocolVersion, requestId, sandboxId, moduleId, moduleVersion, activeTasks, leaseToken, error
           action := ⟨actionRaw⟩, status := ⟨statusRaw⟩, state := ⟨stateRaw⟩, assignedGpu := assignedGpu.toInt32 }

def decodeWasmLifecycleResponse (frame : Bytes) (limits : WasmLimits) : Except Stop WasmLifecycleResponse :=
  (lifecycleResponseReader limits).run frame

/-! ## The layouts and the limits -/

def descriptorBytes (b : WasmBufferDescriptor) : Bytes :=
  be 4 b.bufferId.toNat ++ be 4 b.flags.toNat ++ be 8 b.offset.toNat ++ be 8 b.length.toNat ++ pre 2 b.name

def descriptorsBytes (bs : List WasmBufferDescriptor) : Bytes := be 2 bs.length ++ bs.flatMap descriptorBytes

def taskRequestBytes (flags : UInt8) (r : WasmTaskRequest) : Bytes :=
  appendHeader [] .taskRequest flags ++ pre 2 r.taskId ++ pre 2 r.sandboxId ++ pre 2 r.moduleId ++
    pre 2 r.moduleVersion ++ pre 2 r.taskKind ++ [r.priority] ++ be 8 r.deadlineMs.toNat ++
    descriptorsBytes r.bufferDescriptors ++ pre 4 r.payload

def taskResponseBytes (r : WasmTaskResponse) : Bytes :=
  appendHeader [] .taskResponse r.status.raw ++ be 2 r.protocolVersion.toNat ++ pre 2 r.taskId ++
    be 4 r.selectedGpu.toUInt32.toNat ++ be 8 r.latencyMs.toNat ++ pre 2 r.error ++
    descriptorsBytes r.bufferDescriptors ++ pre 4 r.result

def lifecycleRequestBytes (r : WasmLifecycleRequest) : Bytes :=
  appendHeader [] .lifecycleRequest r.action.raw ++ pre 2 r.requestId ++ pre 2 r.sandboxId ++ pre 2 r.moduleId ++
    pre 2 r.moduleVersion ++ be 4 r.targetGpu.toUInt32.toNat ++ be 4 r.gracePeriodMs.toNat ++ pre 2 r.ackToken ++
    pre 4 r.payload

def lifecycleResponseBytes (r : WasmLifecycleResponse) : Bytes :=
  appendHeader [] .lifecycleResponse r.action.raw ++ [r.status.raw] ++ be 2 r.protocolVersion.toNat ++ [r.state.raw] ++
    pre 2 r.requestId ++ pre 2 r.sandboxId ++ pre 2 r.moduleId ++ pre 2 r.moduleVersion ++
    be 4 r.assignedGpu.toUInt32.toNat ++ be 4 r.activeTasks.toNat ++ pre 2 r.leaseToken ++ pre 2 r.error

theorem length_taskRequestBytes (flags : UInt8) (r : WasmTaskRequest) :
    (taskRequestBytes flags r).length = 31 + r.taskId.length + r.sandboxId.length + r.moduleId.length +
      r.moduleVersion.length + r.taskKind.length + (descriptorsBytes r.bufferDescriptors).length + r.payload.length := by
  simp only [taskRequestBytes, appendHeader, List.length_append, length_be, length_pre, List.length_singleton,
    List.length_nil]
  omega

theorem length_taskResponseBytes (r : WasmTaskResponse) :
    (taskResponseBytes r).length = 30 + r.taskId.length + r.error.length +
      (descriptorsBytes r.bufferDescriptors).length + r.result.length := by
  simp only [taskResponseBytes, appendHeader, List.length_append, length_be, length_pre, List.length_singleton,
    List.length_nil]
  omega

theorem length_lifecycleResponseBytes (r : WasmLifecycleResponse) :
    (lifecycleResponseBytes r).length = 32 + r.requestId.length + r.sandboxId.length + r.moduleId.length +
      r.moduleVersion.length + r.leaseToken.length + r.error.length := by
  simp only [lifecycleResponseBytes, appendHeader, List.length_append, length_be, length_pre, List.length_singleton,
    List.length_nil]
  omega

def StringFits (limits : WasmLimits) (v : Bytes) : Prop := v.length ≤ limits.maxStringBytes ∧ v.length < 256 ^ 2

def BlobFits (limits : WasmLimits) (v : Bytes) : Prop := v.length ≤ limits.maxPayloadBytes ∧ v.length < 256 ^ 4

def DescriptorsFit (limits : WasmLimits) (bs : List WasmBufferDescriptor) : Prop :=
  (bs.length ≤ limits.maxBuffers ∧ bs.length < 256 ^ 2) ∧ ∀ b ∈ bs, StringFits limits b.name

instance (limits : WasmLimits) (v : Bytes) : Decidable (StringFits limits v) := inferInstanceAs (Decidable (_ ∧ _))

instance (limits : WasmLimits) (v : Bytes) : Decidable (BlobFits limits v) := inferInstanceAs (Decidable (_ ∧ _))

instance (limits : WasmLimits) (bs : List WasmBufferDescriptor) : Decidable (DescriptorsFit limits bs) :=
  inferInstanceAs (Decidable (_ ∧ _))

theorem length_descriptorsBytes_le {limits : WasmLimits} {bs : List WasmBufferDescriptor}
    (h : DescriptorsFit limits bs) :
    (descriptorsBytes bs).length ≤ 2 + limits.maxBuffers * (26 + limits.maxStringBytes) := by
  have hone : ∀ b ∈ bs, (descriptorBytes b).length ≤ 26 + limits.maxStringBytes := by
    intro b hb
    have hname := (h.2 b hb).1
    simp only [descriptorBytes, List.length_append, length_be, length_pre]
    omega
  have hsum : (bs.map fun b => (descriptorBytes b).length).sum ≤ bs.length * (26 + limits.maxStringBytes) := by
    have h := List.sum_le_card_nsmul (bs.map fun b => (descriptorBytes b).length) (26 + limits.maxStringBytes)
      (by simpa using hone)
    simpa using h
  have hcount : bs.length * (26 + limits.maxStringBytes) ≤ limits.maxBuffers * (26 + limits.maxStringBytes) :=
    Nat.mul_le_mul_right _ h.1.1
  rw [descriptorsBytes, List.length_append, length_be, List.length_flatMap]
  omega

structure TaskRequestFits (limits : WasmLimits) (r : WasmTaskRequest) : Prop where
  taskId : StringFits limits r.taskId
  sandboxId : StringFits limits r.sandboxId
  moduleId : StringFits limits r.moduleId
  moduleVersion : StringFits limits r.moduleVersion
  taskKind : StringFits limits r.taskKind
  buffers : DescriptorsFit limits r.bufferDescriptors
  payload : BlobFits limits r.payload
  named : ¬ (r.taskId = [] ∨ r.sandboxId = [] ∨ r.moduleId = [] ∨ r.moduleVersion = [] ∨ r.taskKind = [])

structure TaskResponseFits (limits : WasmLimits) (r : WasmTaskResponse) : Prop where
  taskId : StringFits limits r.taskId
  error : StringFits limits r.error
  buffers : DescriptorsFit limits r.bufferDescriptors
  result : BlobFits limits r.result
  frame : (taskResponseBytes r).length ≤ limits.maxFrameBytes

structure LifecycleRequestFits (limits : WasmLimits) (r : WasmLifecycleRequest) : Prop where
  requestId : StringFits limits r.requestId
  sandboxId : StringFits limits r.sandboxId
  moduleId : StringFits limits r.moduleId
  moduleVersion : StringFits limits r.moduleVersion
  ackToken : StringFits limits r.ackToken
  payload : BlobFits limits r.payload
  named : ¬ (r.requestId = [] ∨ r.sandboxId = [] ∨ r.moduleId = [] ∨ r.moduleVersion = [])

structure LifecycleResponseFits (limits : WasmLimits) (r : WasmLifecycleResponse) : Prop where
  requestId : StringFits limits r.requestId
  sandboxId : StringFits limits r.sandboxId
  moduleId : StringFits limits r.moduleId
  moduleVersion : StringFits limits r.moduleVersion
  leaseToken : StringFits limits r.leaseToken
  error : StringFits limits r.error
  frame : (lifecycleResponseBytes r).length ≤ limits.maxFrameBytes

/-! ## What the encoders append -/

section
variable {limits : WasmLimits} {frame : Bytes}

theorem appendBufferDescriptor_ok {b : WasmBufferDescriptor} {out o : Bytes} :
    appendBufferDescriptor limits out b = .ok o ↔ StringFits limits b.name ∧ o = out ++ descriptorBytes b := by
  simp only [appendBufferDescriptor, appendString, appendPre_ok, StringFits, descriptorBytes, List.append_assoc]

theorem appendBufferDescriptors_ok {bs : List WasmBufferDescriptor} {out o : Bytes} :
    appendBufferDescriptors out bs limits = .ok o ↔ DescriptorsFit limits bs ∧ o = out ++ descriptorsBytes bs := by
  have hloop : ∀ {out o : Bytes}, bs.foldlM (appendBufferDescriptor limits) out = .ok o ↔
      (∀ b ∈ bs, StringFits limits b.name) ∧ o = out ++ bs.flatMap descriptorBytes :=
    foldlM_append_ok (f := appendBufferDescriptor limits) fun {_ _ _} => appendBufferDescriptor_ok
  simp only [appendBufferDescriptors, except_bind_ok, failIf_ok, hloop, DescriptorsFit, descriptorsBytes,
    List.append_assoc]
  refine ⟨?_, ?_⟩
  · intro h
    obtain ⟨_, hc, hs, rfl⟩ := h
    exact ⟨⟨by omega, hs⟩, rfl⟩
  · intro h
    obtain ⟨⟨hc, hs⟩, rfl⟩ := h
    exact ⟨(), by omega, hs, rfl⟩

theorem encodeWasmTaskRequest_ok {r : WasmTaskRequest} :
    encodeWasmTaskRequest r limits = .ok frame ↔
      TaskRequestFits limits r ∧ frame.length ≤ limits.maxFrameBytes ∧ frame = taskRequestBytes 0 r := by
  simp only [encodeWasmTaskRequest, appendString, appendBlob, appendBufferDescriptors_ok, except_bind_ok, appendPre_ok,
    failIf_ok, except_pure_ok]
  refine ⟨?_, ?_⟩
  · intro h
    obtain ⟨_, hn, _, ⟨h1, rfl⟩, _, ⟨h2, rfl⟩, _, ⟨h3, rfl⟩, _, ⟨h4, rfl⟩, _, ⟨h5, rfl⟩, _, ⟨hb, rfl⟩, _, ⟨hp, rfl⟩,
      _, hl, rfl⟩ := h
    exact ⟨⟨h1, h2, h3, h4, h5, hb, hp, hn⟩, Nat.le_of_not_lt hl, rfl⟩
  · intro h
    obtain ⟨h, hl, rfl⟩ := h
    exact ⟨(), h.named, _, ⟨h.taskId, rfl⟩, _, ⟨h.sandboxId, rfl⟩, _, ⟨h.moduleId, rfl⟩, _, ⟨h.moduleVersion, rfl⟩,
      _, ⟨h.taskKind, rfl⟩, _, ⟨h.buffers, rfl⟩, _, ⟨h.payload, rfl⟩, (), Nat.not_lt_of_le hl, rfl⟩

theorem encodeWasmTaskResponse_ok {r : WasmTaskResponse} :
    encodeWasmTaskResponse r limits = .ok frame ↔ TaskResponseFits limits r ∧ frame = taskResponseBytes r := by
  simp only [encodeWasmTaskResponse, appendString, appendBlob, appendBufferDescriptors_ok, except_bind_ok, appendPre_ok,
    failIf_ok, except_pure_ok]
  refine ⟨?_, ?_⟩
  · intro h
    obtain ⟨_, ⟨ht, rfl⟩, _, ⟨he, rfl⟩, _, ⟨hb, rfl⟩, _, ⟨hr, rfl⟩, _, hl, rfl⟩ := h
    exact ⟨⟨ht, he, hb, hr, Nat.le_of_not_lt hl⟩, rfl⟩
  · intro h
    obtain ⟨h, rfl⟩ := h
    exact ⟨_, ⟨h.taskId, rfl⟩, _, ⟨h.error, rfl⟩, _, ⟨h.buffers, rfl⟩, _, ⟨h.result, rfl⟩, (),
      Nat.not_lt_of_le h.frame, rfl⟩

theorem encodeWasmLifecycleRequest_ok {r : WasmLifecycleRequest} :
    encodeWasmLifecycleRequest r limits = .ok frame ↔
      LifecycleRequestFits limits r ∧ frame.length ≤ limits.maxFrameBytes ∧ frame = lifecycleRequestBytes r := by
  simp only [encodeWasmLifecycleRequest, appendString, appendBlob, except_bind_ok, appendPre_ok, failIf_ok,
    except_pure_ok]
  refine ⟨?_, ?_⟩
  · intro h
    obtain ⟨_, hn, _, ⟨h1, rfl⟩, _, ⟨h2, rfl⟩, _, ⟨h3, rfl⟩, _, ⟨h4, rfl⟩, _, ⟨h5, rfl⟩, _, ⟨hp, rfl⟩, _, hl, rfl⟩ := h
    exact ⟨⟨h1, h2, h3, h4, h5, hp, hn⟩, Nat.le_of_not_lt hl, rfl⟩
  · intro h
    obtain ⟨h, hl, rfl⟩ := h
    exact ⟨(), h.named, _, ⟨h.requestId, rfl⟩, _, ⟨h.sandboxId, rfl⟩, _, ⟨h.moduleId, rfl⟩, _, ⟨h.moduleVersion, rfl⟩,
      _, ⟨h.ackToken, rfl⟩, _, ⟨h.payload, rfl⟩, (), Nat.not_lt_of_le hl, rfl⟩

theorem encodeWasmLifecycleResponse_ok {r : WasmLifecycleResponse} :
    encodeWasmLifecycleResponse r limits = .ok frame ↔
      LifecycleResponseFits limits r ∧ frame = lifecycleResponseBytes r := by
  simp only [encodeWasmLifecycleResponse, appendString, except_bind_ok, appendPre_ok, failIf_ok, except_pure_ok]
  refine ⟨?_, ?_⟩
  · intro h
    obtain ⟨_, ⟨h1, rfl⟩, _, ⟨h2, rfl⟩, _, ⟨h3, rfl⟩, _, ⟨h4, rfl⟩, _, ⟨h5, rfl⟩, _, ⟨h6, rfl⟩, _, hl, rfl⟩ := h
    exact ⟨⟨h1, h2, h3, h4, h5, h6, Nat.le_of_not_lt hl⟩, rfl⟩
  · intro h
    obtain ⟨h, rfl⟩ := h
    exact ⟨_, ⟨h.requestId, rfl⟩, _, ⟨h.sandboxId, rfl⟩, _, ⟨h.moduleId, rfl⟩, _, ⟨h.moduleVersion, rfl⟩,
      _, ⟨h.leaseToken, rfl⟩, _, ⟨h.error, rfl⟩, (), Nat.not_lt_of_le h.frame, rfl⟩

end

/-! ## What the decoders accept -/

section
variable {frame : Bytes} {off off' : Nat} {limits : WasmLimits}

theorem readBe16_ok {v : UInt16} : readBe16 frame off = .ok (v, off') ↔ At frame off (be 2 v.toNat) off' :=
  guarded_ok (length_be _ _) u16_ok

theorem readBe32_ok {v : UInt32} : readBe32 frame off = .ok (v, off') ↔ At frame off (be 4 v.toNat) off' :=
  guarded_ok (length_be _ _) u32_ok

theorem readBe64_ok {v : UInt64} : readBe64 frame off = .ok (v, off') ↔ At frame off (be 8 v.toNat) off' :=
  guarded_ok (length_be _ _) u64_ok

theorem readByte_ok {v : UInt8} : readByte frame off = .ok (v, off') ↔ At frame off (be 1 v.toNat) off' :=
  guarded_ok (length_be _ _) u8_ok

theorem readString_ok {v : Bytes} :
    readString limits frame off = .ok (v, off') ↔ StringFits limits v ∧ At frame off (pre 2 v) off' := by
  rw [readString, prefixed_ok, StringFits, and_assoc]

theorem readBlob_ok {v : Bytes} :
    readBlob limits frame off = .ok (v, off') ↔ BlobFits limits v ∧ At frame off (pre 4 v) off' := by
  rw [readBlob, prefixed_ok, BlobFits, and_assoc]

theorem readBufferDescriptor_ok {b : WasmBufferDescriptor} :
    readBufferDescriptor limits frame off = .ok (b, off') ↔
      StringFits limits b.name ∧ At frame off (descriptorBytes b) off' := by
  simp only [readBufferDescriptor, bind_ok, readBe32_ok, readBe64_ok, readString_ok, pure_ok, descriptorBytes, at_append]
  refine ⟨?_, ?_⟩
  · intro h
    obtain ⟨i, o1, h1, f, o2, h2, o, o3, h3, l, o4, h4, n, o5, ⟨hn, h5⟩, rfl, rfl⟩ := h
    exact ⟨hn, o4, ⟨o3, ⟨o2, ⟨o1, h1, h2⟩, h3⟩, h4⟩, h5⟩
  · intro h
    obtain ⟨hn, o4, ⟨o3, ⟨o2, ⟨o1, h1, h2⟩, h3⟩, h4⟩, h5⟩ := h
    exact ⟨_, o1, h1, _, o2, h2, _, o3, h3, _, o4, h4, _, off', ⟨hn, h5⟩, rfl, rfl⟩

theorem readBufferDescriptors_ok {bs : List WasmBufferDescriptor} :
    readBufferDescriptors limits frame off = .ok (bs, off') ↔
      DescriptorsFit limits bs ∧ At frame off (descriptorsBytes bs) off' := by
  simp only [readBufferDescriptors, bind_ok, readBe16_ok, rejectIf_ok, descriptorsBytes, at_append, DescriptorsFit]
  refine ⟨?_, ?_⟩
  · intro h
    obtain ⟨n, o, hn, _, _, ⟨hc, rfl⟩, hm⟩ := h
    obtain ⟨hl, hs, hat⟩ := (many_ok readBufferDescriptor_ok hn.le).mp hm
    rw [← hl] at hn
    have hlt : n.toNat < 256 ^ 2 := n.toNat_lt
    exact ⟨⟨by omega, hs⟩, _, hn, hat⟩
  · intro h
    obtain ⟨⟨⟨hc, hlt⟩, hs⟩, o, hn, hat⟩ := h
    have hl : (UInt16.ofNat bs.length).toNat = bs.length := by
      rw [UInt16.toNat_ofNat', Nat.mod_eq_of_lt (show bs.length < 2 ^ 16 from hlt)]
    refine ⟨UInt16.ofNat bs.length, o, by rw [hl]; exact hn, (), o, ⟨by rw [hl]; omega, rfl⟩, ?_⟩
    exact (many_ok readBufferDescriptor_ok hn.le).mpr ⟨hl.symm, hs, hat⟩

theorem decodeHeader_ok {type : WasmMessageType} {action : UInt8} :
    decodeHeader type limits frame off = .ok (action, off') ↔
      frame.length ≤ limits.maxFrameBytes ∧ At frame off (appendHeader [] type action) off' := by
  simp only [decodeHeader, bind_ok, size_ok, rejectIf_ok, take_ok, readBe32_ok, readBe16_ok, u8_ok, appendHeader,
    List.nil_append, at_append, ← be_one]
  refine ⟨?_, ?_⟩
  · intro h
    obtain ⟨_, _, ⟨rfl, rfl⟩, _, _, ⟨hs, rfl⟩, _, _, ⟨-, rfl⟩, m, o1, h1, _, _, ⟨hm, rfl⟩, v, o2, h2, _, _, ⟨hv, rfl⟩,
      t, o3, h3, _, _, ⟨ht, rfl⟩, h4⟩ := h
    simp only [ne_eq, not_not] at hm hv ht
    subst hm hv ht
    exact ⟨by omega, _, ⟨_, ⟨_, h1, h2⟩, h3⟩, h4⟩
  · intro h
    obtain ⟨hs, o3, ⟨o2, ⟨o1, h1, h2⟩, h3⟩, h4⟩ := h
    have e1 := h1.1
    have e2 := h2.1
    have e3 := h3.1
    have e4 := h4.1
    have hle := h4.le
    simp only [length_be] at e1 e2 e3 e4
    exact ⟨_, off, ⟨rfl, rfl⟩, (), off, ⟨by omega, rfl⟩, (), off, ⟨by omega, rfl⟩, _, o1, h1, (), o1, ⟨by simp, rfl⟩,
      _, o2, h2, (), o2, ⟨by simp, rfl⟩, _, o3, h3, (), o3, ⟨by simp, rfl⟩, h4⟩

/-- A task request frame is accepted exactly when it is the layout of a request within
    the limits, whatever its flags byte. -/
theorem decodeWasmTaskRequest_ok {r : WasmTaskRequest} :
    decodeWasmTaskRequest frame limits = .ok r ↔
      TaskRequestFits limits r ∧ frame.length ≤ limits.maxFrameBytes ∧ ∃ flags, frame = taskRequestBytes flags r := by
  simp only [decodeWasmTaskRequest, run_ok, taskRequestReader, bind_ok, decodeHeader_ok, readString_ok, readByte_ok,
    readBe64_ok, readBufferDescriptors_ok, readBlob_ok, atEnd_ok, rejectIf_ok, pure_ok]
  have hw : ∀ flags, frame = taskRequestBytes flags r ↔ At frame 0 (taskRequestBytes flags r) frame.length :=
    fun _ => at_whole.symm
  simp only [hw]
  simp only [taskRequestBytes, at_append, ← be_one]
  refine ⟨?_, ?_⟩
  · intro h
    obtain ⟨_, fl, o0, ⟨hs, h0⟩, t, o1, ⟨f1, h1⟩, s, o2, ⟨f2, h2⟩, m, o3, ⟨f3, h3⟩, v, o4, ⟨f4, h4⟩, k, o5, ⟨f5, h5⟩,
      h⟩ := h
    obtain ⟨p, o6, h6, d, o7, h7, bs, o8, ⟨f8, h8⟩, b, o9, ⟨f9, h9⟩, _, _, ⟨rfl, rfl⟩, _, _, ⟨hn, rfl⟩, rfl, -⟩ := h
    exact ⟨⟨f1, f2, f3, f4, f5, f8, f9, hn⟩, hs, fl, o8, ⟨o7, ⟨o6, ⟨o5, ⟨o4, ⟨o3, ⟨o2, ⟨o1, ⟨o0, h0, h1⟩, h2⟩, h3⟩, h4⟩, h5⟩,
      h6⟩, h7⟩, h8⟩, h9⟩
  · intro h
    obtain ⟨h, hs, fl, o8, ⟨o7, ⟨o6, ⟨o5, ⟨o4, ⟨o3, ⟨o2, ⟨o1, ⟨o0, h0, h1⟩, h2⟩, h3⟩, h4⟩, h5⟩, h6⟩, h7⟩, h8⟩, h9⟩ := h
    exact ⟨frame.length, fl, o0, ⟨hs, h0⟩, _, o1, ⟨h.taskId, h1⟩, _, o2, ⟨h.sandboxId, h2⟩, _, o3, ⟨h.moduleId, h3⟩,
      _, o4, ⟨h.moduleVersion, h4⟩, _, o5, ⟨h.taskKind, h5⟩, _, o6, h6, _, o7, h7, _, o8, ⟨h.buffers, h8⟩,
      _, _, ⟨h.payload, h9⟩, (), _, ⟨rfl, rfl⟩, (), _, ⟨h.named, rfl⟩, rfl, rfl⟩

theorem decodeWasmTaskResponse_ok {r : WasmTaskResponse} :
    decodeWasmTaskResponse frame limits = .ok r ↔ TaskResponseFits limits r ∧ frame = taskResponseBytes r := by
  simp only [decodeWasmTaskResponse, run_ok, taskResponseReader, bind_ok, decodeHeader_ok, readString_ok, readBe16_ok,
    readBe32_ok, readBe64_ok, readBufferDescriptors_ok, readBlob_ok, atEnd_ok, pure_ok]
  refine ⟨?_, ?_⟩
  · intro h
    obtain ⟨_, st, o0, ⟨hs, h0⟩, v, o1, h1, t, o2, ⟨f2, h2⟩, g, o3, h3, l, o4, h4, e, o5, ⟨f5, h5⟩, bs, o6, ⟨f6, h6⟩,
      b, o7, ⟨f7, h7⟩, _, _, ⟨rfl, rfl⟩, rfl, -⟩ := h
    have hf : frame = taskResponseBytes (.mk t ⟨st⟩ v g.toInt32 l bs b e) := by
      rw [← at_whole, taskResponseBytes]
      simp only [at_append, UInt32.toUInt32_toInt32]
      exact ⟨o6, ⟨o5, ⟨o4, ⟨o3, ⟨o2, ⟨o1, ⟨o0, h0, h1⟩, h2⟩, h3⟩, h4⟩, h5⟩, h6⟩, h7⟩
    exact ⟨⟨f2, f5, f6, f7, hf ▸ hs⟩, hf⟩
  · intro h
    obtain ⟨h, hf⟩ := h
    have hw := at_whole.mpr hf
    rw [taskResponseBytes] at hw
    simp only [at_append] at hw
    obtain ⟨o6, ⟨o5, ⟨o4, ⟨o3, ⟨o2, ⟨o1, ⟨o0, h0, h1⟩, h2⟩, h3⟩, h4⟩, h5⟩, h6⟩, h7⟩ := hw
    refine ⟨frame.length, _, o0, ⟨hf ▸ h.frame, h0⟩, _, o1, h1, _, o2, ⟨h.taskId, h2⟩, _, o3, h3, _, o4, h4, _, o5,
      ⟨h.error, h5⟩, _, o6, ⟨h.buffers, h6⟩, _, _, ⟨h.result, h7⟩, (), _, ⟨rfl, rfl⟩, ?_, rfl⟩
    rw [Int32.toInt32_toUInt32]

theorem decodeWasmLifecycleRequest_ok {r : WasmLifecycleRequest} :
    decodeWasmLifecycleRequest frame limits = .ok r ↔
      LifecycleRequestFits limits r ∧ frame.length ≤ limits.maxFrameBytes ∧ frame = lifecycleRequestBytes r := by
  simp only [decodeWasmLifecycleRequest, run_ok, lifecycleRequestReader, bind_ok, decodeHeader_ok, readString_ok,
    readBe32_ok, readBlob_ok, atEnd_ok, rejectIf_ok, pure_ok]
  rw [← at_whole (w := lifecycleRequestBytes r), lifecycleRequestBytes]
  simp only [at_append]
  refine ⟨?_, ?_⟩
  · intro h
    obtain ⟨_, a, o0, ⟨hs, h0⟩, i, o1, ⟨f1, h1⟩, s, o2, ⟨f2, h2⟩, m, o3, ⟨f3, h3⟩, v, o4, ⟨f4, h4⟩, h⟩ := h
    obtain ⟨g, o5, h5, p, o6, h6, k, o7, ⟨f7, h7⟩, b, o8, ⟨f8, h8⟩, _, _, ⟨rfl, rfl⟩, _, _, ⟨hn, rfl⟩, rfl, -⟩ := h
    refine ⟨⟨f1, f2, f3, f4, f7, f8, hn⟩, hs, o7, ⟨o6, ⟨o5, ⟨o4, ⟨o3, ⟨o2, ⟨o1, ⟨o0, h0, h1⟩, h2⟩, h3⟩, h4⟩, ?_⟩, h6⟩, h7⟩, h8⟩
    rw [UInt32.toUInt32_toInt32]
    exact h5
  · intro h
    obtain ⟨h, hs, o7, ⟨o6, ⟨o5, ⟨o4, ⟨o3, ⟨o2, ⟨o1, ⟨o0, h0, h1⟩, h2⟩, h3⟩, h4⟩, h5⟩, h6⟩, h7⟩, h8⟩ := h
    refine ⟨frame.length, _, o0, ⟨hs, h0⟩, _, o1, ⟨h.requestId, h1⟩, _, o2, ⟨h.sandboxId, h2⟩, _, o3, ⟨h.moduleId, h3⟩,
      _, o4, ⟨h.moduleVersion, h4⟩, _, o5, h5, _, o6, h6, _, o7, ⟨h.ackToken, h7⟩, _, _, ⟨h.payload, h8⟩, (), _,
      ⟨rfl, rfl⟩, (), _, ⟨h.named, rfl⟩, ?_, rfl⟩
    rw [Int32.toInt32_toUInt32]

theorem decodeWasmLifecycleResponse_ok {r : WasmLifecycleResponse} :
    decodeWasmLifecycleResponse frame limits = .ok r ↔
      LifecycleResponseFits limits r ∧ frame = lifecycleResponseBytes r := by
  simp only [decodeWasmLifecycleResponse, run_ok, lifecycleResponseReader, bind_ok, decodeHeader_ok, readString_ok,
    readByte_ok, readBe16_ok, readBe32_ok, atEnd_ok, pure_ok]
  refine ⟨?_, ?_⟩
  · intro h
    obtain ⟨_, a, o0, ⟨hs, h0⟩, st, o1, h1, v, o2, h2, ms, o3, h3, i, o4, ⟨f4, h4⟩, s, o5, ⟨f5, h5⟩, h⟩ := h
    obtain ⟨m, o6, ⟨f6, h6⟩, mv, o7, ⟨f7, h7⟩, g, o8, h8, n, o9, h9, l, o10, ⟨f10, h10⟩, e, o11, ⟨f11, h11⟩, _, _, ⟨rfl, rfl⟩, rfl, -⟩ := h
    have hf : frame = lifecycleResponseBytes (.mk ⟨a⟩ ⟨st⟩ v i s m mv g.toInt32 n ⟨ms⟩ l e) := by
      rw [← at_whole, lifecycleResponseBytes]
      simp only [at_append, ← be_one, UInt32.toUInt32_toInt32]
      exact ⟨o10, ⟨o9, ⟨o8, ⟨o7, ⟨o6, ⟨o5, ⟨o4, ⟨o3, ⟨o2, ⟨o1, ⟨o0, h0, h1⟩, h2⟩, h3⟩, h4⟩, h5⟩, h6⟩, h7⟩, h8⟩, h9⟩,
        h10⟩, h11⟩
    exact ⟨⟨f4, f5, f6, f7, f10, f11, hf ▸ hs⟩, hf⟩
  · intro h
    obtain ⟨h, hf⟩ := h
    have hw := at_whole.mpr hf
    rw [lifecycleResponseBytes] at hw
    simp only [at_append, ← be_one] at hw
    obtain ⟨o10, ⟨o9, ⟨o8, ⟨o7, ⟨o6, ⟨o5, ⟨o4, ⟨o3, ⟨o2, ⟨o1, ⟨o0, h0, h1⟩, h2⟩, h3⟩, h4⟩, h5⟩, h6⟩, h7⟩, h8⟩, h9⟩,
      h10⟩, h11⟩ := hw
    refine ⟨frame.length, _, o0, ⟨hf ▸ h.frame, h0⟩, _, o1, h1, _, o2, h2, _, o3, h3, _, o4, ⟨h.requestId, h4⟩, _, o5,
      ⟨h.sandboxId, h5⟩, _, o6, ⟨h.moduleId, h6⟩, _, o7, ⟨h.moduleVersion, h7⟩, _, o8, h8, _, o9, h9, _, o10,
      ⟨h.leaseToken, h10⟩, _, _, ⟨h.error, h11⟩, (), _, ⟨rfl, rfl⟩, ?_, rfl⟩
    rw [Int32.toInt32_toUInt32]

end

/-! ## Round trips -/

section
variable {frame : Bytes} {limits : WasmLimits}

theorem decode_encodeTaskRequest {r : WasmTaskRequest} (h : encodeWasmTaskRequest r limits = .ok frame) :
    decodeWasmTaskRequest frame limits = .ok r := by
  obtain ⟨hr, hl, hf⟩ := encodeWasmTaskRequest_ok.mp h
  exact decodeWasmTaskRequest_ok.mpr ⟨hr, hl, 0, hf⟩

theorem taskResponse_iff {r : WasmTaskResponse} :
    decodeWasmTaskResponse frame limits = .ok r ↔ encodeWasmTaskResponse r limits = .ok frame :=
  decodeWasmTaskResponse_ok.trans encodeWasmTaskResponse_ok.symm

theorem lifecycleRequest_iff {r : WasmLifecycleRequest} :
    decodeWasmLifecycleRequest frame limits = .ok r ↔ encodeWasmLifecycleRequest r limits = .ok frame :=
  decodeWasmLifecycleRequest_ok.trans encodeWasmLifecycleRequest_ok.symm

theorem lifecycleResponse_iff {r : WasmLifecycleResponse} :
    decodeWasmLifecycleResponse frame limits = .ok r ↔ encodeWasmLifecycleResponse r limits = .ok frame :=
  decodeWasmLifecycleResponse_ok.trans encodeWasmLifecycleResponse_ok.symm

/-- The flags are the eighth byte. -/
theorem taskRequestBytes_flags (flags : UInt8) (r : WasmTaskRequest) : (taskRequestBytes flags r)[7]? = some flags :=
  rfl

/-- A task request is encoded back to the frame it was decoded from exactly when the
    frame's flags byte, which the decoder reads and drops, is zero. -/
theorem encode_decodeTaskRequest {r : WasmTaskRequest} (h : decodeWasmTaskRequest frame limits = .ok r) :
    encodeWasmTaskRequest r limits = .ok frame ↔ frame[7]? = some 0 := by
  obtain ⟨hr, hl, flags, rfl⟩ := decodeWasmTaskRequest_ok.mp h
  rw [encodeWasmTaskRequest_ok, taskRequestBytes_flags]
  refine ⟨?_, ?_⟩
  · intro henc
    have h7 := congrArg (·[7]?) henc.2.2
    simp only [taskRequestBytes_flags] at h7
    exact h7
  · intro h0
    cases h0
    exact ⟨hr, hl, rfl⟩

end

theorem wsm1_decode_encode (limits : WasmLimits) (frame : Bytes) :
    (∀ r, encodeWasmTaskRequest r limits = .ok frame → decodeWasmTaskRequest frame limits = .ok r) ∧
    (∀ r, encodeWasmTaskResponse r limits = .ok frame → decodeWasmTaskResponse frame limits = .ok r) ∧
    (∀ r, encodeWasmLifecycleRequest r limits = .ok frame → decodeWasmLifecycleRequest frame limits = .ok r) ∧
    (∀ r, encodeWasmLifecycleResponse r limits = .ok frame → decodeWasmLifecycleResponse frame limits = .ok r) :=
  ⟨fun _ => decode_encodeTaskRequest, fun _ => taskResponse_iff.mpr, fun _ => lifecycleRequest_iff.mpr,
    fun _ => lifecycleResponse_iff.mpr⟩

def smallTask : WasmTaskRequest :=
  { taskId := ascii "t", sandboxId := ascii "s", moduleId := ascii "m", moduleVersion := ascii "1", taskKind := ascii "k"
    deadlineMs := 0xffffffffffffffff, payload := [1, 2, 3]
    bufferDescriptors := [{ bufferId := 1, name := ascii "in" }, { bufferId := 2, length := 0x100000000 }] }

def smallTaskAnswer : WasmTaskResponse :=
  { taskId := ascii "t", status := .ok, selectedGpu := -7, latencyMs := 0xffffffffffffffff
    bufferDescriptors := smallTask.bufferDescriptors, result := [1, 2, 3] }

def smallPrepare : WasmLifecycleRequest :=
  { requestId := ascii "r", sandboxId := ascii "s", moduleId := ascii "m", moduleVersion := ascii "1", targetGpu := -2 }

def smallPrepareAnswer : WasmLifecycleResponse :=
  { status := .ok, requestId := ascii "r", sandboxId := ascii "s", moduleId := ascii "m", moduleVersion := ascii "1"
    assignedGpu := -1, state := .prepared, leaseToken := ascii "lease-s-m-1-1" }

theorem smallTask_fits : TaskRequestFits {} smallTask := by
  constructor <;> decide

theorem smallTaskAnswer_fits : TaskResponseFits {} smallTaskAnswer := by
  constructor <;> decide

theorem smallPrepare_fits : LifecycleRequestFits {} smallPrepare := by
  constructor <;> decide

theorem smallPrepareAnswer_fits : LifecycleResponseFits {} smallPrepareAnswer := by
  constructor <;> decide

theorem wsm1_decode_encode_small :
    decodeWasmTaskRequest (taskRequestBytes 0 smallTask) {} = .ok smallTask ∧
    decodeWasmTaskResponse (taskResponseBytes smallTaskAnswer) {} = .ok smallTaskAnswer ∧
    decodeWasmLifecycleRequest (lifecycleRequestBytes smallPrepare) {} = .ok smallPrepare ∧
    decodeWasmLifecycleResponse (lifecycleResponseBytes smallPrepareAnswer) {} = .ok smallPrepareAnswer :=
  ⟨(wsm1_decode_encode {} _).1 _ (encodeWasmTaskRequest_ok.mpr ⟨smallTask_fits, by decide, rfl⟩),
    (wsm1_decode_encode {} _).2.1 _ (encodeWasmTaskResponse_ok.mpr ⟨smallTaskAnswer_fits, rfl⟩),
    (wsm1_decode_encode {} _).2.2.1 _ (encodeWasmLifecycleRequest_ok.mpr ⟨smallPrepare_fits, by decide, rfl⟩),
    (wsm1_decode_encode {} _).2.2.2 _ (encodeWasmLifecycleResponse_ok.mpr ⟨smallPrepareAnswer_fits, rfl⟩)⟩

/-- An accepted frame is what its message is encoded to, except that a task request's
    flags byte must be zero for it. -/
theorem wsm1_canonical_iff (limits : WasmLimits) (frame : Bytes) :
    (∀ r, decodeWasmTaskRequest frame limits = .ok r →
      (encodeWasmTaskRequest r limits = .ok frame ↔ frame[7]? = some 0)) ∧
    (∀ r, decodeWasmTaskResponse frame limits = .ok r → encodeWasmTaskResponse r limits = .ok frame) ∧
    (∀ r, decodeWasmLifecycleRequest frame limits = .ok r → encodeWasmLifecycleRequest r limits = .ok frame) ∧
    (∀ r, decodeWasmLifecycleResponse frame limits = .ok r → encodeWasmLifecycleResponse r limits = .ok frame) :=
  ⟨fun _ => encode_decodeTaskRequest, fun _ => taskResponse_iff.mp, fun _ => lifecycleRequest_iff.mp,
    fun _ => lifecycleResponse_iff.mp⟩

theorem wsm1_canonical_iff_small :
    encodeWasmTaskRequest smallTask {} = .ok (taskRequestBytes 0 smallTask) ∧
    encodeWasmTaskResponse smallTaskAnswer {} = .ok (taskResponseBytes smallTaskAnswer) ∧
    encodeWasmLifecycleRequest smallPrepare {} = .ok (lifecycleRequestBytes smallPrepare) ∧
    encodeWasmLifecycleResponse smallPrepareAnswer {} = .ok (lifecycleResponseBytes smallPrepareAnswer) :=
  ⟨((wsm1_canonical_iff {} _).1 _ (decodeWasmTaskRequest_ok.mpr ⟨smallTask_fits, by decide, 0, rfl⟩)).mpr rfl,
    (wsm1_canonical_iff {} _).2.1 _ (decodeWasmTaskResponse_ok.mpr ⟨smallTaskAnswer_fits, rfl⟩),
    (wsm1_canonical_iff {} _).2.2.1 _ (decodeWasmLifecycleRequest_ok.mpr ⟨smallPrepare_fits, by decide, rfl⟩),
    (wsm1_canonical_iff {} _).2.2.2 _ (decodeWasmLifecycleResponse_ok.mpr ⟨smallPrepareAnswer_fits, rfl⟩)⟩

/-- With the reserved flags set the same task request is accepted, and encoded to a
    different frame. -/
theorem a_flagged_task_request_is_accepted :
    decodeWasmTaskRequest (taskRequestBytes 1 smallTask) {} = .ok smallTask ∧
    encodeWasmTaskRequest smallTask {} = .ok (taskRequestBytes 0 smallTask) ∧
    taskRequestBytes 0 smallTask ≠ taskRequestBytes 1 smallTask :=
  ⟨decodeWasmTaskRequest_ok.mpr ⟨smallTask_fits, by decide, 1, rfl⟩,
    encodeWasmTaskRequest_ok.mpr ⟨smallTask_fits, by decide, rfl⟩, by decide⟩

end Overhauled.Wasm
