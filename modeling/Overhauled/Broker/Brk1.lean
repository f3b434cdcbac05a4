/-
  Overhauled.Broker.Brk1 — broker messages and the BRK1/v1 frame
  (`include/broker_protocol.h`, `src/broker_protocol.cpp`).

  A frame is an 8-byte header (magic, version, message type, a zero byte) and then
  length-prefixed fields in network order. The encoders append and may throw (a text);
  the decoders are `Reader`s. `requestBytes` and `responseBytes` are the layout on its
  own; `RequestFits` and `ResponseFits` are the limits, and
  - `encodeRequestFrame_ok`, `encodeResponseFrame_ok`: an encoder answers exactly the
    layout of a message within the limits;
  - `decodeRequestFrame_ok`, `decodeResponseFrame_ok`: a decoder accepts exactly the
    layouts of such messages.
  So decoding undoes encoding and an accepted frame has one spelling.
-/

import Overhauled.Wire.Reader
import Overhauled.Wire.Writer
import Overhauled.Broker.Dispatch

namespace Overhauled.Broker

open Wire Reader

def brokerMagic : UInt32 := 0x42524b31
def brokerProtocolVersion : UInt16 := 1
def brokerMaxTimeoutMs : Nat := 300000

inductive MessageType where
  | request
  | response
  deriving DecidableEq, Repr

def MessageType.raw : MessageType → UInt8
  | .request => 1
  | .response => 2

inductive TaskStatus where
  | ok
  | rejected
  | error
  | timeout
  deriving DecidableEq, Repr

def TaskStatus.raw : TaskStatus → UInt8
  | .ok => 0
  | .rejected => 1
  | .error => 2
  | .timeout => 3

/-- `static_cast<TaskStatus>` of a byte the decoder has checked to be at most 3. -/
def TaskStatus.ofRaw (raw : UInt8) : TaskStatus :=
  if raw = 0 then .ok else if raw = 1 then .rejected else if raw = 2 then .error else .timeout

structure ProtocolLimits where
  maxFrameBytes : Nat := 1024 * 1024
  maxPayloadBytes : Nat := 512 * 1024
  maxStringBytes : Nat := 1024
  deriving DecidableEq, Repr

structure BrokerRequest where
  taskId : Bytes := []
  source : Bytes := []
  destination : Bytes := []
  kind : Bytes := []
  priority : UInt8 := 0
  timeoutMs : UInt32 := 0
  payload : Bytes := []
  /-- In-process only; no frame carries it. -/
  profile : Option TaskProfile := none
  /-- BRK2 field 10 when present: empty (unset), cpu, gpu, npu or auto. -/
  devicePreference : Bytes := []
  deriving DecidableEq, Repr

structure BrokerResponse where
  taskId : Bytes := []
  status : TaskStatus := .error
  selectedGpu : Int32 := -1
  latencyMs : UInt64 := 0
  result : Bytes := []
  error : Bytes := []
  /-- Carried by BRK2 only. -/
  backend : BackendKind := .cpu
  fellBackToCpu : Bool := false
  deriving DecidableEq, Repr

/-! ## Encoding -/

def appendString (out value : Bytes) (limits : ProtocolLimits) : Except Bytes Bytes :=
  appendPre 2 limits.maxStringBytes (ascii "string exceeds maximum length") out value

def appendBlob (out value : Bytes) (limits : ProtocolLimits) : Except Bytes Bytes :=
  appendPre 4 limits.maxPayloadBytes (ascii "payload exceeds maximum length") out value

def appendCommonHeader (frame : Bytes) (type : MessageType) : Bytes :=
  frame ++ be 4 brokerMagic.toNat ++ be 2 brokerProtocolVersion.toNat ++ [type.raw] ++ [0]

/-- `none` when the request is valid, else the text of `*error`. -/
def validateRequest (request : BrokerRequest) (limits : ProtocolLimits) : Option Bytes :=
  if request.taskId = [] then some (ascii "task_id must be non-empty")
  else if request.source = [] ∨ request.destination = [] ∨ request.kind = [] then
    some (ascii "source, destination, and kind must be non-empty")
  else if request.timeoutMs = 0 then some (ascii "timeout_ms must be greater than zero")
  else if request.timeoutMs.toNat > brokerMaxTimeoutMs then some (ascii "timeout_ms exceeds maximum of 300000 ms")
  else if request.payload.length > limits.maxPayloadBytes then some (ascii "payload exceeds max_payload_bytes")
  else none

def encodeRequestFrame (request : BrokerRequest) (limits : ProtocolLimits) : Except Bytes Bytes := do
  match validateRequest request limits with
  | some error => throw error
  | none => pure ()
  let frame := appendCommonHeader [] .request
  let frame ← appendString frame request.taskId limits
  let frame ← appendString frame request.source limits
  let frame ← appendString frame request.destination limits
  let frame ← appendString frame request.kind limits
  let frame := frame ++ [request.priority] ++ be 4 request.timeoutMs.toNat
  let frame ← appendBlob frame request.payload limits
  failIf (frame.length > limits.maxFrameBytes) (ascii "encoded request frame exceeds max_frame_bytes")
  return frame

def encodeResponseFrame (response : BrokerResponse) (limits : ProtocolLimits) : Except Bytes Bytes := do
  let frame := appendCommonHeader [] .response
  let frame ← appendString frame response.taskId limits
  let frame := frame ++ [response.status.raw] ++ be 4 response.selectedGpu.toUInt32.toNat ++
    be 8 response.latencyMs.toNat
  let frame ← appendBlob frame response.result limits
  let frame ← appendString frame response.error limits
  failIf (frame.length > limits.maxFrameBytes) (ascii "encoded response frame exceeds max_frame_bytes")
  return frame

/-! ## Decoding -/

def readString (limits : ProtocolLimits) : Reader Bytes :=
  prefixed 2 limits.maxStringBytes (ascii "frame truncated") (ascii "string exceeds configured limit")

def readBlob (limits : ProtocolLimits) : Reader Bytes :=
  prefixed 4 limits.maxPayloadBytes (ascii "frame truncated") (ascii "payload exceeds configured limit")

def decodeCommonHeader (expectedType : MessageType) (limits : ProtocolLimits) : Reader Unit := do
  let n ← size
  rejectIf (n = 0 ∨ n > limits.maxFrameBytes) (ascii "invalid frame size")
  take 8 (ascii "frame truncated")
  let magic ← u32
  let version ← u16
  let typeRaw ← u8
  let reserved ← u8
  rejectIf (magic ≠ brokerMagic) (ascii "invalid broker protocol magic")
  rejectIf (version ≠ brokerProtocolVersion) (ascii "unsupported broker protocol version")
  rejectIf (typeRaw ≠ expectedType.raw) (ascii "unexpected broker protocol message type")
  rejectIf (reserved ≠ 0) (ascii "reserved broker protocol byte must be zero")

def requestReader (limits : ProtocolLimits) : Reader BrokerRequest := do
  decodeCommonHeader .request limits
  let taskId ← readString limits
  let source ← readString limits
  let destination ← readString limits
  let kind ← readString limits
  take 5 (ascii "frame truncated")
  let priority ← u8
  let timeoutMs ← u32
  let payload ← readBlob limits
  atEnd (ascii "request frame contains trailing bytes")
  let request : BrokerRequest :=
    { taskId, source, destination, kind, priority, timeoutMs, payload }
  rejectSome (validateRequest request limits)
  return request

def decodeRequestFrame (frame : Bytes) (limits : ProtocolLimits) : Except Stop BrokerRequest :=
  (requestReader limits).run frame

def responseReader (limits : ProtocolLimits) : Reader BrokerResponse := do
  decodeCommonHeader .response limits
  let taskId ← readString limits
  take 13 (ascii "frame truncated")
  let statusRaw ← u8
  rejectIf (statusRaw > TaskStatus.timeout.raw) (ascii "invalid broker response status")
  let gpu ← u32
  let latencyMs ← u64
  let result ← readBlob limits
  let error ← readString limits
  atEnd (ascii "response frame contains trailing bytes")
  return { taskId, latencyMs, result, error
           status := TaskStatus.ofRaw statusRaw, selectedGpu := gpu.toInt32 }

def decodeResponseFrame (frame : Bytes) (limits : ProtocolLimits) : Except Stop BrokerResponse :=
  (responseReader limits).run frame

/-! ## The layout and the limits -/

def requestBytes (r : BrokerRequest) : Bytes :=
  appendCommonHeader [] .request ++ pre 2 r.taskId ++ pre 2 r.source ++ pre 2 r.destination ++ pre 2 r.kind ++
    [r.priority] ++ be 4 r.timeoutMs.toNat ++ pre 4 r.payload

def responseBytes (r : BrokerResponse) : Bytes :=
  appendCommonHeader [] .response ++ pre 2 r.taskId ++ [r.status.raw] ++ be 4 r.selectedGpu.toUInt32.toNat ++
    be 8 r.latencyMs.toNat ++ pre 4 r.result ++ pre 2 r.error

/-- A string field within the limits. -/
def StringFits (limits : ProtocolLimits) (v : Bytes) : Prop := v.length ≤ limits.maxStringBytes ∧ v.length < 256 ^ 2

def BlobFits (limits : ProtocolLimits) (v : Bytes) : Prop := v.length ≤ limits.maxPayloadBytes ∧ v.length < 256 ^ 4

structure RequestFits (limits : ProtocolLimits) (r : BrokerRequest) : Prop where
  taskId : StringFits limits r.taskId
  source : StringFits limits r.source
  destination : StringFits limits r.destination
  kind : StringFits limits r.kind
  payload : BlobFits limits r.payload
  valid : validateRequest r limits = none
  frame : (requestBytes r).length ≤ limits.maxFrameBytes

structure ResponseFits (limits : ProtocolLimits) (r : BrokerResponse) : Prop where
  taskId : StringFits limits r.taskId
  result : BlobFits limits r.result
  error : StringFits limits r.error
  frame : (responseBytes r).length ≤ limits.maxFrameBytes

theorem length_responseBytes (r : BrokerResponse) :
    (responseBytes r).length = 29 + r.taskId.length + r.result.length + r.error.length := by
  simp only [responseBytes, appendCommonHeader, List.length_append, length_be, length_pre, List.length_singleton,
    List.length_nil]
  omega

theorem encodeResponseFrame_ok {r : BrokerResponse} {limits : ProtocolLimits} {frame : Bytes} :
    encodeResponseFrame r limits = .ok frame ↔ ResponseFits limits r ∧ frame = responseBytes r := by
  simp only [encodeResponseFrame, appendString, appendBlob, except_bind_ok, appendPre_ok, failIf_ok, except_pure_ok]
  refine ⟨?_, ?_⟩
  · intro h
    obtain ⟨_, ⟨ht, rfl⟩, _, ⟨hr, rfl⟩, _, ⟨he, rfl⟩, _, hl, rfl⟩ := h
    exact ⟨⟨ht, hr, he, Nat.le_of_not_lt hl⟩, rfl⟩
  · intro h
    obtain ⟨h, rfl⟩ := h
    exact ⟨_, ⟨h.taskId, rfl⟩, _, ⟨h.result, rfl⟩, _, ⟨h.error, rfl⟩, (), Nat.not_lt_of_le h.frame, rfl⟩

theorem encodeRequestFrame_ok {r : BrokerRequest} {limits : ProtocolLimits} {frame : Bytes} :
    encodeRequestFrame r limits = .ok frame ↔ RequestFits limits r ∧ frame = requestBytes r := by
  unfold encodeRequestFrame
  cases hv : validateRequest r limits with
  | some e =>
    refine ⟨?_, ?_⟩
    · intro h; cases h
    · intro h
      obtain ⟨h, -⟩ := h
      rw [h.valid] at hv
      cases hv
  | none =>
    simp only [appendString, appendBlob, except_bind_ok, appendPre_ok, failIf_ok, except_pure_ok]
    refine ⟨?_, ?_⟩
    · intro h
      obtain ⟨_, ⟨h1, rfl⟩, _, ⟨h2, rfl⟩, _, ⟨h3, rfl⟩, _, ⟨h4, rfl⟩, _, ⟨h5, rfl⟩, _, hl, rfl⟩ := h
      exact ⟨⟨h1, h2, h3, h4, h5, hv, Nat.le_of_not_lt hl⟩, rfl⟩
    · intro h
      obtain ⟨h, rfl⟩ := h
      exact ⟨_, ⟨h.taskId, rfl⟩, _, ⟨h.source, rfl⟩, _, ⟨h.destination, rfl⟩, _, ⟨h.kind, rfl⟩,
        _, ⟨h.payload, rfl⟩, (), Nat.not_lt_of_le h.frame, rfl⟩

/-! ## What the decoders accept -/

section
variable {frame : Bytes} {off off' : Nat} {limits : ProtocolLimits}

theorem readString_ok {v : Bytes} :
    readString limits frame off = .ok (v, off') ↔ StringFits limits v ∧ At frame off (pre 2 v) off' := by
  rw [readString, prefixed_ok, StringFits, and_assoc]

theorem readBlob_ok {v : Bytes} :
    readBlob limits frame off = .ok (v, off') ↔ BlobFits limits v ∧ At frame off (pre 4 v) off' := by
  rw [readBlob, prefixed_ok, BlobFits, and_assoc]

theorem decodeCommonHeader_ok {type : MessageType} {u : Unit} :
    decodeCommonHeader type limits frame off = .ok (u, off') ↔
      frame.length ≤ limits.maxFrameBytes ∧ At frame off (appendCommonHeader [] type) off' := by
  simp only [decodeCommonHeader, bind_ok, size_ok, rejectIf_ok, take_ok, u32_ok, u16_ok, u8_ok, appendCommonHeader,
    List.nil_append, at_append, ← be_one]
  refine ⟨?_, ?_⟩
  · intro h
    obtain ⟨_, _, ⟨rfl, rfl⟩, _, _, ⟨hs, rfl⟩, _, _, ⟨-, rfl⟩, m, o1, h1, v, o2, h2, t, o3, h3, z, o4, h4,
      _, _, ⟨hm, rfl⟩, _, _, ⟨hv, rfl⟩, _, _, ⟨ht, rfl⟩, hz, rfl⟩ := h
    simp only [ne_eq, not_not] at hm hv ht hz
    subst hm hv ht hz
    exact ⟨by omega, o3, ⟨o2, ⟨o1, h1, h2⟩, h3⟩, h4⟩
  · intro h
    obtain ⟨hs, o3, ⟨o2, ⟨o1, h1, h2⟩, h3⟩, h4⟩ := h
    have e1 := h1.1
    have e2 := h2.1
    have e3 := h3.1
    have e4 := h4.1
    have hle := h4.le
    simp only [length_be] at e1 e2 e3 e4
    exact ⟨_, off, ⟨rfl, rfl⟩, (), off, ⟨by omega, rfl⟩, (), off, ⟨by omega, rfl⟩, _, o1, h1, _, o2, h2, _, o3, h3,
      0, off', h4, (), off', ⟨by simp, rfl⟩, (), off', ⟨by simp, rfl⟩, (), off', ⟨by simp, rfl⟩, by simp, rfl⟩

theorem raw_ofRaw {raw : UInt8} (h : ¬ raw > TaskStatus.timeout.raw) : (TaskStatus.ofRaw raw).raw = raw := by
  unfold TaskStatus.ofRaw
  split
  · subst raw; rfl
  split
  · subst raw; rfl
  split
  · subst raw; rfl
  · rename_i h0 h1 h2
    have n0 : raw.toNat ≠ 0 := fun e => h0 (UInt8.toNat_inj.mp e)
    have n1 : raw.toNat ≠ 1 := fun e => h1 (UInt8.toNat_inj.mp e)
    have n2 : raw.toNat ≠ 2 := fun e => h2 (UInt8.toNat_inj.mp e)
    have hle : ¬ raw.toNat > 3 := fun e => h (UInt8.lt_iff_toNat_lt.mpr e)
    exact UInt8.toNat_inj.mp (show 3 = raw.toNat by omega)

theorem ofRaw_raw (s : TaskStatus) : TaskStatus.ofRaw s.raw = s := by cases s <;> rfl

theorem raw_le (s : TaskStatus) : ¬ s.raw > TaskStatus.timeout.raw := by cases s <;> decide

/-- A request frame is accepted exactly when it is the layout of a request within the
    limits; the fields no BRK1 frame carries keep their defaults. -/
theorem decodeRequestFrame_ok {r : BrokerRequest} :
    decodeRequestFrame frame limits = .ok r ↔
      RequestFits limits r ∧ r.profile = none ∧ r.devicePreference = [] ∧ frame = requestBytes r := by
  simp only [decodeRequestFrame, run_ok, requestReader, bind_ok, decodeCommonHeader_ok, readString_ok, take_ok, u8_ok,
    u32_ok, readBlob_ok, atEnd_ok, rejectSome_ok, pure_ok]
  refine ⟨?_, ?_⟩
  · intro h
    obtain ⟨_, _, o0, ⟨hs, h0⟩, t, o1, ⟨ft, h1⟩, s, o2, ⟨fs, h2⟩, d, o3, ⟨fd, h3⟩, k, o4, ⟨fk, h4⟩, _, _, ⟨-, rfl⟩,
      p, o5, h5, m, o6, h6, b, o7, ⟨fb, h7⟩, _, _, ⟨rfl, rfl⟩, _, _, ⟨hv, rfl⟩, rfl, -⟩ := h
    have hf : frame = requestBytes (.mk t s d k p m b none []) := by
      rw [← at_whole, requestBytes]
      simp only [at_append, ← be_one]
      exact ⟨o6, ⟨o5, ⟨_, ⟨o3, ⟨o2, ⟨o1, ⟨o0, h0, h1⟩, h2⟩, h3⟩, h4⟩, h5⟩, h6⟩, h7⟩
    exact ⟨⟨ft, fs, fd, fk, fb, hv, hf ▸ hs⟩, rfl, rfl, hf⟩
  · intro h
    obtain ⟨h, hp, hd, hf⟩ := h
    have hw := at_whole.mpr hf
    rw [requestBytes] at hw
    simp only [at_append, ← be_one] at hw
    obtain ⟨o6, ⟨o5, ⟨o4, ⟨o3, ⟨o2, ⟨o1, ⟨o0, h0, h1⟩, h2⟩, h3⟩, h4⟩, h5⟩, h6⟩, h7⟩ := hw
    have e5 := h5.1
    have e6 := h6.1
    have hle := h6.le
    simp only [length_be] at e5 e6
    refine ⟨frame.length, (), o0, ⟨hf ▸ h.frame, h0⟩, _, o1, ⟨h.taskId, h1⟩, _, o2, ⟨h.source, h2⟩, _, o3,
      ⟨h.destination, h3⟩, _, o4, ⟨h.kind, h4⟩, (), o4, ⟨by omega, rfl⟩, _, o5, h5, _, o6, h6, _, frame.length,
      ⟨h.payload, h7⟩, (), frame.length, ⟨rfl, rfl⟩, (), frame.length, ⟨?_, rfl⟩, ?_, rfl⟩ <;> cases r <;> cases hp <;>
      cases hd
    · exact h.valid
    · rfl

/-- The fields of a response that a BRK1 frame carries. -/
def wireResponse (r : BrokerResponse) : BrokerResponse := { r with backend := .cpu, fellBackToCpu := false }

theorem decodeResponseFrame_ok {r : BrokerResponse} :
    decodeResponseFrame frame limits = .ok r ↔
      ResponseFits limits r ∧ wireResponse r = r ∧ frame = responseBytes r := by
  simp only [decodeResponseFrame, run_ok, responseReader, bind_ok, decodeCommonHeader_ok, readString_ok, take_ok, u8_ok,
    u32_ok, u64_ok, readBlob_ok, atEnd_ok, rejectIf_ok, pure_ok]
  refine ⟨?_, ?_⟩
  · intro h
    obtain ⟨_, _, o0, ⟨hs, h0⟩, t, o1, ⟨ft, h1⟩, _, _, ⟨-, rfl⟩, st, o2, h2, _, _, ⟨hst, rfl⟩, g, o3, h3, l, o4, h4,
      b, o5, ⟨fb, h5⟩, e, o6, ⟨fe, h6⟩, _, _, ⟨rfl, rfl⟩, rfl, -⟩ := h
    have hf : frame = responseBytes (.mk t (.ofRaw st) g.toInt32 l b e .cpu false) := by
      rw [← at_whole, responseBytes]
      simp only [at_append, ← be_one, raw_ofRaw hst, UInt32.toUInt32_toInt32]
      exact ⟨o5, ⟨o4, ⟨o3, ⟨_, ⟨_, ⟨o0, h0, h1⟩, h2⟩, h3⟩, h4⟩, h5⟩, h6⟩
    exact ⟨⟨ft, fb, fe, hf ▸ hs⟩, rfl, hf⟩
  · intro h
    obtain ⟨h, hw, hf⟩ := h
    have ha := at_whole.mpr hf
    rw [responseBytes] at ha
    simp only [at_append, ← be_one] at ha
    obtain ⟨o5, ⟨o4, ⟨o3, ⟨o2, ⟨o1, ⟨o0, h0, h1⟩, h2⟩, h3⟩, h4⟩, h5⟩, h6⟩ := ha
    have e2 := h2.1
    have e3 := h3.1
    have e4 := h4.1
    have hle := h4.le
    simp only [length_be] at e2 e3 e4
    refine ⟨frame.length, (), o0, ⟨hf ▸ h.frame, h0⟩, _, o1, ⟨h.taskId, h1⟩, (), o1, ⟨by omega, rfl⟩, _, o2, h2, (), o2,
      ⟨raw_le _, rfl⟩, _, o3, h3, _, o4, h4, _, o5, ⟨h.result, h5⟩, _, frame.length, ⟨h.error, h6⟩, (), frame.length,
      ⟨rfl, rfl⟩, ?_, rfl⟩
    rw [ofRaw_raw, Int32.toInt32_toUInt32]
    exact hw.symm

/-! ## Round trips -/

/-- The fields of a request that a BRK1 frame carries. -/
def wireRequest (r : BrokerRequest) : BrokerRequest := { r with profile := none, devicePreference := [] }

theorem decode_encodeRequest {r : BrokerRequest} (h : encodeRequestFrame r limits = .ok frame) :
    decodeRequestFrame frame limits = .ok (wireRequest r) := by
  obtain ⟨hf, rfl⟩ := encodeRequestFrame_ok.mp h
  have hfits : RequestFits limits (wireRequest r) :=
    ⟨hf.taskId, hf.source, hf.destination, hf.kind, hf.payload, hf.valid, hf.frame⟩
  exact decodeRequestFrame_ok.mpr ⟨hfits, rfl, rfl, rfl⟩

/-- Decoding undoes encoding, up to the fields a BRK1 frame does not carry. -/
theorem decode_encodeResponse {r : BrokerResponse} (h : encodeResponseFrame r limits = .ok frame) :
    decodeResponseFrame frame limits = .ok (wireResponse r) := by
  obtain ⟨hf, rfl⟩ := encodeResponseFrame_ok.mp h
  exact decodeResponseFrame_ok.mpr ⟨⟨hf.taskId, hf.result, hf.error, hf.frame⟩, rfl, rfl⟩

theorem encode_decodeRequest {r : BrokerRequest} (h : decodeRequestFrame frame limits = .ok r) :
    encodeRequestFrame r limits = .ok frame := by
  obtain ⟨hfits, -, -, hf⟩ := decodeRequestFrame_ok.mp h
  exact encodeRequestFrame_ok.mpr ⟨hfits, hf⟩

theorem encode_decodeResponse {r : BrokerResponse} (h : decodeResponseFrame frame limits = .ok r) :
    encodeResponseFrame r limits = .ok frame := by
  obtain ⟨hfits, -, hf⟩ := decodeResponseFrame_ok.mp h
  exact encodeResponseFrame_ok.mpr ⟨hfits, hf⟩

end

/-- Under any limits, a frame an encoder answers is decoded to the message's wire fields,
    and a frame a decoder accepts is the one its message is encoded to. -/
theorem brk1_bijection (limits : ProtocolLimits) (frame : Bytes) :
    (∀ r, encodeRequestFrame r limits = .ok frame → decodeRequestFrame frame limits = .ok (wireRequest r)) ∧
    (∀ r, encodeResponseFrame r limits = .ok frame → decodeResponseFrame frame limits = .ok (wireResponse r)) ∧
    (∀ r, decodeRequestFrame frame limits = .ok r → encodeRequestFrame r limits = .ok frame) ∧
    (∀ r, decodeResponseFrame frame limits = .ok r → encodeResponseFrame r limits = .ok frame) :=
  ⟨fun _ => decode_encodeRequest, fun _ => decode_encodeResponse, fun _ => encode_decodeRequest,
    fun _ => encode_decodeResponse⟩

def smallRequest : BrokerRequest :=
  { taskId := ascii "t", source := ascii "s", destination := ascii "d", kind := ascii "k", priority := 255
    timeoutMs := 300000, payload := [0, 1], profile := some {}, devicePreference := ascii "gpu" }

def smallResponse : BrokerResponse :=
  { taskId := ascii "t", status := .timeout, selectedGpu := -5, latencyMs := 0xffffffffffffffff, result := [7]
    error := ascii "late", backend := .npu }

theorem smallRequest_fits : RequestFits {} smallRequest := by
  refine ⟨?_, ?_, ?_, ?_, ?_, ?_, ?_⟩
  all_goals first | exact ⟨by decide, by decide⟩ | decide

theorem smallResponse_fits : ResponseFits {} smallResponse := by
  refine ⟨?_, ?_, ?_, ?_⟩
  all_goals first | exact ⟨by decide, by decide⟩ | decide

theorem brk1_bijection_small :
    decodeRequestFrame (requestBytes smallRequest) {} = .ok (wireRequest smallRequest) ∧
    decodeResponseFrame (responseBytes smallResponse) {} = .ok (wireResponse smallResponse) ∧
    encodeRequestFrame (wireRequest smallRequest) {} = .ok (requestBytes smallRequest) ∧
    encodeResponseFrame (wireResponse smallResponse) {} = .ok (responseBytes smallResponse) :=
  have hreq := (brk1_bijection {} _).1 _ (encodeRequestFrame_ok.mpr ⟨smallRequest_fits, rfl⟩)
  have hresp := (brk1_bijection {} _).2.1 _ (encodeResponseFrame_ok.mpr ⟨smallResponse_fits, rfl⟩)
  ⟨hreq, hresp, (brk1_bijection {} _).2.2.1 _ hreq, (brk1_bijection {} _).2.2.2 _ hresp⟩

end Overhauled.Broker
