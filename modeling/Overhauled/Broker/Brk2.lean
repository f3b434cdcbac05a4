/-
  Overhauled.Broker.Brk2 — the BRK2/v2 frame body (`include/brk2_protocol.h`,
  `src/brk2_protocol.cpp`): a 32-byte envelope header, then TLV fields of an 8-byte
  header each. The TCP length prefix is the server's.

  `parse_fields` walks the TLVs from byte 32 to the end; `FieldView` is one of them,
  with the bytes it points at. `decode_brk2_request_body` checks the header, stores
  `*request_id`, and only then looks at the fields, so a rejection may come before or
  after the id was stored: the model takes the id the caller passed in and answers
  the one it leaves there.
-/

import Overhauled.Broker.Brk1
import Overhauled.Broker.Utf8Check

namespace Overhauled.Broker

open Wire Reader

def brk2Magic : UInt32 := 0x42524b32
def brk2Major : UInt8 := 2
def brk2HeaderBytes : Nat := 32
def brk2SchemaRequest : UInt32 := 1
def brk2SchemaResponse : UInt32 := 2

def msgRequest : UInt16 := 3
def msgResponse : UInt16 := 4
def flagResponse : UInt16 := 1
def flagEndStream : UInt16 := 4

def wtU8 : UInt8 := 1
def wtU32 : UInt8 := 3
def wtU64 : UInt8 := 4
def wtI64 : UInt8 := 5
def wtUtf8 : UInt8 := 8
def wtBytes : UInt8 := 9
def wtUuid : UInt8 := 12

def fieldCritical : UInt8 := 1

structure FieldView where
  id : UInt16
  type : UInt8
  flags : UInt8
  value : Bytes
  deriving DecidableEq, Repr

/-! ## Decoding a request -/

/-- One turn of `parse_fields`' loop. -/
def parseField (fields : List FieldView) : Reader FieldView := do
  let left ← remaining
  rejectIf (left < 8) (ascii "truncated BRK2 TLV header")
  let id ← u16
  let type ← u8
  let flags ← u8
  let len ← u32
  rejectIf (flags.toNat &&& 0xfc ≠ 0) (ascii "invalid BRK2 field flags")
  rejectIf (type < 1 ∨ type > 12) (ascii "unknown BRK2 wire type")
  let left ← remaining
  rejectIf (len.toNat > left) (ascii "truncated BRK2 TLV value")
  let value ← fetch len.toNat
  rejectIf (fields.any fun x => x.id == id) (ascii "duplicate BRK2 singular field")
  return ⟨id, type, flags, value⟩

/-- `while (pos < body.size())`; a turn takes at least 8 bytes, so the body's length
    bounds the loop. -/
def parseFields : Nat → List FieldView → Reader (List FieldView)
  | fuel, fields => do
    let left ← remaining
    if left = 0 then return fields
    else
      match fuel with
      | 0 => outOfFuel
      | fuel + 1 => do
        let f ← parseField fields
        parseFields fuel (fields ++ [f])

def find (fs : List FieldView) (id : UInt16) : Option FieldView := fs.find? fun f => f.id == id

def getString (fs : List FieldView) (id : UInt16) : Reader Bytes :=
  match find fs id with
  | none => reject (ascii "missing or wrong-type BRK2 string field " ++ decimal id.toNat)
  | some f => do
    rejectIf (f.type ≠ wtUtf8) (ascii "missing or wrong-type BRK2 string field " ++ decimal id.toNat)
    rejectIf (validUtf8 f.value = false) (ascii "invalid UTF-8 in BRK2 string field")
    rejectIf (f.value = []) (ascii "empty BRK2 required string field " ++ decimal id.toNat)
    return f.value

def getFixed (fs : List FieldView) (id : UInt16) (type : UInt8) (n : Nat) : Reader Bytes :=
  match find fs id with
  | none => reject (ascii "missing or invalid BRK2 field " ++ decimal id.toNat)
  | some f => do
    rejectIf (f.type ≠ type ∨ f.value.length ≠ n) (ascii "missing or invalid BRK2 field " ++ decimal id.toNat)
    return f.value

/-- An optional field that, when present, has a fixed type and length. -/
def checkOptional (fs : List FieldView) (id : UInt16) (type : UInt8) (n : Nat) (msg : Bytes) : Reader Unit :=
  match find fs id with
  | none => return ()
  | some f => rejectIf (f.type ≠ type ∨ f.value.length ≠ n) msg

def devicePreferences : List Bytes := [ascii "cpu", ascii "gpu", ascii "npu", ascii "auto"]

def getDevicePreference (fs : List FieldView) : Reader Bytes :=
  match find fs 10 with
  | none => return []
  | some f => do
    rejectIf (f.type ≠ wtUtf8) (ascii "invalid BRK2 device_preference type")
    rejectIf (f.value ∉ devicePreferences) (ascii "unknown BRK2 device_preference")
    return f.value

/-- Everything up to the store of `*request_id`. -/
def headerReader (limits : ProtocolLimits) : Reader UInt64 := do
  let n ← size
  rejectIf (n < brk2HeaderBytes ∨ n > limits.maxFrameBytes) (ascii "invalid BRK2 frame size")
  let magic ← peekWord 0 4
  rejectIf (magic ≠ brk2Magic.toNat) (ascii "invalid BRK2 magic")
  let major ← peekWord 4 1
  rejectIf (major ≠ brk2Major.toNat) (ascii "unsupported BRK2 major version")
  let headerLen ← peekWord 6 2
  rejectIf (headerLen ≠ brk2HeaderBytes) (ascii "invalid BRK2 header length")
  let type ← peekWord 8 2
  rejectIf (type ≠ msgRequest.toNat) (ascii "unexpected BRK2 message type")
  let flags ← peekWord 10 2
  rejectIf (flags ≠ 0) (ascii "unsupported BRK2 request flags")
  let reserved ← peekWord 26 2
  rejectIf (reserved ≠ 0) (ascii "BRK2 reserved field must be zero")
  let payloadLen ← peekWord 28 4
  rejectIf (payloadLen > limits.maxPayloadBytes ∨ payloadLen ≠ n - brk2HeaderBytes)
    (ascii "BRK2 payload length mismatch or limit exceeded")
  let schema ← peekWord 20 4
  let schemaVersion ← peekWord 24 2
  rejectIf (schema ≠ brk2SchemaRequest.toNat ∨ schemaVersion ≠ 1) (ascii "unsupported BRK2 request schema")
  let requestId ← peekWord 12 8
  return UInt64.ofNat requestId

/-- What follows `parse_fields`: the lookups and their checks. -/
def requestOfFields (limits : ProtocolLimits) (fs : List FieldView) : Reader BrokerRequest := do
  rejectIf (fs.any fun f => !(decide (f.id ≥ 1) && decide (f.id ≤ 10)) && (f.flags &&& fieldCritical != 0))
    (ascii "unknown critical BRK2 field")
  let taskId ← getString fs 1
  let source ← getString fs 2
  let destination ← getString fs 3
  let kind ← getString fs 4
  rejectIf (∃ value ∈ [taskId, source, destination, kind], value.length > limits.maxStringBytes)
    (ascii "BRK2 string exceeds configured limit")
  let priority ← getFixed fs 5 wtU8 1
  let timeout ← getFixed fs 6 wtU32 4
  let payload ← getFixed fs 7 wtBytes (match find fs 7 with | some f => f.value.length | none => 0)
  rejectIf (payload.length > limits.maxPayloadBytes) (ascii "BRK2 request payload exceeds limit")
  checkOptional fs 8 wtUuid 16 (ascii "invalid BRK2 idempotency key")
  checkOptional fs 9 wtU64 8 (ascii "invalid BRK2 deadline")
  let devicePreference ← getDevicePreference fs
  rejectIf (ofBe timeout = 0 ∨ ofBe timeout > brokerMaxTimeoutMs) (ascii "BRK2 timeout_ms outside 1..300000")
  let n ← size
  rejectIf (n > limits.maxFrameBytes) (ascii "BRK2 frame exceeds limit")
  return { taskId, source, destination, kind, payload, devicePreference
           priority := UInt8.ofNat (ofBe priority), timeoutMs := UInt32.ofNat (ofBe timeout) }

/-- Everything after the store. -/
def fieldsReader (limits : ProtocolLimits) : Reader BrokerRequest := do
  let n ← size
  seek brk2HeaderBytes
  let fs ← parseFields n []
  requestOfFields limits fs

/-- Given the id `*request_id` held before the call, the id it holds after it and the outcome. -/
def decodeBrk2RequestBody (body : Bytes) (requestId : UInt64) (limits : ProtocolLimits) :
    UInt64 × Except Stop BrokerRequest :=
  match (headerReader limits).run body with
  | .error e => (requestId, .error e)
  | .ok requestId => (requestId, (fieldsReader limits).run body)

/-! ## Encoding a response -/

def putField (p : Bytes) (id : UInt16) (type : UInt8) (data : Bytes) (flags : UInt8) : Except Bytes Bytes := do
  failIf (data.length > 0xffffffff) (ascii "BRK2 field too large")
  return p ++ be 2 id.toNat ++ [type] ++ [flags] ++ be 4 data.length ++ data

def fieldStr (p : Bytes) (id : UInt16) (s : Bytes) : Except Bytes Bytes := putField p id wtUtf8 s 0
def fieldU8 (p : Bytes) (id : UInt16) (v : UInt8) : Except Bytes Bytes := putField p id wtU8 [v] 0
def fieldU64 (p : Bytes) (id : UInt16) (v : UInt64) : Except Bytes Bytes := putField p id wtU64 (be 8 v.toNat) 0
def fieldI64 (p : Bytes) (id : UInt16) (v : Int64) : Except Bytes Bytes := putField p id wtI64 (be 8 v.toUInt64.toNat) 0
def fieldBytes (p : Bytes) (id : UInt16) (v : Bytes) : Except Bytes Bytes := putField p id wtBytes v 0

def envelope (type flags : UInt16) (requestId : UInt64) (schema : UInt32) (payload : Bytes) : Bytes :=
  be 4 brk2Magic.toNat ++ [brk2Major] ++ [0] ++ be 2 brk2HeaderBytes ++ be 2 type.toNat ++ be 2 flags.toNat ++
    be 8 requestId.toNat ++ be 4 schema.toNat ++ be 2 1 ++ be 2 0 ++ be 4 payload.length ++ payload

def encodeBrk2ResponseBody (r : BrokerResponse) (requestId : UInt64) (limits : ProtocolLimits) :
    Except Bytes Bytes := do
  failIf (r.result.length > limits.maxPayloadBytes) (ascii "BRK2 response payload exceeds limit")
  failIf (r.taskId.length > limits.maxStringBytes ∨ r.error.length > limits.maxStringBytes)
    (ascii "BRK2 response string exceeds configured limit")
  let p ← fieldStr [] 1 r.taskId
  let p ← fieldU8 p 2 r.status.raw
  let p ← fieldI64 p 3 r.selectedGpu.toInt64
  let p ← fieldU64 p 4 r.latencyMs
  let p ← fieldBytes p 5 r.result
  let p ← fieldStr p 6 r.error
  let p ← fieldStr p 7 (backendName r.backend)
  failIf (p.length > limits.maxPayloadBytes ∨ brk2HeaderBytes + p.length > limits.maxFrameBytes)
    (ascii "BRK2 response exceeds frame limit")
  return envelope msgResponse (flagResponse ||| flagEndStream) requestId brk2SchemaResponse p

end Overhauled.Broker
