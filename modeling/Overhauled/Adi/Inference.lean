/-
  Overhauled.Adi.Inference — what `src/gpu_runtime_server.cpp` does with the requests of its
  clients: `handle_client` takes the payload apart, a worker copies a task's input to its
  GPU. Nothing compares the lengths that meet there, `payload_len` (the peer's), the sizes
  of the headers (the protocol's) and `total_input_bytes` (the model's,
  `include/trt_model_engine.hpp`).

  A `Packet` is what a client's thread holds once the payload is in: the requests
  `Runtime.step` parses are packets (`parsed_are_packets`), and every packet is parsed from
  its own bytes (`packet_is_parsed`). The accesses to its payload, in the thread and later
  in the worker, are inside exactly when the payload is long enough for its opcode and model
  (`payload_accesses_inside_iff`). `short_payloads_are_overrun` is one payload for each way
  to be too short: no word, no header, no tensor. The threads together are in `Adi.Lanes`.
-/

import Overhauled.Wire.Access
import Overhauled.Wire.Host
import Overhauled.Adi.Runtime

namespace Overhauled.Adi.Inference

open Wire Machine Overhauled.Adi.Runtime

/-! ## Models -/

inductive TensorDataType where
  | fp32 | fp16 | int32 | int8 | fp64
  deriving DecidableEq, Repr

/-- `nvinfer1::DataType`, as far as the source names its members. -/
inductive DataType where
  | kFloat | kHalf | kInt32 | kInt8 | other
  deriving DecidableEq, Repr

def trtTypeToAdi : DataType → TensorDataType
  | .kFloat => .fp32
  | .kHalf => .fp16
  | .kInt32 => .int32
  | .kInt8 => .int8
  | .other => .fp32

def getElementSize : TensorDataType → UInt64
  | .fp32 => 4
  | .fp16 => 2
  | .int32 => 4
  | .int8 => 1
  | .fp64 => 8

/-- An input or output of an engine. -/
structure IoTensor where
  isInput : Bool
  dtype : DataType
  shape : List Int64
  deriving DecidableEq

def IoTensor.sizeBytes (t : IoTensor) : UInt64 :=
  let count := t.shape.foldl (fun (count : UInt64) d => count * (if d < 0 then 1 else d).toUInt64) 1
  count * getElementSize (trtTypeToAdi t.dtype)

structure Totals where
  input : UInt64 := 0
  output : UInt64 := 0
  deriving DecidableEq

def inspectBindings (engine : List IoTensor) : Totals :=
  engine.foldl
    (fun t io =>
      if io.isInput then { t with input := t.input + io.sizeBytes } else { t with output := t.output + io.sizeBytes })
    {}

/-- A model is its engine; the totals are those `inspectBindings` has left. -/
structure TrtModelInstance where
  engine : List IoTensor
  deriving DecidableEq

def TrtModelInstance.totalInputBytes (m : TrtModelInstance) : UInt64 := (inspectBindings m.engine).input
def TrtModelInstance.totalOutputBytes (m : TrtModelInstance) : UInt64 := (inspectBindings m.engine).output

abbrev Models := UInt32 → Option TrtModelInstance

/-- `built` is what TensorRT makes of the file. -/
def loadOnnxModel (models : Models) (modelId : UInt32) (built : Option TrtModelInstance) : Models :=
  match built with
  | none => models
  | some model => Function.update models modelId (some model)

/-! ## A request -/

/-- A request with the right magic number and all of its payload. -/
structure Packet where
  header : RequestHeader
  payload : Bytes
  genuine : header.magic = magicAdi1
  announced : payload.length = header.payloadLen

/-- What `handle_client` takes from a request. -/
inductive Handled where
  | load (modelId : UInt32) (onnxPath : Bytes)
  | infer (modelId : UInt32) (tensorBytes : Bytes)
  | nothing
  deriving DecidableEq

namespace Packet

def request (p : Packet) : Request := ⟨p.header.opcode, p.payload⟩

/-- The first word of the payload, as the host keeps it: for LOAD_MODEL the word itself, for
    EXECUTE_INFERENCE the first field of the `InferenceHeader`. -/
def modelId (host : Host) (p : Packet) : UInt32 := UInt32.ofNat (ofMemory host (p.payload.take 4))

/-- `req_hdr.payload_len - 4`, in 32 bits. -/
def pathLen (p : Packet) : UInt32 := UInt32.ofNat p.header.payloadLen - 4

def handle (host : Host) (p : Packet) : Handled :=
  if p.header.opcode = loadModel then .load (p.modelId host) ((p.payload.drop 4).take p.pathLen.toNat)
  else if p.header.opcode = executeInference then .infer (p.modelId host) (p.payload.drop 12)
  else .nothing

/-- What `handle_client` does to the payload. `handle` has the values as long as this is
    inside; what follows an access that is not is undefined. -/
def accesses (p : Packet) : List Access :=
  if p.header.opcode = loadModel then [.read 0 4, .sub p.header.payloadLen 4, .read 4 p.pathLen.toNat]
  else if p.header.opcode = executeInference then
    -- `payload.begin() + 12`, the copy from there to `payload.end()`, and the header at `inf_hdr`
    [.add 0 12, .sub p.payload.length 12, .read 12 (p.payload.length - 12), .read 0 12]
  else []

end Packet

/-- What the worker reads of a task's input: the source of `cudaMemcpyAsync`. -/
def copyIn (model : TrtModelInstance) : Access := .read 0 model.totalInputBytes.toNat

/-- The payload has the word or the header of its opcode, and after the header the input of
    the model it names. -/
def Packet.Sized (host : Host) (models : Models) (p : Packet) : Prop :=
  (p.header.opcode = loadModel → 4 ≤ p.payload.length) ∧
    (p.header.opcode = executeInference → 12 ≤ p.payload.length ∧
      ∀ model, models (p.modelId host) = some model → 12 + model.totalInputBytes.toNat ≤ p.payload.length)

theorem payloadLen_lt (h : RequestHeader) : h.payloadLen < 2 ^ 32 := by
  have hlt := ofBe_lt ((h.bytes.drop 4).take 4)
  have hlen : ((h.bytes.drop 4).take 4).length = 4 := by rw [List.length_take, List.length_drop, h.sized]; rfl
  rwa [hlen] at hlt

theorem Packet.pathLen_eq {p : Packet} (h : 4 ≤ p.payload.length) : p.pathLen.toNat = p.payload.length - 4 := by
  have hlt := payloadLen_lt p.header
  have hannounced := p.announced
  have hword : (UInt32.ofNat p.header.payloadLen).toNat = p.header.payloadLen := by
    rw [UInt32.toNat_ofNat', Nat.mod_eq_of_lt hlt]
  have hle : (4 : UInt32) ≤ UInt32.ofNat p.header.payloadLen := by
    rw [UInt32.le_iff_toNat_le, hword, ← hannounced]
    exact h
  rw [Packet.pathLen, UInt32.toNat_sub_of_le _ _ hle, hword, hannounced]
  rfl

theorem Packet.accesses_inside_iff (p : Packet) :
    (∀ a ∈ p.accesses, a.InRange p.payload.length) ↔
      (p.header.opcode = loadModel → 4 ≤ p.payload.length) ∧
        (p.header.opcode = executeInference → 12 ≤ p.payload.length) := by
  have hannounced := p.announced
  unfold accesses
  split
  next hload =>
    have hne : p.header.opcode ≠ executeInference := by rw [hload]; decide
    simp only [List.forall_mem_cons, Access.inRange_read_iff]
    refine ⟨?_, ?_⟩
    · rintro ⟨-, hsub, -⟩
      exact ⟨fun _ => hannounced ▸ hsub, fun h => absurd h hne⟩
    · rintro ⟨h, -⟩
      have hlen := Packet.pathLen_eq (h hload)
      have h := h hload
      exact ⟨by omega, hannounced ▸ h, by omega, List.forall_mem_nil _⟩
  next hload =>
    split
    next hinfer =>
      simp only [List.forall_mem_cons, Access.inRange_read_iff]
      refine ⟨?_, ?_⟩
      · rintro ⟨hadd, -⟩
        exact ⟨fun h => absurd h hload, fun _ => hadd⟩
      · rintro ⟨-, h⟩
        have h := h hinfer
        exact ⟨h, h, by omega, by omega, List.forall_mem_nil _⟩
    next hinfer =>
      exact ⟨fun _ => ⟨fun h => absurd h hload, fun h => absurd h hinfer⟩, fun _ => List.forall_mem_nil _⟩

theorem Packet.handle_infer_iff {host : Host} {p : Packet} {modelId : UInt32} {input : Bytes} :
    p.handle host = .infer modelId input ↔
      p.header.opcode = executeInference ∧ modelId = p.modelId host ∧ input = p.payload.drop 12 := by
  unfold handle
  split
  next hload =>
    have hne : p.header.opcode ≠ executeInference := by rw [hload]; decide
    simp [hne]
  next hload =>
    split
    next hinfer => simp [hinfer, eq_comm]
    next hinfer => simp [hinfer]

theorem copyIn_iff {model : TrtModelInstance} {input : Bytes} :
    (copyIn model).InRange input.length ↔ model.totalInputBytes.toNat ≤ input.length := by
  rw [copyIn, Access.inRange_read_iff]
  omega

/-- A header as a peer writes it. -/
def headerBytes (opcode : UInt8) (len : Nat) : Bytes := ascii "ADI1" ++ be 4 len ++ [opcode, 0, 0, 0]

theorem length_headerBytes (opcode : UInt8) (len : Nat) : (headerBytes opcode len).length = 12 := by
  rw [headerBytes, List.length_append, List.length_append, length_be]
  rfl

def headerFor (opcode : UInt8) (len : Nat) : RequestHeader := ⟨headerBytes opcode len, length_headerBytes opcode len⟩

theorem magic_headerFor (opcode : UInt8) (len : Nat) : (headerFor opcode len).magic = magicAdi1 := by
  have htake : (headerBytes opcode len).take 4 = ascii "ADI1" := by
    rw [headerBytes, List.append_assoc, List.take_left' (by rfl)]
  rw [RequestHeader.magic, headerFor, htake]
  decide

theorem payloadLen_headerFor (opcode : UInt8) {len : Nat} (h : len < 2 ^ 32) :
    (headerFor opcode len).payloadLen = len := by
  have htake : ((headerBytes opcode len).drop 4).take 4 = be 4 len := by
    rw [headerBytes, List.append_assoc, List.drop_left' (by rfl), List.take_left' (length_be 4 len)]
  rw [RequestHeader.payloadLen, headerFor, htake, ofBe_be_of_lt h]

def Packet.ofPayload (opcode : UInt8) (payload : Bytes) (h : payload.length < 2 ^ 32) : Packet where
  header := headerFor opcode payload.length
  payload := payload
  genuine := magic_headerFor opcode payload.length
  announced := (payloadLen_headerFor opcode h).symm

/-- Four bytes of input. -/
def fourBytes : TrtModelInstance := ⟨[⟨true, .kInt8, [-1, 4]⟩]⟩

/-- For every request and whatever models are loaded: the accesses to its payload, and the
    worker's to the input of its task, are inside exactly when the payload is long enough. -/
theorem payload_accesses_inside_iff (host : Host) (models : Models) (p : Packet) :
    ((∀ a ∈ p.accesses, a.InRange p.payload.length) ∧
        ∀ modelId input, p.handle host = .infer modelId input →
          ∀ model, models modelId = some model → (copyIn model).InRange input.length) ↔
      p.Sized host models := by
  rw [Packet.accesses_inside_iff]
  refine ⟨?_, ?_⟩
  · rintro ⟨⟨hload, hinfer⟩, hcopy⟩
    refine ⟨hload, fun hop => ⟨hinfer hop, fun model hmodel => ?_⟩⟩
    have hcopied := copyIn_iff.mp (hcopy _ _ (Packet.handle_infer_iff.mpr ⟨hop, rfl, rfl⟩) model hmodel)
    have hheader := hinfer hop
    rw [List.length_drop] at hcopied
    omega
  · rintro ⟨hload, hinfer⟩
    refine ⟨⟨hload, fun hop => (hinfer hop).1⟩, ?_⟩
    intro modelId input hhandle model hmodel
    obtain ⟨hop, rfl, rfl⟩ := Packet.handle_infer_iff.mp hhandle
    have hroom := (hinfer hop).2 model hmodel
    rw [copyIn_iff, List.length_drop]
    omega

/-- A path of 4294967292 bytes after a payload of none, a header that is only a word, and a
    model's input copied from a task without any. -/
theorem short_payloads_are_overrun :
    let load := Packet.ofPayload loadModel [] (by decide)
    let word := Packet.ofPayload executeInference [0, 0, 0, 1] (by decide)
    let bare := Packet.ofPayload executeInference [0, 0, 0, 1, 0, 0, 0, 1, 0, 0, 0, 1] (by decide)
    (load.pathLen = 4294967292 ∧ ¬ ∀ a ∈ load.accesses, a.InRange load.payload.length) ∧
      (¬ ∀ a ∈ word.accesses, a.InRange word.payload.length) ∧
      bare.handle .big = .infer 1 [] ∧ fourBytes.totalInputBytes = 4 ∧ ¬ (copyIn fourBytes).InRange 0 := by
  intro load word bare
  refine ⟨⟨by decide, ?_⟩, ?_, by decide, by decide, ?_⟩
  · rw [Packet.accesses_inside_iff]
    decide
  · rw [Packet.accesses_inside_iff]
    decide
  · rw [copyIn, Access.inRange_read_iff]
    decide

/-! ## Packets are what a client's thread parses -/

/-- Each request has a header that announces it, the one whose payload is on its way too. -/
def Parsed (s : Runtime.St) : Prop :=
  (∀ r ∈ s.requests, ∃ p : Packet, p.request = r) ∧
    ∀ opcode len got, s.phase = .payload opcode len got →
      got.length ≤ len ∧ ∃ h : RequestHeader, h.magic = magicAdi1 ∧ h.opcode = opcode ∧ h.payloadLen = len

section
variable {serve : List Request → Bool}

theorem parsed_gotPayload {s : Runtime.St} {h : RequestHeader} {got : Bytes} (hs : ∀ r ∈ s.requests, ∃ p : Packet, p.request = r)
    (hmagic : h.magic = magicAdi1) (hle : got.length ≤ h.payloadLen) :
    Parsed (gotPayload serve s h.opcode h.payloadLen got) := by
  unfold gotPayload
  split
  next =>
    refine ⟨hs, ?_⟩
    rintro opcode len got' ⟨⟩
    exact ⟨hle, h, hmagic, rfl, rfl⟩
  next hlt =>
    refine ⟨?_, ?_⟩
    · intro r hr
      rcases List.mem_append.mp hr with hr | hr
      · exact hs r hr
      · rw [List.mem_singleton.mp hr]
        exact ⟨⟨h, got, hmagic, by omega⟩, rfl⟩
    · intro opcode len got' hphase
      dsimp only at hphase
      split at hphase <;> cases hphase

theorem parsed_step (s : Runtime.St) (r : Read) (hs : Parsed s) : Parsed (Runtime.step serve s r) := by
  obtain ⟨hrequests, hpayload⟩ := hs
  have hleft : ∀ s' : Runtime.St, s'.requests = s.requests → s'.phase = .left → Parsed s' := by
    intro s' hsame hphase
    refine ⟨hsame ▸ hrequests, ?_⟩
    intro opcode len got h
    rw [hphase] at h
    cases h
  unfold Runtime.step
  split
  next =>
    dsimp only
    split
    next => exact hleft _ rfl rfl
    next =>
      unfold gotHeader
      split
      next => exact hleft _ rfl rfl
      next hmagic => exact parsed_gotPayload hrequests (not_not.mp hmagic) (Nat.zero_le _)
  next opcode len got hphase =>
    obtain ⟨hle, h, hmagic, rfl, rfl⟩ := hpayload opcode len got hphase
    dsimp only
    split
    next => exact hleft _ rfl rfl
    next =>
      refine parsed_gotPayload hrequests hmagic ?_
      have hpiece := @length_piece_le (h.payloadLen - got.length) r.more s.unread
      rw [List.length_append]
      omega
  next => exact ⟨hrequests, hpayload⟩

/-- Every request of every run comes from a header with the right magic number and has the
    length it announces. -/
theorem parsed_are_packets (stream : Bytes) (rs : List Read) :
    ∀ r ∈ (exec (Runtime.step serve) { unread := stream } rs).requests, ∃ p : Packet, p.request = r := by
  have hinv : Parsed (exec (Runtime.step serve) { unread := stream } rs) := by
    refine exec_induct ⟨List.forall_mem_nil _, ?_⟩ fun _ r _ hs => parsed_step _ r hs
    rintro opcode len got ⟨⟩
  exact hinv.1

/-- A `read` that gets the whole header. -/
theorem step_whole_header {h : RequestHeader} (hmagic : h.magic = magicAdi1) (rest : Bytes) {r : Read} (hr : 11 ≤ r.more) :
    Runtime.step serve { unread := h.bytes ++ rest } r = gotPayload serve { unread := rest } h.opcode h.payloadLen [] := by
  have hpiece : piece 12 r.more (h.bytes ++ rest) = h.bytes := by
    have hmin : min 12 (r.more + 1) = 12 := by omega
    rw [piece, hmin]
    exact List.take_left' h.sized
  have hne : h.bytes ≠ [] := by
    intro hnil
    have hsized := h.sized
    rw [hnil] at hsized
    cases hsized
  have hfilled : ∀ hw, r.memory.filled h.bytes hw = h := by
    intro hw
    obtain ⟨bytes, sized⟩ := h
    simp only [RequestHeader.filled, sized, List.drop_eq_nil_of_le (Nat.le_of_eq r.memory.sized), List.append_nil]
  simp only [Runtime.step, hpiece, hne, if_false, hfilled, gotHeader, hmagic, ne_eq, not_true_eq_false, List.drop_left]

/-- And every packet can be the request: its bytes, in one piece each, are parsed as it. -/
theorem packet_is_parsed (p : Packet) (memory : RequestHeader) :
    (exec (Runtime.step serve) { unread := p.header.bytes ++ p.payload } [⟨11, memory⟩, ⟨p.payload.length, memory⟩]).requests =
      [p.request] := by
  have hlen := p.announced
  rw [exec_cons, exec_cons, exec_nil, step_whole_header p.genuine p.payload (Nat.le_refl 11)]
  by_cases hempty : p.payload = []
  · have hzero : p.header.payloadLen = 0 := by rw [← hlen, hempty]; rfl
    have hnil : ∀ asked more, piece asked more [] = [] := fun _ _ => piece_eq_nil_iff.mpr (Or.inr rfl)
    cases hback : comesBack serve [⟨p.header.opcode, []⟩] p.header.opcode <;>
      simp [gotPayload, hzero, hback, Runtime.step, hempty, hnil, Packet.request]
  · have hpos : 0 < p.header.payloadLen := hlen ▸ List.length_pos_iff.mpr hempty
    have hpiece : piece (p.header.payloadLen - ([] : Bytes).length) p.header.payloadLen p.payload = p.payload := by
      refine List.take_of_length_le ?_
      rw [List.length_nil]
      omega
    have hwait : gotPayload serve { unread := p.payload } p.header.opcode p.header.payloadLen [] =
        { unread := p.payload, phase := .payload p.header.opcode p.header.payloadLen [] } := if_pos hpos
    rw [hwait, hlen]
    simp only [Runtime.step, hpiece, hempty, if_false, gotPayload, List.nil_append, hlen, Nat.lt_irrefl]
    rfl

end

end Overhauled.Adi.Inference
