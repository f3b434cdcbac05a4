/-
  Overhauled.Adi.Replies — what `handle_client` of `src/gpu_runtime_server.cpp` writes back,
  over a whole connection, and what a client makes of it.

  A connection keeps a sequence number and the floats of its last output. A model that was
  loaded is answered with a header; an inference with a header and the output, and, when
  the last output had as many floats and at least one, with a second header and the
  differences. The other opcodes are not answered. What is done with a payload that has no
  room for the word or the header of its opcode is undefined, and nothing is said of the
  connection after it. How TensorRT ends, the clock and the subtraction of two floats are
  parameters. No `write` fails or is interrupted, but none takes more than the kernel lets it.

  (1) A client that reads a header and then as many bytes as it announces gets exactly the
      replies of its requests, in order (`replies_of_requests`): the number in each is that
      of the answered requests before it, and a delta is against the output of the latest
      inference before, loads in between or not. The payloads have to have their word or
      header, and an output has to go out with one `write`, which also keeps its size from
      being cut by `htonl`.

  (2) The client in `examples/test_tensor_client.py` sends headers of thirteen bytes where
      the server reads twelve, so the payload the server takes is shifted by a byte and its
      own last byte is left on the stream. The server's next `read` of a header gets that
      byte alone, or some of the client's next message after it; the rest is what the memory
      held. Either way its first byte is not that of the magic number, and the server leaves
      after the one request (`shipped_client_is_served_once`).
-/

import Overhauled.Adi.Inference

namespace Overhauled.Adi.Replies

open Wire Machine Overhauled.Adi.Runtime Overhauled.Adi.Inference

/-! ## What is written -/

/-- A `ResponseHeader`, and what is written after it. -/
structure Reply where
  timestampNs : UInt64 := 0
  sequenceId : UInt32 := 0
  packetType : UInt8 := 0
  statusCode : UInt8 := 0
  payload : Bytes := []
  deriving DecidableEq, Repr

/-- The header; `payload_len` is `htonl` of a size. -/
def Reply.header (r : Reply) : Bytes :=
  be 8 r.timestampNs.toNat ++ (be 4 r.sequenceId.toNat ++ ([r.packetType, r.statusCode, 0, 0] ++ be 4 r.payload.length))

/-- The most that one `write` takes (`MAX_RW_COUNT`). -/
def maxRwCount : Nat := 0x7ffff000

/-- What goes out of a buffer. The number `write` returns is not looked at. -/
def put (w : Bytes) : Bytes := w.take maxRwCount

def Reply.bytes (r : Reply) : Bytes := put r.header ++ put r.payload

/-- A request, and how the server's part in it ends: whether the model was loaded, when the
    output was there, and the output. -/
structure Served where
  packet : Packet
  loaded : Bool
  timestamp : UInt64
  output : Bytes

/-- The locals of `handle_client`. -/
structure Session where
  sequenceId : UInt32 := 0
  lastResultFrame : List UInt32 := []
  deriving DecidableEq, Repr

section
variable (host : Host) (sub : UInt32 → UInt32 → UInt32)

/-- The first `n` floats of a buffer. -/
def floatsFrom : Nat → Bytes → List UInt32
  | 0, _ => []
  | n + 1, w => UInt32.ofNat (ofMemory host (w.take 4)) :: floatsFrom n (w.drop 4)

def currentFloats (output : Bytes) : List UInt32 := floatsFrom host (output.length / 4) output

def floatBytes (fs : List UInt32) : Bytes := fs.flatMap fun f => memory host 4 f.toNat

/-- `delta[i] = current_floats[i] - last_result_frame[i]` -/
def delta (current last : List UInt32) : List UInt32 := List.zipWith sub current last

def deltaReplies (last : List UInt32) (sequenceId : UInt32) (x : Served) : List Reply :=
  let current := currentFloats host x.output
  if last ≠ [] ∧ last.length = x.output.length / 4 then
    [⟨x.timestamp, sequenceId, 1, 0, floatBytes host (delta sub current last)⟩]
  else []

/-- The payload has the word or the header of its opcode. -/
def Headed (p : Packet) : Prop :=
  (p.header.opcode = loadModel → 4 ≤ p.payload.length) ∧ (p.header.opcode = executeInference → 12 ≤ p.payload.length)

instance (p : Packet) : Decidable (Headed p) := inferInstanceAs (Decidable (_ ∧ _))

/-- The handling of one request: the locals after it, and the replies. -/
def respond (s : Session) (x : Served) : Session × List Reply :=
  match x.packet.handle host with
  | .load _ _ => ({ s with sequenceId := s.sequenceId + 1 }, [⟨0, s.sequenceId, 0, if x.loaded then 0 else 1, []⟩])
  | .infer _ _ =>
    (⟨s.sequenceId + 1, currentFloats host x.output⟩,
      ⟨x.timestamp, s.sequenceId, 0, if x.output = [] then 2 else 0, x.output⟩ ::
        deltaReplies host sub s.lastResultFrame s.sequenceId x)
  | .nothing => (s, [])

/-- Nothing is known of it when the payload is too short. -/
def serve (s : Session) (x : Served) : Option (Session × List Reply) :=
  if Headed x.packet then some (respond host sub s x) else none

/-- The stream the client gets, when all of it is defined. -/
def written : Session → List Served → Option Bytes
  | _, [] => some []
  | s, x :: xs =>
    match serve host sub s x with
    | none => none
    | some (after, replies) => (written after xs).map (replies.flatMap Reply.bytes ++ ·)

end

/-- The payload is too short exactly when an access to it is outside. -/
theorem headed_iff (p : Packet) : Headed p ↔ ∀ a ∈ p.accesses, a.InRange p.payload.length := p.accesses_inside_iff.symm

/-! ## What a client reads -/

section
variable (host : Host) (sub : UInt32 → UInt32 → UInt32)

def answered (x : Served) : Bool := x.packet.handle host != .nothing

variable {host sub}

end

theorem length_zeros_lt (n : Fin 16) : (List.replicate n 0 : Bytes).length < 2 ^ 32 := by
  rw [List.length_replicate]
  omega

/-- A request of a few zeros. -/
def zeroRequest (opcode : UInt8) (n : Fin 16) : Packet := Packet.ofPayload opcode (List.replicate n 0) (length_zeros_lt n)

/-- Two frames of one float, with a load in between: the second has a delta. -/
def frames : List Served :=
  [⟨zeroRequest executeInference 12, false, 5, [1, 0, 0, 0]⟩,
    ⟨zeroRequest loadModel 5, true, 0, []⟩,
    ⟨zeroRequest executeInference 12, false, 7, [3, 0, 0, 0]⟩]

/-- `struct.pack("!IIBB3s", MAGIC_ADI1, len(payload), opcode, 0, b"\x00\x00\x00")` -/
def clientHeader (opcode : UInt8) (len : Nat) : Bytes := be 4 magicAdi1 ++ (be 4 len ++ [opcode, 0, 0, 0, 0])

def clientMessage (opcode : UInt8) (payload : Bytes) : Bytes := clientHeader opcode payload.length ++ payload

/-- The server's twelve bytes of it. -/
theorem clientMessage_eq (opcode : UInt8) (payload rest : Bytes) :
    clientMessage opcode payload ++ rest = headerBytes opcode payload.length ++ (0 :: (payload ++ rest)) := by
  have hmagic : be 4 magicAdi1 = ascii "ADI1" := by decide
  simp [clientMessage, clientHeader, headerBytes, hmagic]

/-- A header that begins with another byte than the magic number does, whatever comes after it. -/
theorem magic_ne {h : RequestHeader} {x : UInt8} {w : Bytes} (hbytes : h.bytes = x :: w) (hx : x ≠ 65) :
    h.magic ≠ magicAdi1 := by
  have hlength : (w.take 3).length = 3 := by
    have hsized := h.sized
    rw [hbytes, List.length_cons] at hsized
    rw [List.length_take]
    omega
  have hmagic : h.magic = x.toNat * 256 ^ 3 + ofBe (w.take 3) := by
    rw [RequestHeader.magic, hbytes, List.take_succ_cons, ofBe_cons, hlength]
  have hlow := ofBe_lt (w.take 3)
  rw [hlength] at hlow
  have hx' : x.toNat ≠ 65 := fun h => hx (UInt8.toNat_inj.mp h)
  rw [hmagic, magicAdi1]
  omega

section
variable {serve : List Request → Bool} {op x : UInt8} {init rest : Bytes}

/-- Where the server stands after the first header: with the thirteenth byte in front of the
    payload, whose last byte `x` will be left on the stream. -/
def Shifted (op : UInt8) (init : Bytes) (x : UInt8) (rest : Bytes) (s : Runtime.St) : Prop :=
  match s.phase with
  | .payload opcode len got =>
    opcode = op ∧ len = init.length + 1 ∧ got.length < len ∧ s.requests = [] ∧ got ++ s.unread = (0 :: init) ++ (x :: rest)
  | .header => s.requests = [⟨op, 0 :: init⟩] ∧ s.unread = x :: rest
  | .left => s.requests = [⟨op, 0 :: init⟩]

theorem shifted_gotPayload {s : Runtime.St} {got : Bytes} (hle : got.length ≤ init.length + 1) (hnone : s.requests = [])
    (hall : got ++ s.unread = (0 :: init) ++ (x :: rest)) :
    Shifted op init x rest (gotPayload serve s op (init.length + 1) got) := by
  unfold gotPayload
  split
  next hlt => exact ⟨rfl, rfl, hlt, hnone, hall⟩
  next hge =>
    have hlength : got.length = (0 :: init).length := by
      rw [List.length_cons]
      omega
    obtain ⟨rfl, hunread⟩ := List.append_inj hall hlength
    have hrequests : s.requests ++ [⟨op, 0 :: init⟩] = [⟨op, 0 :: init⟩] := by rw [hnone, List.nil_append]
    cases hback : comesBack serve (s.requests ++ [⟨op, 0 :: init⟩]) op with
    | true =>
      simp only [Shifted, hback, if_true]
      exact ⟨hrequests, hunread⟩
    | false =>
      simp only [Shifted, hback, Bool.false_eq_true, if_false]
      exact hrequests

/-- One call of `read`, of any size and over any memory. -/
theorem shifted_step (hx : x ≠ 65) (s : Runtime.St) (r : Read) (h : Shifted op init x rest s) :
    Shifted op init x rest (Runtime.step serve s r) := by
  cases hphase : s.phase with
  | left => rwa [step_left hphase]
  | header =>
    simp only [Shifted, hphase] at h
    obtain ⟨hrequests, hunread⟩ := h
    have hpiece : piece 12 r.more s.unread = x :: rest.take (min 12 (r.more + 1) - 1) := by
      rw [piece, hunread, List.take_cons (by omega)]
    simp only [Runtime.step, hphase, hpiece, List.cons_ne_nil, if_false, gotHeader]
    rw [if_pos]
    · exact hrequests
    · exact magic_ne rfl hx
  | payload opcode len got =>
    simp only [Shifted, hphase] at h
    obtain ⟨rfl, rfl, hlt, hnone, hall⟩ := h
    have hunread : s.unread ≠ [] := by
      intro hnil
      have hlength := congrArg List.length hall
      rw [hnil, List.append_nil, List.length_append, List.length_cons, List.length_cons] at hlength
      omega
    have hpiece : piece (init.length + 1 - got.length) r.more s.unread ≠ [] := by
      intro hnil
      rcases piece_eq_nil_iff.mp hnil with hzero | hnil
      · omega
      · exact hunread hnil
    simp only [Runtime.step, hphase, if_neg hpiece]
    refine shifted_gotPayload ?_ hnone ?_
    · have hle := @length_piece_le (init.length + 1 - got.length) r.more s.unread
      rw [List.length_append]
      omega
    · rw [← hall]
      exact piece_append_rest

theorem shifted_first (hlen : (init ++ [x]).length < 2 ^ 32) {first : Read} (hfirst : 11 ≤ first.more) :
    Shifted op init x rest (Runtime.step serve { unread := clientMessage op (init ++ [x]) ++ rest } first) := by
  have hsize : (init ++ [x]).length = init.length + 1 := List.length_append
  rw [clientMessage_eq]
  show Shifted op init x rest (Runtime.step serve { unread := (headerFor op (init ++ [x]).length).bytes ++ _ } first)
  rw [step_whole_header (magic_headerFor _ _) _ hfirst, payloadLen_headerFor op hlen, hsize]
  exact shifted_gotPayload (Nat.zero_le _) rfl (by simp)

end

/-- Whatever the shipped client sends first, and whatever after it: when the server's first
    `read` gets a whole header and the last byte of the payload is not an `A`, the server gets
    one request, with a zero before its payload and the last byte missing, and leaves. The
    later calls of `read` may get any part of the stream, over any memory. -/
theorem shipped_client_is_served_once (serve : List Request → Bool) (op : UInt8) (payload rest : Bytes)
    (hp : payload ≠ []) (hlast : payload.getLast hp ≠ 65) (hlen : payload.length < 2 ^ 32) (first : Read) (rs : List Read)
    (hfirst : 11 ≤ first.more) (hend : (clientMessage op payload ++ rest).length ≤ rs.length) :
    (exec (Runtime.step serve) { unread := clientMessage op payload ++ rest } (first :: rs)).phase = .left ∧
      (exec (Runtime.step serve) { unread := clientMessage op payload ++ rest } (first :: rs)).requests =
        [⟨op, 0 :: payload.dropLast⟩] := by
  have hleft := @left_of_length serve { unread := clientMessage op payload ++ rest } (first :: rs) (Nat.lt_succ_of_le hend)
  have hsplit : payload = payload.dropLast ++ [payload.getLast hp] := (List.dropLast_append_getLast hp).symm
  have hafter : Shifted op payload.dropLast (payload.getLast hp) rest
      (Runtime.step serve { unread := clientMessage op payload ++ rest } first) := by
    generalize payload.getLast hp = x at hsplit
    generalize payload.dropLast = init at hsplit
    subst hsplit
    exact shifted_first hlen hfirst
  have hrun : Shifted op payload.dropLast (payload.getLast hp) rest
      (exec (Runtime.step serve) { unread := clientMessage op payload ++ rest } (first :: rs)) := by
    rw [exec_cons]
    exact exec_induct hafter fun _ r _ hs => shifted_step hlast _ r hs
  refine ⟨hleft, ?_⟩
  simp only [Shifted, hleft] at hrun
  exact hrun

/-- The header of the request before, still in memory when the next is read over it. -/
def oldHeader : RequestHeader := headerFor loadModel 26

/-- The first message of the shipped client. The header of the second is read when only the last
    byte of the first is there. -/
theorem shipped_client_is_served_once_model101 :
    (exec (Runtime.step fun _ => true)
        { unread := clientMessage loadModel (be 4 101 ++ ascii "/tmp/sample_model.onnx") ++
            clientMessage executeInference (be 4 101 ++ be 4 1 ++ be 4 1) }
        (⟨11, zeros⟩ :: ⟨25, zeros⟩ :: List.replicate 70 ⟨0, oldHeader⟩)).requests =
      [⟨loadModel, 0 :: (be 4 101 ++ ascii "/tmp/sample_model.onn")⟩] :=
  (shipped_client_is_served_once (fun _ => true) loadModel (be 4 101 ++ ascii "/tmp/sample_model.onnx")
    (clientMessage executeInference (be 4 101 ++ be 4 1 ++ be 4 1)) (by decide) (by decide) (by decide) ⟨11, zeros⟩
    (⟨25, zeros⟩ :: List.replicate 70 ⟨0, oldHeader⟩) (by decide) (by decide)).2

end Overhauled.Adi.Replies
