/-
  Overhauled.Adi.Runtime — how `handle_client` of `src/gpu_runtime_server.cpp` takes its
  requests off the socket.

  The 12-byte header is read with one call of `read`, whatever it returns; the payload
  with a loop. After a short read the rest of the header is what its memory held before:
  a `Read` names it (`memory`), beside how much of the stream the call delivers. `serve`
  is the handling of the requests with an opcode of their own: it comes back to the loop
  or leaves it by an exception, as the requests so far have it. The bytes written back are
  left out.

  When every read of a header gets the whole of it, the requests are those the stream
  spells (`cut`), however the payloads fall into pieces (`requests_of_whole_headers`).
  `a_split_header_is_another_request` is the same twelve bytes in one piece and in two.
-/

import Overhauled.Machine.Run
import Overhauled.Wire.Stream

namespace Overhauled.Adi.Runtime

open Wire Machine

def magicAdi1 : Nat := 0x41444931

def loadModel : UInt8 := 1
def executeInference : UInt8 := 2

structure Request where
  opcode : UInt8
  payload : Bytes
  deriving DecidableEq

/-- The memory of a `RequestHeader`. -/
structure RequestHeader where
  bytes : Bytes
  sized : bytes.length = 12

namespace RequestHeader

def magic (h : RequestHeader) : Nat := ofBe (h.bytes.take 4)
def payloadLen (h : RequestHeader) : Nat := ofBe ((h.bytes.drop 4).take 4)
def opcode (h : RequestHeader) : UInt8 := h.bytes.getD 8 0

/-- The header after a `read` into it. -/
def filled (h : RequestHeader) (w : Bytes) (hw : w.length ≤ 12) : RequestHeader where
  bytes := w ++ h.bytes.drop w.length
  sized := by
    rw [List.length_append, List.length_drop, h.sized]
    omega

end RequestHeader

inductive Phase where
  | header
  | payload (opcode : UInt8) (len : Nat) (got : Bytes)
  | left
  deriving DecidableEq

structure St where
  phase : Phase := .header
  requests : List Request := []
  unread : Bytes

structure Read where
  more : Nat
  /-- What the header held before, when the call is one for a header. -/
  memory : RequestHeader

section
variable (serve : List Request → Bool)

/-- The handling of the last request comes back to the loop. -/
def comesBack (requests : List Request) (opcode : UInt8) : Bool :=
  if opcode = loadModel ∨ opcode = executeInference then serve requests else true

def gotPayload (s : St) (opcode : UInt8) (len : Nat) (got : Bytes) : St :=
  if got.length < len then { s with phase := .payload opcode len got }
  else
    let requests := s.requests ++ [⟨opcode, got⟩]
    { s with requests, phase := if comesBack serve requests opcode then .header else .left }

def gotHeader (s : St) (h : RequestHeader) : St :=
  if h.magic ≠ magicAdi1 then { s with phase := .left } else gotPayload serve s h.opcode h.payloadLen []

/-- One call of `read`. -/
def step (s : St) (r : Read) : St :=
  match s.phase with
  | .header =>
    let w := piece 12 r.more s.unread
    if w = [] then { s with phase := .left }
    else gotHeader serve { s with unread := s.unread.drop w.length } (r.memory.filled w length_piece_le)
  | .payload opcode len got =>
    let w := piece (len - got.length) r.more s.unread
    if w = [] then { s with phase := .left }
    else gotPayload serve { s with unread := s.unread.drop w.length } opcode len (got ++ w)
  | .left => s

/-! ## What a stream spells -/

/-- The requests of a stream after those in `done`, up to the first that is not whole or has
    another magic number. -/
def cut (done : List Request) (stream : Bytes) : List Request :=
  if h : stream.length < 12 then done
  else
    let header : RequestHeader := ⟨stream.take 12, by rw [List.length_take]; omega⟩
    if header.magic ≠ magicAdi1 then done
    else if (stream.drop 12).length < header.payloadLen then done
    else
      let requests := done ++ [⟨header.opcode, (stream.drop 12).take header.payloadLen⟩]
      if comesBack serve requests header.opcode then cut requests ((stream.drop 12).drop header.payloadLen)
      else requests
termination_by stream.length
decreasing_by
  rw [List.length_drop, List.length_drop]
  omega

/-- The requests of a stream that begins with a payload. -/
def cutPayload (done : List Request) (opcode : UInt8) (len : Nat) (stream : Bytes) : List Request :=
  if stream.length < len then done
  else
    let requests := done ++ [⟨opcode, stream.take len⟩]
    if comesBack serve requests opcode then cut serve requests (stream.drop len) else requests

variable {serve}

theorem cut_short {done : List Request} {stream : Bytes} (h : stream.length < 12) : cut serve done stream = done := by
  rw [cut, dif_pos h]

theorem cut_header {done : List Request} {stream : Bytes} {h : RequestHeader} (hlen : 12 ≤ stream.length)
    (hbytes : h.bytes = stream.take 12) :
    cut serve done stream =
      if h.magic ≠ magicAdi1 then done else cutPayload serve done h.opcode h.payloadLen (stream.drop 12) := by
  obtain ⟨bytes, sized⟩ := h
  cases hbytes
  rw [cut, dif_neg (by omega)]
  rfl

/-- Where the handler stands and what is to come spell the same requests as the stream. -/
def Agrees (serve : List Request → Bool) (stream : Bytes) (s : St) : Prop :=
  match s.phase with
  | .header => cut serve s.requests s.unread = cut serve [] stream
  | .payload opcode len got =>
    got.length < len ∧ cutPayload serve s.requests opcode len (got ++ s.unread) = cut serve [] stream
  | .left => s.requests = cut serve [] stream

theorem agrees_gotPayload {stream : Bytes} {s : St} {opcode : UInt8} {len : Nat} {got : Bytes} (hle : got.length ≤ len)
    (h : cutPayload serve s.requests opcode len (got ++ s.unread) = cut serve [] stream) :
    Agrees serve stream (gotPayload serve s opcode len got) := by
  unfold gotPayload
  split
  next hlt => exact ⟨hlt, h⟩
  next hge =>
    have hlen : got.length = len := by omega
    subst hlen
    rw [cutPayload, if_neg (by rw [List.length_append]; omega), List.take_left', List.drop_left'] at h
    any_goals rfl
    dsimp only at h ⊢
    split at h
    next hback => simpa only [Agrees, hback, if_true] using h
    next hback => simpa only [Agrees, hback, Bool.false_eq_true, if_false] using h

/-- A read of a header gets the whole of it, or nothing because the stream has ended. -/
def Whole (s : St) (r : Read) : Prop :=
  s.phase = .header → (piece 12 r.more s.unread).length = 12 ∨ s.unread = []

instance (s : St) (r : Read) : Decidable (Whole s r) := inferInstanceAs (Decidable (_ → _))

theorem agrees_step {stream : Bytes} (s : St) (r : Read) (h : Agrees serve stream s) (hwhole : Whole s r) :
    Agrees serve stream (step serve s r) := by
  cases hphase : s.phase with
  | left => simpa only [step, hphase] using h
  | header =>
    simp only [Agrees, hphase] at h
    simp only [step, hphase]
    split
    next hnil =>
      rcases piece_eq_nil_iff.mp hnil with hzero | hend
      · cases hzero
      · rw [hend, cut_short (by decide)] at h
        exact h
    next hne =>
      have hfull : (piece 12 r.more s.unread).length = 12 := by
        refine (hwhole hphase).resolve_right fun hend => hne ?_
        exact piece_eq_nil_iff.mpr (Or.inr hend)
      have hsplit := @piece_append_rest 12 r.more [] s.unread
      rw [List.nil_append, List.nil_append, hfull] at hsplit
      have hbytes : (r.memory.filled (piece 12 r.more s.unread) length_piece_le).bytes = s.unread.take 12 := by
        show piece 12 r.more s.unread ++ r.memory.bytes.drop _ = _
        rw [hfull, List.drop_eq_nil_of_le (by rw [r.memory.sized]), List.append_nil]
        exact (List.take_left' hfull).symm.trans (congrArg (List.take 12) hsplit)
      have hlen : 12 ≤ s.unread.length := by
        rw [← hsplit, List.length_append, hfull]
        omega
      rw [cut_header hlen hbytes] at h
      unfold gotHeader
      split
      next hbad =>
        rw [if_pos hbad] at h
        exact h
      next hgood =>
        rw [if_neg hgood] at h
        refine agrees_gotPayload (Nat.zero_le _) ?_
        rw [hfull]
        exact h
  | payload opcode len got =>
    simp only [Agrees, hphase] at h
    simp only [step, hphase]
    split
    next hnil =>
      rcases piece_eq_nil_iff.mp hnil with hzero | hend
      · omega
      · rw [hend, List.append_nil, cutPayload, if_pos h.1] at h
        exact h.2
    next =>
      refine agrees_gotPayload ?_ ?_
      · have hle := @length_piece_le (len - got.length) r.more s.unread
        rw [List.length_append]
        omega
      · rw [piece_append_rest]
        exact h.2

/-! ## The loop ends -/

theorem unread_gotPayload (s : St) (opcode : UInt8) (len : Nat) (got : Bytes) :
    (gotPayload serve s opcode len got).unread = s.unread := by
  unfold gotPayload
  split <;> rfl

theorem unread_gotHeader (s : St) (h : RequestHeader) : (gotHeader serve s h).unread = s.unread := by
  unfold gotHeader
  split
  next => rfl
  next => exact unread_gotPayload ..

theorem step_left {s : St} (h : s.phase = .left) (r : Read) : step serve s r = s := by simp only [step, h]

theorem step_progress (s : St) (r : Read) :
    (step serve s r).phase = .left ∨ (step serve s r).unread.length < s.unread.length := by
  unfold step
  split
  next =>
    dsimp only
    split
    next => exact Or.inl rfl
    next hne =>
      rw [unread_gotHeader]
      exact Or.inr (length_drop_piece_lt hne)
  next =>
    dsimp only
    split
    next => exact Or.inl rfl
    next hne =>
      rw [unread_gotPayload]
      exact Or.inr (length_drop_piece_lt hne)
  next h => exact Or.inl h

/-- Every call takes a byte at least, so the loop is left after one call more than the
    stream has bytes. -/
theorem left_of_length {s : St} {rs : List Read} (h : s.unread.length < rs.length) :
    (exec (step serve) s rs).phase = .left := by
  induction rs generalizing s with
  | nil => cases h
  | cons r rs ih =>
    rw [List.length_cons] at h
    rcases @step_progress serve s r with hleft | hless
    · have hstay : ∀ rs', exec (step serve) (step serve s r) rs' = step serve s r := by
        intro rs'
        induction rs' with
        | nil => rfl
        | cons r' rs' ih' => rw [exec_cons, step_left hleft, ih']
      rw [exec_cons, hstay, hleft]
    · exact ih (by omega)

end

/-- Whatever pieces the payloads come in, when every read of a header gets the whole of it
    the handler parses the requests the stream spells, and so the same ones in any two such
    runs that read the stream to its end. -/
theorem requests_of_whole_headers (serve : List Request → Bool) (stream : Bytes) (rs rs' : List Read)
    (hend : stream.length < rs.length) (hend' : stream.length < rs'.length)
    (hwhole : EachStep (step serve) Whole { unread := stream } rs)
    (hwhole' : EachStep (step serve) Whole { unread := stream } rs') :
    (exec (step serve) { unread := stream } rs).requests = cut serve [] stream ∧
      (exec (step serve) { unread := stream } rs').requests = (exec (step serve) { unread := stream } rs).requests := by
  have hrun : ∀ rs : List Read, stream.length < rs.length → EachStep (step serve) Whole { unread := stream } rs →
      (exec (step serve) { unread := stream } rs).requests = cut serve [] stream := by
    intro rs hlong hes
    have h : Agrees serve stream (exec (step serve) { unread := stream } rs) :=
      exec_each (I := Agrees serve stream) hes rfl agrees_step
    have hleft := @left_of_length serve { unread := stream } rs hlong
    simpa only [Agrees, hleft] using h
  have hfirst := hrun rs hend hwhole
  exact ⟨hfirst, (hrun rs' hend' hwhole').trans hfirst.symm⟩

/-- A header without a payload. -/
def unloadModel : Bytes := ascii "ADI1" ++ be 4 0 ++ [3, 0, 0, 0]

def zeros : RequestHeader := ⟨List.replicate 12 0, by decide⟩

/-- All that is asked for, each time. -/
def inOnePiece : List Read := List.replicate 14 ⟨11, zeros⟩

/-- A payload in two pieces. -/
def inTwoPieces : List Read := [⟨11, zeros⟩, ⟨0, zeros⟩] ++ List.replicate 14 ⟨11, zeros⟩

theorem requests_of_whole_headers_two_pieces :
    (exec (step fun _ => true) { unread := ascii "ADI1" ++ be 4 2 ++ [3, 0, 0, 0] ++ ascii "ab" } inTwoPieces).requests =
      [⟨3, ascii "ab"⟩] := by
  have h := requests_of_whole_headers (fun _ => true) (ascii "ADI1" ++ be 4 2 ++ [3, 0, 0, 0] ++ ascii "ab")
    (List.replicate 15 ⟨11, zeros⟩) inTwoPieces (by decide) (by decide) (by decide +kernel) (by decide +kernel)
  exact h.2.trans (by decide +kernel)

/-- The first read gets five bytes of the header, the second the other seven. -/
theorem a_split_header_is_another_request :
    (exec (step fun _ => true) { unread := unloadModel } inOnePiece).requests = [⟨3, []⟩] ∧
      (exec (step fun _ => true) { unread := unloadModel } (⟨4, zeros⟩ :: inOnePiece)).requests = [⟨0, []⟩] := by
  decide +kernel

end Overhauled.Adi.Runtime
