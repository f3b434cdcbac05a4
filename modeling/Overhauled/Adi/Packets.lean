/-
  Overhauled.Adi.Packets — the ADI wire format (`include/adi_server.h`, and the conversions
  and `send_packet` of `src/adi_server.cpp`): requests of five doubles behind their length,
  answers of one or two packets.

  A double goes over the wire through `byteswap64` on a little-endian host and as it is on
  a big-endian one, so that it is in network order on both (`memory_hostToBe64`,
  `be64ToHost_ofMemory`). `talk` is what a client is to be told, by its own requests alone:
  the results one after the other under the sequence numbers 0, 1, 2 and so on, and after
  the first each with its difference from the one before. The numbers are a `uint32_t`.
  How two doubles are subtracted is an argument.
-/

import Overhauled.Wasm.Manager
import Overhauled.Wire.Words

namespace Overhauled.Adi

open Wire
open Wasm (Computed)

/-- A vector of doubles, each its bits. -/
abbrev GpuPayload := List UInt64

/-- How a call of the compute function may be left, given the input and the GPU; two calls
    need not be left alike. -/
abbrev GpuComputeFn := GpuPayload → Nat → Computed GpuPayload → Prop

def kPayloadDoubles : Nat := 5

def kPayloadBytes : Nat := kPayloadDoubles * 8

def kExpectedLength : Nat := kPayloadBytes

inductive PacketType where
  | primary
  | delta
  deriving DecidableEq, Repr

def PacketType.code : PacketType → UInt8
  | .primary => 0
  | .delta => 1

/-! ## Network order -/

def byteswap64 (n : UInt64) : UInt64 :=
  ((n &&& 0x00000000000000ff) <<< 56) |||
  ((n &&& 0x000000000000ff00) <<< 40) |||
  ((n &&& 0x0000000000ff0000) <<< 24) |||
  ((n &&& 0x00000000ff000000) <<< 8) |||
  ((n &&& 0x000000ff00000000) >>> 8) |||
  ((n &&& 0x0000ff0000000000) >>> 24) |||
  ((n &&& 0x00ff000000000000) >>> 40) |||
  ((n &&& 0xff00000000000000) >>> 56)

def hostToBe64 : Host → UInt64 → UInt64
  | .little, n => byteswap64 n
  | .big, n => n

def be64ToHost : Host → UInt64 → UInt64
  | .little, n => byteswap64 n
  | .big, n => n

theorem toNat_byteswap64 (n : UInt64) : (byteswap64 n).toNat = ofBe (be 8 n.toNat).reverse := by
  unfold byteswap64
  simp only [UInt64.toNat_or]
  rw [toNat_and_shiftLeft n _ _ (k := 0) (d := 56) (by decide) (by decide) (by decide),
    toNat_and_shiftLeft n _ _ (k := 1) (d := 40) (by decide) (by decide) (by decide),
    toNat_and_shiftLeft n _ _ (k := 2) (d := 24) (by decide) (by decide) (by decide),
    toNat_and_shiftLeft n _ _ (k := 3) (d := 8) (by decide) (by decide) (by decide),
    toNat_and_shiftRight n _ _ (k := 4) (d := 8) (by decide) (by decide) (by decide) (by decide),
    toNat_and_shiftRight n _ _ (k := 5) (d := 24) (by decide) (by decide) (by decide) (by decide),
    toNat_and_shiftRight n _ _ (k := 6) (d := 40) (by decide) (by decide) (by decide) (by decide),
    toNat_and_shiftRight n _ _ (k := 7) (d := 56) (by decide) (by decide) (by decide) (by decide)]
  -- the bytes are put together from the top, each below what is there
  rw [shift_or_byte 48 rfl (byteOf_lt _ _), shift_or_byte 40 rfl (byteOf_lt _ _), shift_or_byte 32 rfl (byteOf_lt _ _),
    shift_or_byte 24 rfl (byteOf_lt _ _), shift_or_byte 16 rfl (byteOf_lt _ _), shift_or_byte 8 rfl (byteOf_lt _ _),
    shift_or_byte 0 rfl (byteOf_lt _ _)]
  simp only [be, ofBe, byteOf, List.reverse_cons, List.reverse_nil, List.nil_append, List.cons_append, List.foldl_cons,
    List.foldl_nil, shiftRight_byte, Nat.shiftLeft_zero, Nat.pow_mul]
  norm_num

/-- What is copied out of a variable after `host_to_be64`. -/
theorem memory_hostToBe64 (host : Host) (n : UInt64) : memory host 8 (hostToBe64 host n).toNat = be 8 n.toNat := by
  cases host with
  | big => rfl
  | little =>
    have hback := be_ofBe (be 8 n.toNat).reverse
    rw [List.length_reverse, length_be] at hback
    rw [hostToBe64, memory, toNat_byteswap64, hback, List.reverse_reverse]

/-- What `be64_to_host` makes of a variable that was copied into. -/
theorem be64ToHost_ofMemory (host : Host) {w : Bytes} (h : w.length = 8) :
    be64ToHost host (UInt64.ofNat (ofMemory host w)) = UInt64.ofNat (ofBe w) := by
  cases host with
  | big => rfl
  | little =>
    apply UInt64.toNat_inj.mp
    have hlt := ofBe_lt w
    rw [h] at hlt
    rw [be64ToHost, toNat_byteswap64, ofMemory, be_ofNat_ofBe (by rw [List.length_reverse, h]), List.reverse_reverse,
      UInt64.toNat_ofNat_of_lt' hlt]

/-! ## Requests -/

/-- The five doubles of a request, from the words they were received into. -/
def requestOf (host : Host) (body : Bytes) : GpuPayload :=
  (List.range kPayloadDoubles).map fun i => be64ToHost host (UInt64.ofNat (ofMemory host ((body.drop (8 * i)).take 8)))

def spellDoubles (payload : GpuPayload) : Bytes := payload.flatMap fun value => be 8 value.toNat

/-- A request on the wire. -/
def spell (request : GpuPayload) : Bytes := be 4 kExpectedLength ++ spellDoubles request

@[simp] theorem length_requestOf (host : Host) (body : Bytes) : (requestOf host body).length = kPayloadDoubles := by
  simp [requestOf]

/-- Any forty bytes are a request, and it spells them. -/
theorem spellDoubles_requestOf (host : Host) {body : Bytes} (h : body.length = kPayloadBytes) :
    spellDoubles (requestOf host body) = body := by
  have hword : ∀ i ∈ List.range kPayloadDoubles,
      be 8 (be64ToHost host (UInt64.ofNat (ofMemory host ((body.drop (8 * i)).take 8)))).toNat =
        (body.drop (8 * i)).take 8 := by
    intro i hi
    have hi := List.mem_range.mp hi
    have hlen : ((body.drop (8 * i)).take 8).length = 8 := by
      rw [List.length_take, List.length_drop, h]
      simp only [kPayloadDoubles, kPayloadBytes] at hi ⊢
      omega
    rw [be64ToHost_ofMemory host hlen, be_ofNat_ofBe hlen]
  rw [spellDoubles, requestOf, List.flatMap_map, List.flatMap_congr hword, flatMap_words, List.take_of_length_le]
  rw [h, kPayloadBytes, Nat.mul_comm]

/-! ## Answers -/

/-- The header and the words `send_packet` writes; it throws for other than five doubles. -/
def sendPacket (host : Host) (now : UInt64) (sequenceId : UInt32) (type : PacketType) (payload : GpuPayload) :
    Option (Bytes × Bytes) :=
  if payload.length ≠ kPayloadDoubles then none
  else
    some (memory host 8 (hostToBe64 host now).toNat ++ be 4 sequenceId.toNat ++ [type.code],
      payload.flatMap fun value => memory host 8 (hostToBe64 host value).toNat)

/-- The differences of `current` from `previous_payload`, index by index; nothing when an
    index lies beyond the latter. -/
def deltaOf (sub : UInt64 → UInt64 → UInt64) : GpuPayload → GpuPayload → Option GpuPayload
  | [], _ => some []
  | _ :: _, [] => none
  | c :: current, p :: previous => (deltaOf sub current previous).map (sub c p :: ·)

/-- A packet on the wire. -/
def packet (now : UInt64) (sequenceId : UInt32) (type : PacketType) (payload : GpuPayload) : Bytes :=
  be 8 now.toNat ++ be 4 sequenceId.toNat ++ [type.code] ++ spellDoubles payload

theorem sendPacket_of_length (host : Host) (now : UInt64) (sequenceId : UInt32) (type : PacketType) {payload : GpuPayload}
    (h : payload.length = kPayloadDoubles) :
    ∃ header words, sendPacket host now sequenceId type payload = some (header, words) ∧ words ≠ [] ∧
      header ++ words = packet now sequenceId type payload := by
  refine ⟨_, _, if_neg (not_not_intro h), ?_, ?_⟩
  · cases payload with
    | nil => cases h
    | cons value payload =>
      intro hnil
      have hlen := congrArg List.length (List.append_eq_nil_iff.mp hnil).1
      rw [length_memory] at hlen
      cases hlen
  · simp only [memory_hostToBe64, packet, spellDoubles]

theorem deltaOf_of_length (sub : UInt64 → UInt64 → UInt64) {current previous : GpuPayload}
    (h : current.length = previous.length) : deltaOf sub current previous = some (List.zipWith sub current previous) := by
  induction current generalizing previous with
  | nil => rfl
  | cons c current ih =>
    cases previous with
    | nil => cases h
    | cons p previous => rw [deltaOf, ih (Nat.succ.inj h), Option.map_some, List.zipWith_cons_cons]

/-! ## A conversation -/

/-- A request, where it was computed and when the packets of its answer were stamped. -/
structure Exchange where
  request : GpuPayload
  gpu : Nat
  current : GpuPayload
  primaryAt : UInt64
  deltaAt : UInt64 := 0
  deriving DecidableEq, Repr

/-- The result is one that a GPU may compute from the request. -/
structure Exchange.Genuine (compute : GpuComputeFn) (numGpus : Nat) (x : Exchange) : Prop where
  placed : x.gpu < numGpus
  computed : compute x.request x.gpu (.returned x.current)
  five : x.current.length = kPayloadDoubles

section
variable (sub : UInt64 → UInt64 → UInt64)

/-- The packets that answer one request, after a result `previous`. -/
def answer (sequenceId : UInt32) (previous : Option GpuPayload) (x : Exchange) : Bytes :=
  packet x.primaryAt sequenceId .primary x.current ++
    match previous with
    | none => []
    | some previous => packet x.deltaAt sequenceId .delta (List.zipWith sub x.current previous)

def talkFrom : UInt32 → Option GpuPayload → List Exchange → Bytes
  | _, _, [] => []
  | sequenceId, previous, x :: xs => answer sub sequenceId previous x ++ talkFrom (sequenceId + 1) (some x.current) xs

def talk (xs : List Exchange) : Bytes := talkFrom sub 0 none xs

variable {sub}

theorem talkFrom_concat (sequenceId : UInt32) (previous : Option GpuPayload) (xs : List Exchange) (x : Exchange) :
    talkFrom sub sequenceId previous (xs ++ [x]) =
      talkFrom sub sequenceId previous xs ++
        answer sub (sequenceId + UInt32.ofNat xs.length) ((xs.getLast?.map (·.current)).or previous) x := by
  induction xs generalizing sequenceId previous with
  | nil => simp [talkFrom]
  | cons y xs ih =>
    have hseq : sequenceId + 1 + UInt32.ofNat xs.length = sequenceId + UInt32.ofNat (y :: xs).length := by
      rw [List.length_cons, Nat.add_comm xs.length 1, UInt32.ofNat_add, ← UInt32.add_assoc]
      rfl
    have hlast : (xs.getLast?.map (·.current)).or (some y.current) =
        (((y :: xs).getLast?).map (·.current)).or previous := by
      cases xs with
      | nil => rfl
      | cons z xs =>
        rw [List.getLast?_cons_cons]
        obtain ⟨l, hl⟩ := Option.isSome_iff_exists.mp (List.getLast?_isSome.mpr (List.cons_ne_nil z xs))
        rw [hl]
        rfl
    rw [List.cons_append, talkFrom, ih, hseq, hlast, talkFrom, List.append_assoc]

/-- The next answer has the next number and is compared with the last result. -/
theorem talk_concat (xs : List Exchange) (x : Exchange) :
    talk sub (xs ++ [x]) = talk sub xs ++ answer sub (UInt32.ofNat xs.length) (xs.getLast?.map (·.current)) x := by
  rw [talk, talkFrom_concat, UInt32.zero_add, Option.or_none]
  rfl

end

end Overhauled.Adi
