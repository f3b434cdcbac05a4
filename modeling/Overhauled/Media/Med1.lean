/-
  Overhauled.Media.Med1 — the MED1 media frame (`include/media_stream.h`,
  `src/media_stream.cpp`), the payload of kind `media.stream.v1`. The broker decodes
  it and answers with it encoded again.

  Both directions check the same limits, and the flags byte has only its two named
  bits, so decoder and encoder meet in one layout.
-/

import Overhauled.Wire.Reader
import Overhauled.Wire.Writer

namespace Overhauled.Media

open Wire Reader

def mediaMagic : UInt32 := 0x4D454431
def mediaVersion : UInt16 := 1
def kMediaStreamKind : Bytes := ascii "media.stream.v1"

structure MediaType where
  raw : UInt8
  deriving DecidableEq, Repr

def MediaType.genericData : MediaType := ⟨2⟩

structure MediaStreamFrame where
  mediaType : MediaType := .genericData
  codec : Bytes := []
  streamId : Bytes := []
  sequenceNumber : UInt64 := 0
  timestampNs : UInt64 := 0
  sampleRate : UInt32 := 0
  width : UInt32 := 0
  height : UInt32 := 0
  channels : UInt32 := 0
  isKeyframe : Bool := false
  isFinalChunk : Bool := false
  payload : Bytes := []
  deriving DecidableEq, Repr

def flagsByte (frame : MediaStreamFrame) : UInt8 :=
  (if frame.isKeyframe then 1 else 0) ||| (if frame.isFinalChunk then 2 else 0)

def encodeMediaStreamFrame (frame : MediaStreamFrame) (maxPayloadBytes maxStringBytes : Nat) : Except Bytes Bytes := do
  failIf (frame.mediaType.raw > MediaType.genericData.raw) (ascii "invalid MED1 media type")
  failIf (frame.codec.length > maxStringBytes ∨ frame.streamId.length > maxStringBytes ∨
      frame.codec.length > 256 ^ 2 - 1 ∨ frame.streamId.length > 256 ^ 2 - 1)
    (ascii "MED1 string exceeds configured limit")
  failIf (frame.payload.length > maxPayloadBytes ∨ frame.payload.length > 256 ^ 4 - 1)
    (ascii "MED1 payload exceeds maximum length")
  return be 4 mediaMagic.toNat ++ be 2 mediaVersion.toNat ++ be 1 frame.mediaType.raw.toNat ++ pre 2 frame.codec ++
    pre 2 frame.streamId ++ be 8 frame.sequenceNumber.toNat ++ be 8 frame.timestampNs.toNat ++
    be 4 frame.sampleRate.toNat ++ be 4 frame.width.toNat ++ be 4 frame.height.toNat ++ be 4 frame.channels.toNat ++
    be 1 (flagsByte frame).toNat ++ pre 4 frame.payload

def truncated : Bytes := ascii "MED1 frame truncated"

def readUint (count : Nat) : Reader Nat := word count truncated

def readString (maxStringBytes : Nat) : Reader Bytes :=
  prefixed 2 maxStringBytes truncated (ascii "MED1 string exceeds configured limit")

def mediaReader (maxPayloadBytes maxStringBytes : Nat) : Reader MediaStreamFrame := do
  let magic ← readUint 4
  let version ← readUint 2
  rejectIf (magic ≠ mediaMagic.toNat) (ascii "invalid MED1 magic")
  rejectIf (version ≠ mediaVersion.toNat) (ascii "unsupported MED1 version")
  let mediaType ← readUint 1
  rejectIf (mediaType > MediaType.genericData.raw.toNat) (ascii "invalid MED1 media type")
  let codec ← readString maxStringBytes
  let streamId ← readString maxStringBytes
  let sequenceNumber ← readUint 8
  let timestampNs ← readUint 8
  let sampleRate ← readUint 4
  let width ← readUint 4
  let height ← readUint 4
  let channels ← readUint 4
  let flags ← readUint 1
  rejectIf (flags &&& 0xfffffffffffffffc ≠ 0) (ascii "invalid MED1 flags")
  let payload ← prefixed 4 maxPayloadBytes truncated (ascii "MED1 payload exceeds configured limit")
  atEnd (ascii "MED1 frame contains trailing bytes")
  return { codec, streamId, payload
           mediaType := ⟨UInt8.ofNat mediaType⟩
           sequenceNumber := UInt64.ofNat sequenceNumber, timestampNs := UInt64.ofNat timestampNs
           sampleRate := UInt32.ofNat sampleRate, width := UInt32.ofNat width
           height := UInt32.ofNat height, channels := UInt32.ofNat channels
           isKeyframe := flags &&& 1 ≠ 0, isFinalChunk := flags &&& 2 ≠ 0 }

def decodeMediaStreamFrame (bytes : Bytes) (maxPayloadBytes maxStringBytes : Nat) : Except Stop MediaStreamFrame :=
  (mediaReader maxPayloadBytes maxStringBytes).run bytes

/-! ## The layout -/

def mediaBytes (f : MediaStreamFrame) : Bytes :=
  be 4 mediaMagic.toNat ++ be 2 mediaVersion.toNat ++ be 1 f.mediaType.raw.toNat ++ pre 2 f.codec ++ pre 2 f.streamId ++
    be 8 f.sequenceNumber.toNat ++ be 8 f.timestampNs.toNat ++ be 4 f.sampleRate.toNat ++ be 4 f.width.toNat ++
    be 4 f.height.toNat ++ be 4 f.channels.toNat ++ be 1 (flagsByte f).toNat ++ pre 4 f.payload

structure MediaFits (maxPayloadBytes maxStringBytes : Nat) (f : MediaStreamFrame) : Prop where
  mediaType : f.mediaType.raw.toNat ≤ 2
  codec : f.codec.length ≤ maxStringBytes ∧ f.codec.length < 256 ^ 2
  streamId : f.streamId.length ≤ maxStringBytes ∧ f.streamId.length < 256 ^ 2
  payload : f.payload.length ≤ maxPayloadBytes ∧ f.payload.length < 256 ^ 4

section
variable {maxPayload maxString : Nat} {bytes : Bytes}

theorem encodeMediaStreamFrame_ok {f : MediaStreamFrame} :
    encodeMediaStreamFrame f maxPayload maxString = .ok bytes ↔ MediaFits maxPayload maxString f ∧ bytes = mediaBytes f := by
  simp only [encodeMediaStreamFrame, except_bind_ok, failIf_ok, except_pure_ok, exists_const]
  refine ⟨?_, ?_⟩
  · intro h
    obtain ⟨ht, hs, hp, hb⟩ := h
    have ht' : f.mediaType.raw.toNat ≤ 2 := UInt8.le_iff_toNat_le.mp (UInt8.not_lt.mp ht)
    exact ⟨⟨ht', by omega, by omega, by omega⟩, hb⟩
  · intro h
    obtain ⟨h, hb⟩ := h
    have hc := h.codec
    have hs := h.streamId
    have hp := h.payload
    exact ⟨UInt8.not_lt.mpr (UInt8.le_iff_toNat_le.mpr h.mediaType), by omega, by omega, hb⟩

/-- The two named bits of a flags byte are all of it. -/
theorem flags_bits (v : Nat) (hv : v < 256) : v &&& 0xfffffffffffffffc = 0 ↔
    ((if v &&& 1 ≠ 0 then 1 else 0) ||| (if v &&& 2 ≠ 0 then 2 else 0) : UInt8).toNat = v := by
  revert v
  decide +kernel

theorem flagsByte_bits (f : MediaStreamFrame) : (flagsByte f).toNat &&& 0xfffffffffffffffc = 0 ∧
    decide ((flagsByte f).toNat &&& 1 ≠ 0) = f.isKeyframe ∧ decide ((flagsByte f).toNat &&& 2 ≠ 0) = f.isFinalChunk := by
  unfold flagsByte
  cases f.isKeyframe <;> cases f.isFinalChunk <;> decide

/-- A frame is accepted exactly when it is the layout of a media frame within the limits. -/
theorem decodeMediaStreamFrame_ok {f : MediaStreamFrame} :
    decodeMediaStreamFrame bytes maxPayload maxString = .ok f ↔ MediaFits maxPayload maxString f ∧ bytes = mediaBytes f := by
  simp only [decodeMediaStreamFrame, run_ok, mediaReader, bind_ok, readUint, word_ok, rejectIf_ok, readString, prefixed_ok,
    atEnd_ok, pure_ok]
  rw [← at_whole (w := mediaBytes f), mediaBytes]
  simp only [and_assoc, exists_and_left, exists_eq_left, exists_const, ne_eq, not_not, at_append]
  refine ⟨?_, ?_⟩
  · intro h
    obtain ⟨off, m, -, o1, h1, v, -, o2, h2, rfl, rfl, t, ht, o3, h3, htype, c, hc1, hc2, o4, h4, i, hi1, hi2, o5, h5, h⟩ := h
    obtain ⟨n, hn, o6, h6, ts, hts, o7, h7, r, hr, o8, h8, w, hw, o9, h9, g, hg, o10, h10, ch, hch, o11, h11, h⟩ := h
    obtain ⟨fl, hfl, o12, h12, hbits, p, hp1, hp2, _, h13, rfl, rfl, -⟩ := h
    have hfl' := (flags_bits fl hfl).mp hbits
    have ht' : (UInt8.ofNat t).toNat = t := UInt8.toNat_ofNat_of_lt' ht
    refine ⟨⟨by rw [ht']; exact Nat.le_of_not_lt htype, ⟨hc1, hc2⟩, ⟨hi1, hi2⟩, hp1, hp2⟩, ?_⟩
    simp only [flagsByte, decide_eq_true_eq, ht', UInt64.toNat_ofNat_of_lt' hn, UInt64.toNat_ofNat_of_lt' hts,
      UInt32.toNat_ofNat_of_lt' hr, UInt32.toNat_ofNat_of_lt' hw, UInt32.toNat_ofNat_of_lt' hg, UInt32.toNat_ofNat_of_lt' hch]
    refine ⟨o12, ⟨o11, ⟨o10, ⟨o9, ⟨o8, ⟨o7, ⟨o6, ⟨o5, ⟨o4, ⟨o3, ⟨o2, ⟨o1, h1, h2⟩, h3⟩, h4⟩, h5⟩, h6⟩, h7⟩, h8⟩, h9⟩, h10⟩,
      h11⟩, ?_⟩, h13⟩
    rw [show (_ : Nat) = fl from hfl']
    exact h12
  · intro h
    obtain ⟨h, o12, ⟨o11, ⟨o10, ⟨o9, ⟨o8, ⟨o7, ⟨o6, ⟨o5, ⟨o4, ⟨o3, ⟨o2, ⟨o1, h1, h2⟩, h3⟩, h4⟩, h5⟩, h6⟩, h7⟩, h8⟩, h9⟩, h10⟩,
      h11⟩, h12⟩, h13⟩ := h
    obtain ⟨hmask, hkey, hfinal⟩ := flagsByte_bits f
    refine ⟨_, _, by decide, o1, h1, _, by decide, o2, h2, rfl, rfl, _, f.mediaType.raw.toNat_lt, o3, h3,
      Nat.not_lt_of_le h.mediaType, _, h.codec.1, h.codec.2, o4, h4, _, h.streamId.1, h.streamId.2, o5, h5,
      _, f.sequenceNumber.toNat_lt, o6, h6, _, f.timestampNs.toNat_lt, o7, h7, _, f.sampleRate.toNat_lt, o8, h8,
      _, f.width.toNat_lt, o9, h9, _, f.height.toNat_lt, o10, h10, _, f.channels.toNat_lt, o11, h11,
      _, (flagsByte f).toNat_lt, o12, h12, hmask, _, h.payload.1, h.payload.2, _, h13, rfl, ?_, rfl⟩
    simp only [ne_eq] at hkey hfinal
    simp only [UInt8.ofNat_toNat, UInt64.ofNat_toNat, UInt32.ofNat_toNat, hkey, hfinal]

end

end Overhauled.Media
