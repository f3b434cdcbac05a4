/-
  Overhauled.Geo.Nxr1 — the NXR1 geospatial frame (`include/geospatial_frame.h`,
  `src/geospatial_frame.cpp`), the payload of kind `geospatial.frame.v1`: a header, nine
  doubles, and a payload behind its length. The broker decodes it and answers with it
  encoded again.

  The 16- and 32-bit words go through `htons`/`htonl` and a copy, which is network order
  on every host. A double is put together from two `htonl`s and copied as one 64-bit
  integer, so its bytes depend on the host: `doubleBytes`. Non-finite doubles are refused
  both ways.
-/

import Overhauled.Wire.Host
import Overhauled.Wire.Reader
import Overhauled.Wire.Writer

namespace Overhauled.Geo

open Wire Reader

def nxr1Magic : UInt32 := 0x4E585231
def nxr1Version : UInt16 := 1
def kGeospatialFrameKind : Bytes := ascii "geospatial.frame.v1"

/-- Doubles are their bits. -/
structure GeospatialFrame where
  latitude : UInt64 := 0
  longitude : UInt64 := 0
  altitude : UInt64 := 0
  velocityX : UInt64 := 0
  velocityY : UInt64 := 0
  velocityZ : UInt64 := 0
  fluidity : UInt64 := 0
  drag : UInt64 := 0
  divergence : UInt64 := 0
  payload : Bytes := []
  deriving DecidableEq, Repr

/-- The nine doubles in the order both loops go through them. -/
def GeospatialFrame.fields (f : GeospatialFrame) : List UInt64 :=
  [f.latitude, f.longitude, f.altitude, f.velocityX, f.velocityY, f.velocityZ, f.fluidity, f.drag, f.divergence]

def GeospatialFrame.ofFields (fields : List UInt64) (payload : Bytes) : GeospatialFrame :=
  { latitude := fields.getD 0 0, longitude := fields.getD 1 0, altitude := fields.getD 2 0
    velocityX := fields.getD 3 0, velocityY := fields.getD 4 0, velocityZ := fields.getD 5 0
    fluidity := fields.getD 6 0, drag := fields.getD 7 0, divergence := fields.getD 8 0, payload }

/-- The 32-bit integer whose copy is `v` in network order; `ntohl` is the same function. -/
def htonl (host : Host) (v : Nat) : Nat := ofMemory host (be 4 v)

/-- `host_to_be64`, and `be64_to_host`, which has the same body. -/
def swap64 (host : Host) (v : Nat) : Nat := htonl host (v % 2 ^ 32) * 2 ^ 32 + htonl host (v / 2 ^ 32)

/-- What a double leaves in the frame. -/
def doubleBytes (host : Host) (bits : UInt64) : Bytes := memory host 8 (swap64 host bits.toNat)

def nonFinite : Bytes := ascii "geospatial frame contains a non-finite number"

def appendDouble (host : Host) (out : Bytes) (bits : UInt64) : Except Bytes Bytes := do
  failIf (isFinite bits = false) nonFinite
  return out ++ doubleBytes host bits

def encodeNxr1Frame (host : Host) (frame : GeospatialFrame) (maxPayloadBytes : Nat) : Except Bytes Bytes := do
  failIf (frame.payload.length > maxPayloadBytes ∨ frame.payload.length > 256 ^ 4 - 1)
    (ascii "geospatial frame payload exceeds maximum length")
  let bytes ← frame.fields.foldlM (appendDouble host) (be 4 nxr1Magic.toNat ++ be 2 nxr1Version.toNat)
  return bytes ++ be 4 frame.payload.length ++ frame.payload

def truncated : Bytes := ascii "NXR1 frame truncated"

def readDouble (host : Host) : Reader UInt64 := do
  let w ← block 8 truncated
  let bits := UInt64.ofNat (swap64 host (ofMemory host w))
  rejectIf (isFinite bits = false) nonFinite
  return bits

def nxr1Reader (host : Host) (maxPayloadBytes : Nat) : Reader GeospatialFrame := do
  take 6 truncated
  let magic ← u32
  let version ← u16
  rejectIf (magic ≠ nxr1Magic) (ascii "invalid NXR1 magic")
  rejectIf (version ≠ nxr1Version) (ascii "unsupported NXR1 version")
  let fields ← many (readDouble host) 9
  let payload ← prefixed 4 maxPayloadBytes truncated (ascii "geospatial frame payload exceeds configured limit")
  atEnd (ascii "geospatial frame contains trailing bytes")
  return .ofFields fields payload

def decodeNxr1Frame (host : Host) (bytes : Bytes) (maxPayloadBytes : Nat) : Except Stop GeospatialFrame :=
  (nxr1Reader host maxPayloadBytes).run bytes

/-! ## Doubles in a frame -/

theorem htonl_lt (host : Host) (v : Nat) : htonl host v < 2 ^ 32 := by
  have h := ofMemory_lt host (be 4 v)
  rwa [length_be] at h

theorem htonl_htonl (host : Host) {v : Nat} (h : v < 2 ^ 32) : htonl host (htonl host v) = v := by
  cases host with
  | big => simp only [htonl, ofMemory, ofBe_be_of_lt (show v < 256 ^ 4 from h)]
  | little =>
    have hrev := be_ofBe (be 4 v).reverse
    rw [List.length_reverse, length_be] at hrev
    simp only [htonl, ofMemory, hrev, List.reverse_reverse]
    exact ofBe_be_of_lt h

theorem swap64_lt (host : Host) (v : Nat) : swap64 host v < 2 ^ 64 := by
  have h1 := htonl_lt host (v / 2 ^ 32)
  have h2 := htonl_lt host (v % 2 ^ 32)
  unfold swap64
  omega

theorem swap64_swap64 (host : Host) {v : Nat} (h : v < 2 ^ 64) : swap64 host (swap64 host v) = v := by
  have h1 := htonl_lt host (v / 2 ^ 32)
  have hhigh : swap64 host v / 2 ^ 32 = htonl host (v % 2 ^ 32) := by unfold swap64; omega
  have hlow : swap64 host v % 2 ^ 32 = htonl host (v / 2 ^ 32) := by unfold swap64; omega
  rw [swap64, hhigh, hlow, htonl_htonl host (by omega), htonl_htonl host (by omega)]
  omega

theorem double_of_bytes (host : Host) {w : Bytes} (hw : w.length = 8) (bits : UInt64) :
    UInt64.ofNat (swap64 host (ofMemory host w)) = bits ↔ w = doubleBytes host bits := by
  have hlt : ofMemory host w < 2 ^ 64 := by
    have h := ofMemory_lt host w
    rwa [hw] at h
  refine ⟨?_, ?_⟩
  · intro h
    have hmem := memory_ofMemory host w
    rw [hw] at hmem
    rw [doubleBytes, ← h, UInt64.toNat_ofNat_of_lt' (swap64_lt host _), swap64_swap64 host hlt, hmem]
  · intro h
    rw [h, doubleBytes, ofMemory_memory host (swap64_lt host _), swap64_swap64 host bits.toNat_lt, UInt64.ofNat_toNat]

@[simp] theorem length_doubleBytes (host : Host) (bits : UInt64) : (doubleBytes host bits).length = 8 :=
  length_memory host 8 _

/-! ## The layout -/

def nxr1Bytes (host : Host) (f : GeospatialFrame) : Bytes :=
  be 4 nxr1Magic.toNat ++ be 2 nxr1Version.toNat ++ f.fields.flatMap (doubleBytes host) ++ pre 4 f.payload

structure Nxr1Fits (maxPayloadBytes : Nat) (f : GeospatialFrame) : Prop where
  finite : ∀ bits ∈ f.fields, isFinite bits = true
  payload : f.payload.length ≤ maxPayloadBytes ∧ f.payload.length < 256 ^ 4

section
variable {host : Host} {maxPayload : Nat} {bytes : Bytes} {f : GeospatialFrame}

theorem appendDouble_ok {out o : Bytes} {bits : UInt64} :
    appendDouble host out bits = .ok o ↔ isFinite bits = true ∧ o = out ++ doubleBytes host bits := by
  simp only [appendDouble, except_bind_ok, failIf_ok, except_pure_ok, exists_const, Bool.not_eq_false]

theorem encodeNxr1Frame_ok :
    encodeNxr1Frame host f maxPayload = .ok bytes ↔ Nxr1Fits maxPayload f ∧ bytes = nxr1Bytes host f := by
  have hloop : ∀ {out o : Bytes}, f.fields.foldlM (appendDouble host) out = .ok o ↔
      (∀ bits ∈ f.fields, isFinite bits = true) ∧ o = out ++ f.fields.flatMap (doubleBytes host) :=
    foldlM_append_ok (f := appendDouble host) fun {_ _ _} => appendDouble_ok
  simp only [encodeNxr1Frame, except_bind_ok, failIf_ok, hloop, except_pure_ok, exists_const]
  refine ⟨?_, ?_⟩
  · intro h
    obtain ⟨hp, _, ⟨hfin, ho⟩, hb⟩ := h
    rw [ho, List.append_assoc] at hb
    exact ⟨⟨hfin, by omega⟩, hb⟩
  · intro h
    obtain ⟨h, hb⟩ := h
    have hp := h.payload
    exact ⟨by omega, _, ⟨h.finite, rfl⟩, by rw [hb, nxr1Bytes, pre, List.append_assoc _ (be 4 _)]⟩

theorem fields_ofFields {fields : List UInt64} (h : fields.length = 9) (payload : Bytes) :
    (GeospatialFrame.ofFields fields payload).fields = fields := by
  match fields, h with
  | [_, _, _, _, _, _, _, _, _], _ => rfl

theorem readDouble_ok {off off' : Nat} {bits : UInt64} :
    readDouble host bytes off = .ok (bits, off') ↔ isFinite bits = true ∧ At bytes off (doubleBytes host bits) off' := by
  simp only [readDouble, bind_ok, block_ok, rejectIf_ok, pure_ok, Bool.not_eq_false]
  refine ⟨?_, ?_⟩
  · intro h
    obtain ⟨w, o, ⟨hw, hat⟩, _, _, ⟨hfin, rfl⟩, rfl, rfl⟩ := h
    refine ⟨hfin, ?_⟩
    rw [← (double_of_bytes host hw _).mp rfl]
    exact hat
  · intro h
    obtain ⟨hfin, hat⟩ := h
    have hbits := (double_of_bytes host (length_doubleBytes host bits) bits).mpr rfl
    exact ⟨doubleBytes host bits, off', ⟨length_doubleBytes host bits, hat⟩, (), off', ⟨by rw [hbits]; exact hfin, rfl⟩,
      hbits.symm, rfl⟩

/-- A frame is accepted exactly when it is the layout of a geospatial frame of finite
    doubles within the limit. -/
theorem decodeNxr1Frame_ok :
    decodeNxr1Frame host bytes maxPayload = .ok f ↔ Nxr1Fits maxPayload f ∧ bytes = nxr1Bytes host f := by
  simp only [decodeNxr1Frame, run_ok, nxr1Reader, bind_ok, take_ok, u32_ok, u16_ok, rejectIf_ok, prefixed_ok, atEnd_ok,
    pure_ok]
  rw [← at_whole (w := nxr1Bytes host f), nxr1Bytes]
  simp only [and_assoc, exists_and_left, exists_eq_left, exists_const, ne_eq, not_not, at_append]
  refine ⟨?_, ?_⟩
  · intro h
    obtain ⟨-, _, m, o1, h1, v, o2, h2, rfl, rfl, fields, o3, hmany, p, hp1, hp2, _, h4, rfl, rfl, -⟩ := h
    obtain ⟨hlen, hfin, h3⟩ := (many_ok readDouble_ok h2.le).mp hmany
    have hfields := fields_ofFields hlen p
    refine ⟨⟨by rw [hfields]; exact hfin, hp1, hp2⟩, o3, ⟨o2, ⟨o1, h1, h2⟩, ?_⟩, h4⟩
    rw [hfields]
    exact h3
  · intro h
    obtain ⟨h, o3, ⟨o2, ⟨o1, h1, h2⟩, h3⟩, h4⟩ := h
    have e1 := h1.1
    have e2 := h2.1
    have hle := h2.le
    simp only [length_be] at e1 e2
    have hmany := (many_ok (n := 9) readDouble_ok h2.le).mpr ⟨rfl, h.finite, h3⟩
    exact ⟨by omega, bytes.length, nxr1Magic, o1, h1, nxr1Version, o2, h2, rfl, rfl, f.fields, o3, hmany, f.payload,
      h.payload.1, h.payload.2, bytes.length, h4, rfl, rfl, rfl⟩

end

end Overhauled.Geo
