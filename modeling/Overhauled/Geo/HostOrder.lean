/-
  Overhauled.Geo.HostOrder — NXR1 bytes on a little-endian and on a big-endian host.

  The words of 16 and 32 bits go through `htons`/`htonl` and a copy, which is network order
  on both (`memory_htonl`). For a double, `host_to_be64` swaps the two halves whatever the
  host: on a little-endian host that, with the swap inside each half, puts the most
  significant byte first; on a big-endian one the halves come out the wrong way round
  (`doubleBytes_little`, `doubleBytes_big`). A double is read and written alike on both
  exactly when its halves are equal (`nxr1_host_independent_iff`), as those of zero are and
  those of one are not (`one_is_half_swapped_on_a_big_endian_host`).
-/

import Overhauled.Geo.Nxr1

namespace Overhauled.Geo

open Wire

/-- The frame as `docs/BROKER_PROTOCOL.md` has it: every double most significant byte first. -/
def networkBytes (f : GeospatialFrame) : Bytes :=
  be 4 nxr1Magic.toNat ++ be 2 nxr1Version.toNat ++ (f.fields.flatMap fun bits => be 8 bits.toNat) ++ pre 4 f.payload

/-- The upper and the lower 32 bits are the same. -/
def EqualHalves (bits : UInt64) : Prop := bits.toNat / 2 ^ 32 = bits.toNat % 2 ^ 32

/-! ## A double in memory -/

theorem memory_htonl (host : Host) (v : Nat) : memory host 4 (htonl host v) = be 4 v := by
  have h := memory_ofMemory host (be 4 v)
  rwa [length_be] at h

/-- What `host_to_be64` leaves in memory, half by half. -/
theorem be_swap64 (host : Host) (v : Nat) :
    be 8 (swap64 host v) = be 4 (htonl host (v % 2 ^ 32)) ++ be 4 (htonl host (v / 2 ^ 32)) := by
  have hlow := htonl_lt host (v / 2 ^ 32)
  have hhigh : swap64 host v / 256 ^ 4 = htonl host (v % 2 ^ 32) := by unfold swap64; omega
  have hmod : swap64 host v % 256 ^ 4 = htonl host (v / 2 ^ 32) := by unfold swap64; omega
  rw [be_add 4 4, hhigh, ← be_mod 4 4 (swap64 host v) (Nat.le_refl 4), hmod]

theorem be_halves (v : Nat) : be 8 v = be 4 (v / 2 ^ 32) ++ be 4 (v % 2 ^ 32) := by
  rw [be_add 4 4, ← be_mod 4 4 v (Nat.le_refl 4)]
  rfl

theorem doubleBytes_little (bits : UInt64) : doubleBytes .little bits = be 8 bits.toNat := by
  have h1 := memory_htonl .little (bits.toNat / 2 ^ 32)
  have h2 := memory_htonl .little (bits.toNat % 2 ^ 32)
  rw [memory] at h1 h2
  rw [doubleBytes, memory, be_swap64, List.reverse_append, h1, h2, ← be_halves]

theorem doubleBytes_big (bits : UInt64) :
    doubleBytes .big bits = be 4 (bits.toNat % 2 ^ 32) ++ be 4 (bits.toNat / 2 ^ 32) := by
  have h1 := memory_htonl .big (bits.toNat / 2 ^ 32)
  have h2 := memory_htonl .big (bits.toNat % 2 ^ 32)
  rw [memory] at h1 h2
  rw [doubleBytes, memory, be_swap64, h1, h2]

theorem doubleBytes_eq_iff (bits : UInt64) : doubleBytes .little bits = doubleBytes .big bits ↔ EqualHalves bits := by
  have hhigh : bits.toNat / 2 ^ 32 < 256 ^ 4 := by
    have := bits.toNat_lt
    omega
  have hlow : bits.toNat % 2 ^ 32 < 256 ^ 4 := Nat.mod_lt _ (by decide)
  rw [doubleBytes_little, doubleBytes_big, be_halves, EqualHalves]
  refine ⟨?_, ?_⟩
  · intro h
    exact be_inj hhigh hlow (List.append_inj h (by simp)).1
  · intro h
    rw [h]

/-! ## A frame -/

/-- Words of one length are the same words when they are the same bytes. -/
theorem flatMap_eq_iff {u w : UInt64 → Bytes} {n : Nat} (hu : ∀ bits, (u bits).length = n) (hw : ∀ bits, (w bits).length = n)
    (fields : List UInt64) : fields.flatMap u = fields.flatMap w ↔ ∀ bits ∈ fields, u bits = w bits := by
  induction fields with
  | nil => simp
  | cons bits fields ih =>
    rw [List.flatMap_cons, List.flatMap_cons, List.forall_mem_cons, ← ih]
    refine ⟨?_, ?_⟩
    · intro h
      exact List.append_inj h ((hu bits).trans (hw bits).symm)
    · intro h
      rw [h.1, h.2]

section
variable {maxPayload : Nat} {f : GeospatialFrame}

theorem nxr1Bytes_little (f : GeospatialFrame) : nxr1Bytes .little f = networkBytes f := by
  have hword : doubleBytes .little = fun bits => be 8 bits.toNat := funext doubleBytes_little
  rw [nxr1Bytes, networkBytes, hword]

theorem nxr1Bytes_eq_iff : nxr1Bytes .little f = nxr1Bytes .big f ↔ ∀ bits ∈ f.fields, EqualHalves bits := by
  simp only [← doubleBytes_eq_iff]
  rw [← flatMap_eq_iff (length_doubleBytes .little) (length_doubleBytes .big)]
  simp only [nxr1Bytes, List.append_assoc, List.append_cancel_left_eq, List.append_cancel_right_eq]

end

/-- A frame the encoder accepts has the same network-order bytes on both hosts if and only if
    the halves of its doubles are equal; and bytes are decoded alike on both if and only if
    the doubles they spell, with the halves either way round, are of that kind. -/
theorem nxr1_host_independent_iff (maxPayload : Nat) :
    (∀ f, (∃ host out, encodeNxr1Frame host f maxPayload = .ok out) →
      ((∀ host, encodeNxr1Frame host f maxPayload = .ok (networkBytes f)) ↔ ∀ bits ∈ f.fields, EqualHalves bits)) ∧
    ∀ bytes, (∀ f, decodeNxr1Frame .little bytes maxPayload = .ok f ↔ decodeNxr1Frame .big bytes maxPayload = .ok f) ↔
      ∀ f, Nxr1Fits maxPayload f → (∃ host, bytes = nxr1Bytes host f) → ∀ bits ∈ f.fields, EqualHalves bits := by
  refine ⟨?_, ?_⟩
  · intro f haccepted
    obtain ⟨host, out, haccepted⟩ := haccepted
    have hfits := (encodeNxr1Frame_ok.mp haccepted).1
    rw [← nxr1Bytes_eq_iff]
    refine ⟨?_, ?_⟩
    · intro h
      rw [nxr1Bytes_little]
      exact (encodeNxr1Frame_ok.mp (h .big)).2
    · intro h host
      refine encodeNxr1Frame_ok.mpr ⟨hfits, ?_⟩
      cases host with
      | little => exact (nxr1Bytes_little f).symm
      | big => rw [← h, nxr1Bytes_little]
  · intro bytes
    simp only [decodeNxr1Frame_ok, ← nxr1Bytes_eq_iff]
    refine ⟨?_, ?_⟩
    · intro h f hfits hspells
      obtain ⟨host, hbytes⟩ := hspells
      cases host with
      | little => rw [← hbytes, ← ((h f).mp ⟨hfits, hbytes⟩).2]
      | big => rw [← hbytes, ← ((h f).mpr ⟨hfits, hbytes⟩).2]
    · intro h f
      refine ⟨?_, ?_⟩
      · intro hf
        exact ⟨hf.1, by rw [← h f hf.1 ⟨.little, hf.2⟩]; exact hf.2⟩
      · intro hf
        exact ⟨hf.1, by rw [h f hf.1 ⟨.big, hf.2⟩]; exact hf.2⟩

/-- A latitude of 1.0: the two hosts write different bytes, and a big-endian host reads
    another latitude from those of a little-endian one. -/
theorem one_is_half_swapped_on_a_big_endian_host :
    encodeNxr1Frame .little { latitude := 0x3ff0000000000000 } 0 = .ok (networkBytes { latitude := 0x3ff0000000000000 }) ∧
      encodeNxr1Frame .big { latitude := 0x3ff0000000000000 } 0 ≠ .ok (networkBytes { latitude := 0x3ff0000000000000 }) ∧
      decodeNxr1Frame .big (networkBytes { latitude := 0x3ff0000000000000 }) 0 = .ok { latitude := 0x3ff00000 } := by
  decide +kernel

end Overhauled.Geo
