/-
  Overhauled.Decoders.PrefixFree — no decoder of the repository accepts a frame and also
  one of its strict prefixes or extensions.

  Eight of the nine readers go through the frame from left to right and end by comparing
  the offset with its size, so the library's rules apply one field after the other.
  BRK2 has no such comparison: its TLV loop stops wherever the body does. What fixes
  the length there is the header, whose `payload_len` must be the number of bytes
  behind it (`length_of_header`).
-/

import Overhauled.Wire.PrefixFree
import Overhauled.Broker.Brk2Grammar
import Overhauled.Wasm.Wsm1
import Overhauled.Geo.Nxr1
import Overhauled.Media.Med1

namespace Overhauled.Decoders

open Wire Reader Broker Wasm Geo Media

/-! ## BRK1 -/

theorem steady_decodeCommonHeader (type : MessageType) (limits : ProtocolLimits) :
    Steady (decodeCommonHeader type limits) :=
  steady_sized <| steady_bind steady_take fun _ => steady_bind steady_u32 fun _ => steady_bind steady_u16 fun _ =>
    steady_bind steady_u8 fun _ => steady_bind steady_u8 fun _ => steady_bind steady_rejectIf fun _ =>
    steady_bind steady_rejectIf fun _ => steady_bind steady_rejectIf fun _ => steady_rejectIf

theorem closes_requestReader (limits : ProtocolLimits) : Closes (requestReader limits) :=
  closes_bind (steady_decodeCommonHeader _ _) fun _ => closes_bind steady_prefixed fun _ =>
    closes_bind steady_prefixed fun _ => closes_bind steady_prefixed fun _ => closes_bind steady_prefixed fun _ =>
    closes_bind steady_take fun _ => closes_bind steady_u8 fun _ => closes_bind steady_u32 fun _ =>
    closes_bind steady_prefixed fun _ => closes_then closes_atEnd

theorem closes_responseReader (limits : ProtocolLimits) : Closes (responseReader limits) :=
  closes_bind (steady_decodeCommonHeader _ _) fun _ => closes_bind steady_prefixed fun _ =>
    closes_bind steady_take fun _ => closes_bind steady_u8 fun _ => closes_bind steady_rejectIf fun _ =>
    closes_bind steady_u32 fun _ => closes_bind steady_u64 fun _ => closes_bind steady_prefixed fun _ =>
    closes_bind steady_prefixed fun _ => closes_then closes_atEnd

/-! ## BRK2 -/

/-- Two headers at the front of a body and of an extension of it announce the same payload. -/
theorem length_of_header {body ext : Bytes} {minor minor' : UInt8} {requestId requestId' : UInt64} {n n' : Nat}
    (hn : n < 256 ^ 4) (hn' : n' < 256 ^ 4) (h : At body 0 (requestHeader minor requestId n) 32)
    (h' : At (body ++ ext) 0 (requestHeader minor' requestId' n') 32) : n = n' := by
  have heq : requestHeader minor requestId n = requestHeader minor' requestId' n' :=
    List.IsPrefix.eq_of_length
      (List.prefix_of_prefix_length_le (h.2.2.trans (List.prefix_append _ _)) h'.2.2
        (by rw [length_requestHeader, length_requestHeader]))
      (by rw [length_requestHeader, length_requestHeader])
  have hlast : be 4 n = be 4 n' := List.append_inj_right' heq (by rw [length_be, length_be])
  rw [← ofBe_be_of_lt hn, hlast, ofBe_be_of_lt hn']

theorem brk2_prefixFree (limits : ProtocolLimits) :
    PrefixFree {body | ∃ requestId req, (decodeBrk2RequestBody body requestId limits).2 = .ok req} := by
  rintro body ⟨id0, req, h⟩ _ ⟨id0', req', h'⟩ ⟨ext, rfl⟩
  obtain ⟨hid, -⟩ := decodeBrk2RequestBody_eq.mp (Prod.ext rfl h)
  obtain ⟨hid', -⟩ := decodeBrk2RequestBody_eq.mp (Prod.ext rfl h')
  obtain ⟨⟨h32, -⟩, -, hlt, minor, hat⟩ := headerReader_ok.mp hid
  obtain ⟨-, -, hlt', minor', hat'⟩ := headerReader_ok.mp hid'
  have hlen := length_of_header hlt hlt' hat hat'
  rw [List.length_append] at hlen
  rw [List.eq_nil_of_length_eq_zero (l := ext) (by omega), List.append_nil]

/-! ## WSM1 -/

theorem steady_readBe32 : Steady readBe32 := steady_guarded steady_u32

theorem steady_readBe16 : Steady readBe16 := steady_guarded steady_u16

theorem steady_readBe64 : Steady readBe64 := steady_guarded steady_u64

theorem steady_readByte : Steady readByte := steady_guarded steady_u8

theorem steady_decodeHeader (type : WasmMessageType) (limits : WasmLimits) : Steady (decodeHeader type limits) :=
  steady_sized <| steady_bind steady_take fun _ => steady_bind steady_readBe32 fun _ =>
    steady_bind steady_rejectIf fun _ => steady_bind steady_readBe16 fun _ => steady_bind steady_rejectIf fun _ =>
    steady_bind steady_u8 fun _ => steady_bind steady_rejectIf fun _ => steady_u8

theorem steady_readBufferDescriptors (limits : WasmLimits) : Steady (readBufferDescriptors limits) :=
  have hdescriptor : Steady (readBufferDescriptor limits) :=
    steady_bind steady_readBe32 fun _ => steady_bind steady_readBe32 fun _ => steady_bind steady_readBe64 fun _ =>
      steady_bind steady_readBe64 fun _ => steady_bind steady_prefixed fun _ => steady_pure _
  steady_bind steady_readBe16 fun _ => steady_bind steady_rejectIf fun _ => steady_many hdescriptor _

theorem closes_taskRequestReader (limits : WasmLimits) : Closes (taskRequestReader limits) :=
  closes_bind (steady_decodeHeader _ _) fun _ => closes_bind steady_prefixed fun _ =>
    closes_bind steady_prefixed fun _ => closes_bind steady_prefixed fun _ => closes_bind steady_prefixed fun _ =>
    closes_bind steady_prefixed fun _ => closes_bind steady_readByte fun _ => closes_bind steady_readBe64 fun _ =>
    closes_bind (steady_readBufferDescriptors limits) fun _ => closes_bind steady_prefixed fun _ =>
    closes_then closes_atEnd

theorem closes_taskResponseReader (limits : WasmLimits) : Closes (taskResponseReader limits) :=
  closes_bind (steady_decodeHeader _ _) fun _ => closes_bind steady_readBe16 fun _ =>
    closes_bind steady_prefixed fun _ => closes_bind steady_readBe32 fun _ => closes_bind steady_readBe64 fun _ =>
    closes_bind steady_prefixed fun _ => closes_bind (steady_readBufferDescriptors limits) fun _ =>
    closes_bind steady_prefixed fun _ => closes_then closes_atEnd

theorem closes_lifecycleRequestReader (limits : WasmLimits) : Closes (lifecycleRequestReader limits) :=
  closes_bind (steady_decodeHeader _ _) fun _ => closes_bind steady_prefixed fun _ =>
    closes_bind steady_prefixed fun _ => closes_bind steady_prefixed fun _ => closes_bind steady_prefixed fun _ =>
    closes_bind steady_readBe32 fun _ => closes_bind steady_readBe32 fun _ => closes_bind steady_prefixed fun _ =>
    closes_bind steady_prefixed fun _ => closes_then closes_atEnd

theorem closes_lifecycleResponseReader (limits : WasmLimits) : Closes (lifecycleResponseReader limits) :=
  closes_bind (steady_decodeHeader _ _) fun _ => closes_bind steady_readByte fun _ =>
    closes_bind steady_readBe16 fun _ => closes_bind steady_readByte fun _ => closes_bind steady_prefixed fun _ =>
    closes_bind steady_prefixed fun _ => closes_bind steady_prefixed fun _ => closes_bind steady_prefixed fun _ =>
    closes_bind steady_readBe32 fun _ => closes_bind steady_readBe32 fun _ => closes_bind steady_prefixed fun _ =>
    closes_bind steady_prefixed fun _ => closes_then closes_atEnd

/-! ## NXR1 and MED1 -/

theorem steady_readDouble (host : Host) : Steady (readDouble host) :=
  steady_bind (steady_block 8 _) fun _ => steady_bind steady_rejectIf fun _ => steady_pure _

theorem closes_nxr1Reader (host : Host) (maxPayloadBytes : Nat) : Closes (nxr1Reader host maxPayloadBytes) :=
  closes_bind steady_take fun _ => closes_bind steady_u32 fun _ => closes_bind steady_u16 fun _ =>
    closes_bind steady_rejectIf fun _ => closes_bind steady_rejectIf fun _ =>
    closes_bind (steady_many (steady_readDouble host) 9) fun _ => closes_bind steady_prefixed fun _ =>
    closes_then closes_atEnd

theorem closes_mediaReader (maxPayloadBytes maxStringBytes : Nat) :
    Closes (mediaReader maxPayloadBytes maxStringBytes) :=
  closes_bind (steady_word 4 _) fun _ => closes_bind (steady_word 2 _) fun _ => closes_bind steady_rejectIf fun _ =>
    closes_bind steady_rejectIf fun _ => closes_bind (steady_word 1 _) fun _ => closes_bind steady_rejectIf fun _ =>
    closes_bind steady_prefixed fun _ => closes_bind steady_prefixed fun _ => closes_bind (steady_word 8 _) fun _ =>
    closes_bind (steady_word 8 _) fun _ => closes_bind (steady_word 4 _) fun _ => closes_bind (steady_word 4 _) fun _ =>
    closes_bind (steady_word 4 _) fun _ => closes_bind (steady_word 4 _) fun _ => closes_bind (steady_word 1 _) fun _ =>
    closes_bind steady_rejectIf fun _ => closes_bind steady_prefixed fun _ => closes_then closes_atEnd

/-! ## Every decoder -/

/-- A byte string that a decoder accepts under some limits is the only one among its
    prefixes and extensions. The BRK2 decoder is given the id the caller holds as well,
    which says nothing about acceptance, and NXR1 reads doubles in the host's byte order. -/
theorem decoders_prefixFree (limits : ProtocolLimits) (wasmLimits : WasmLimits) (host : Host)
    (maxPayloadBytes maxStringBytes : Nat) :
    PrefixFree {frame | ∃ r, decodeRequestFrame frame limits = .ok r} ∧
      PrefixFree {frame | ∃ r, decodeResponseFrame frame limits = .ok r} ∧
      PrefixFree {body | ∃ requestId r, (decodeBrk2RequestBody body requestId limits).2 = .ok r} ∧
      PrefixFree {frame | ∃ r, decodeWasmTaskRequest frame wasmLimits = .ok r} ∧
      PrefixFree {frame | ∃ r, decodeWasmTaskResponse frame wasmLimits = .ok r} ∧
      PrefixFree {frame | ∃ r, decodeWasmLifecycleRequest frame wasmLimits = .ok r} ∧
      PrefixFree {frame | ∃ r, decodeWasmLifecycleResponse frame wasmLimits = .ok r} ∧
      PrefixFree {bytes | ∃ f, decodeMediaStreamFrame bytes maxPayloadBytes maxStringBytes = .ok f} ∧
      PrefixFree {bytes | ∃ f, decodeNxr1Frame host bytes maxPayloadBytes = .ok f} :=
  ⟨(closes_requestReader limits).prefixFree, (closes_responseReader limits).prefixFree, brk2_prefixFree limits,
    (closes_taskRequestReader wasmLimits).prefixFree, (closes_taskResponseReader wasmLimits).prefixFree,
    (closes_lifecycleRequestReader wasmLimits).prefixFree, (closes_lifecycleResponseReader wasmLimits).prefixFree,
    (closes_mediaReader maxPayloadBytes maxStringBytes).prefixFree, (closes_nxr1Reader host maxPayloadBytes).prefixFree⟩

end Overhauled.Decoders
