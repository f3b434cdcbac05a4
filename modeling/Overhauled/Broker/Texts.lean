/-
  Overhauled.Broker.Texts — the texts with which the codecs of the handlers reject: short,
  and plain ASCII (`Text`). They are constants of the source; nothing of the frame is
  quoted in them.
-/

import Overhauled.Wire.Utf8
import Overhauled.Broker.Service

namespace Overhauled.Broker

open Wire Reader

def Short (w : Bytes) : Prop := w.length ≤ 256

instance : DecidablePred Short := fun w => inferInstanceAs (Decidable (w.length ≤ 256))

def Text (w : Bytes) : Prop := Short w ∧ Ascii w

instance : DecidablePred Text := fun _ => inferInstanceAs (Decidable (_ ∧ _))

theorem text_nil : Text [] := by decide

theorem text_of {cs : List Char} (h : cs.length ≤ 256 ∧ cs.all (·.toNat < 0x80) = true) :
    Text (ascii (String.ofList cs)) := by
  refine ⟨?_, ascii_literal h.2⟩
  rw [Short, ascii, String.toList_ofList, List.length_map]
  exact h.1

theorem text_nxr1 (host : Host) (maxPayload : Nat) : Says Text (Geo.nxr1Reader host maxPayload) := by
  have hdouble : Says Text (Geo.readDouble host) :=
    says_bind (says_block (text_of (by decide))) fun _ => says_bind (says_rejectIf (text_of (by decide))) fun _ => says_pure _
  unfold Geo.nxr1Reader
  refine says_bind (says_take (text_of (by decide))) fun _ => says_bind says_u32 fun _ => says_bind says_u16 fun _ => ?_
  refine says_bind (says_rejectIf (text_of (by decide))) fun _ => says_bind (says_rejectIf (text_of (by decide))) fun _ => ?_
  refine says_bind (says_many hdouble 9) fun _ => says_bind (says_prefixed (text_of (by decide)) (text_of (by decide))) fun _ => ?_
  exact says_bind (says_atEnd (text_of (by decide))) fun _ => says_pure _

theorem text_media (maxPayload maxString : Nat) : Says Text (Media.mediaReader maxPayload maxString) := by
  have huint : ∀ count, Says Text (Media.readUint count) := fun count => says_word (text_of (by decide))
  have hstring : Says Text (Media.readString maxString) := says_prefixed (text_of (by decide)) (text_of (by decide))
  unfold Media.mediaReader
  refine says_bind (huint 4) fun _ => says_bind (huint 2) fun _ => says_bind (says_rejectIf (text_of (by decide))) fun _ => ?_
  refine says_bind (says_rejectIf (text_of (by decide))) fun _ => says_bind (huint 1) fun _ => ?_
  refine says_bind (says_rejectIf (text_of (by decide))) fun _ => says_bind hstring fun _ => says_bind hstring fun _ => ?_
  refine says_bind (huint 8) fun _ => says_bind (huint 8) fun _ => says_bind (huint 4) fun _ => ?_
  refine says_bind (huint 4) fun _ => says_bind (huint 4) fun _ => says_bind (huint 4) fun _ => ?_
  refine says_bind (huint 1) fun _ => says_bind (says_rejectIf (text_of (by decide))) fun _ => ?_
  refine says_bind (says_prefixed (text_of (by decide)) (text_of (by decide))) fun _ => ?_
  exact says_bind (says_atEnd (text_of (by decide))) fun _ => says_pure _

section
variable (limits : Wasm.WasmLimits)

theorem text_be16 : Says Text Wasm.readBe16 := says_guarded (text_of (by decide)) says_u16
theorem text_be32 : Says Text Wasm.readBe32 := says_guarded (text_of (by decide)) says_u32
theorem text_be64 : Says Text Wasm.readBe64 := says_guarded (text_of (by decide)) says_u64
theorem text_string : Says Text (Wasm.readString limits) := says_prefixed (text_of (by decide)) (text_of (by decide))
theorem text_blob : Says Text (Wasm.readBlob limits) := says_prefixed (text_of (by decide)) (text_of (by decide))

theorem text_wasmHeader (type : Wasm.WasmMessageType) : Says Text (Wasm.decodeHeader type limits) := by
  unfold Wasm.decodeHeader
  refine says_bind says_size fun _ => says_bind (says_rejectIf (text_of (by decide))) fun _ => ?_
  refine says_bind (says_take (text_of (by decide))) fun _ => says_bind text_be32 fun _ => ?_
  refine says_bind (says_rejectIf (text_of (by decide))) fun _ => says_bind text_be16 fun _ => ?_
  refine says_bind (says_rejectIf (text_of (by decide))) fun _ => says_bind says_u8 fun _ => ?_
  exact says_bind (says_rejectIf (text_of (by decide))) fun _ => says_u8

theorem text_buffers : Says Text (Wasm.readBufferDescriptors limits) := by
  have hone : Says Text (Wasm.readBufferDescriptor limits) :=
    says_bind text_be32 fun _ => says_bind text_be32 fun _ => says_bind text_be64 fun _ => says_bind text_be64 fun _ =>
      says_bind (text_string limits) fun _ => says_pure _
  exact says_bind text_be16 fun _ => says_bind (says_rejectIf (text_of (by decide))) fun _ => says_many hone _

theorem text_taskRequest : Says Text (Wasm.taskRequestReader limits) := by
  have hstring := text_string limits
  unfold Wasm.taskRequestReader
  refine says_bind (text_wasmHeader limits _) fun _ => says_bind hstring fun _ => says_bind hstring fun _ => ?_
  refine says_bind hstring fun _ => says_bind hstring fun _ => says_bind hstring fun _ => ?_
  refine says_bind (says_guarded (text_of (by decide)) says_u8) fun _ => says_bind text_be64 fun _ => ?_
  refine says_bind (text_buffers limits) fun _ => says_bind (text_blob limits) fun _ => ?_
  exact says_bind (says_atEnd (text_of (by decide))) fun _ => says_bind (says_rejectIf (text_of (by decide))) fun _ => says_pure _

theorem text_lifecycleRequest : Says Text (Wasm.lifecycleRequestReader limits) := by
  have hstring := text_string limits
  unfold Wasm.lifecycleRequestReader
  refine says_bind (text_wasmHeader limits _) fun _ => says_bind hstring fun _ => says_bind hstring fun _ => ?_
  refine says_bind hstring fun _ => says_bind hstring fun _ => says_bind text_be32 fun _ => ?_
  refine says_bind text_be32 fun _ => says_bind hstring fun _ => says_bind (text_blob limits) fun _ => ?_
  exact says_bind (says_atEnd (text_of (by decide))) fun _ => says_bind (says_rejectIf (text_of (by decide))) fun _ => says_pure _

theorem text_encodeTask (resp : Wasm.WasmTaskResponse) : Fails Text (Wasm.encodeWasmTaskResponse resp limits) := by
  have hstring : ∀ out value, Fails Text (Wasm.appendString out value limits) := fun _ _ => fails_appendPre (text_of (by decide))
  have hbuffers : ∀ out bufs, Fails Text (Wasm.appendBufferDescriptors out bufs limits) := fun _ _ =>
    fails_bind (fails_failIf (text_of (by decide))) fun _ => fails_foldlM (fun _ _ => hstring _ _) _ _
  unfold Wasm.encodeWasmTaskResponse
  refine fails_bind (hstring _ _) fun _ => fails_bind (hstring _ _) fun _ => fails_bind (hbuffers _ _) fun _ => ?_
  exact fails_bind (fails_appendPre (text_of (by decide))) fun _ => fails_bind (fails_failIf (text_of (by decide))) fun _ => fails_pure _

theorem text_encodeLifecycle (resp : Wasm.WasmLifecycleResponse) :
    Fails Text (Wasm.encodeWasmLifecycleResponse resp limits) := by
  have hstring : ∀ out value, Fails Text (Wasm.appendString out value limits) := fun _ _ => fails_appendPre (text_of (by decide))
  unfold Wasm.encodeWasmLifecycleResponse
  refine fails_bind (hstring _ _) fun _ => fails_bind (hstring _ _) fun _ => fails_bind (hstring _ _) fun _ => ?_
  refine fails_bind (hstring _ _) fun _ => fails_bind (hstring _ _) fun _ => fails_bind (hstring _ _) fun _ => ?_
  exact fails_bind (fails_failIf (text_of (by decide))) fun _ => fails_pure _

end

end Overhauled.Broker
