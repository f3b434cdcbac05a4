/-
  Overhauled.Broker.ReplyTexts — whether the strings of a BRK2 response are UTF-8.

  The decoder refuses a request whose strings are not; the encoder of the response checks
  nothing. The task id is the request's and the backend's name is a constant, so the error
  text decides. Almost every text is a constant of the source, ASCII. Two are not:

  - a WASM task that the manager refuses is answered with the module version it asked for
    between two constants, and WSM1 strings are any bytes;
  - what an accelerator's exception says, when the CPU may not stand in for it.

  `reply_texts_utf8_iff` is the exact condition, and `a_refused_task_quotes_its_version`
  a request whose answer the decoder's own check would refuse.
-/

import Overhauled.Broker.Brk2Grammar
import Overhauled.Broker.Answers
import Overhauled.Broker.Texts

namespace Overhauled.Broker

open Wire Reader
open Wasm (Computed Manager WasmLimits WasmTaskRequest)

/-! ## The TLVs of a body -/

/-- The body is a header and these TLVs. -/
def Tlvs (body : Bytes) (fs : List FieldView) : Prop :=
  (∀ f ∈ fs, f.value.length < 256 ^ 4) ∧ ∃ header : Bytes, header.length = 32 ∧ body = header ++ serialise fs

theorem tlvs_unique {body : Bytes} {fs gs : List FieldView} (hf : Tlvs body fs) (hg : Tlvs body gs) : fs = gs := by
  obtain ⟨hf, header, hlen, rfl⟩ := hf
  obtain ⟨hg, header', hlen', h⟩ := hg
  exact serialise_inj hf hg (List.append_inj h (hlen.trans hlen'.symm)).2

theorem response_tlvs {r : BrokerResponse} {requestId : UInt64} {limits : ProtocolLimits} {out : Bytes}
    (h : encodeBrk2ResponseBody r requestId limits = .ok out) : Tlvs out (responseFields r) := by
  obtain ⟨hfits, rfl⟩ := encodeBrk2ResponseBody_ok.mp h
  obtain ⟨ht, hres, he⟩ := hfits.wide
  refine ⟨?_, ?_⟩
  · simp only [responseFields, List.forall_mem_cons, List.length_singleton, length_be, length_backendName,
      List.not_mem_nil, false_implies, implies_true, and_true]
    exact ⟨ht, by decide, by decide, by decide, hres, he, by decide⟩
  · refine ⟨_, ?_, rfl⟩
    simp only [List.length_append, length_be, List.length_singleton]

/-! ## The texts that are not constants -/

section
variable (svc : BrokerService) (m : Manager) (clock : Clock) (gpu : Placement) (request : BrokerRequest)

/-- The reply that refuses a task has room for its text. -/
def RefusalFits (limits : WasmLimits) (req : WasmTaskRequest) (why : Bytes) : Prop :=
  (15 + req.moduleVersion.length + why.length ≤ limits.maxStringBytes ∧
      15 + req.moduleVersion.length + why.length < 256 ^ 2) ∧
    45 + req.taskId.length + req.moduleVersion.length + why.length +
      (Wasm.descriptorsBytes req.bufferDescriptors).length ≤ limits.maxFrameBytes

/-- What a refused task asked for, where the answer quotes it. -/
def VersionUtf8 : Prop :=
  ∀ req status why, Wasm.decodeWasmTaskRequest request.payload (wasmLimits svc.config.protocolLimits) = .ok req →
    Wasm.refusal m req = some (status, why) → RefusalFits (wasmLimits svc.config.protocolLimits) req why →
    Utf8 req.moduleVersion

def ExceptionUtf8 : Prop := ∀ what, AcceleratorThrows svc gpu request what → Utf8 what

/-- What the answer to a request that is handled in time quotes is well formed. -/
def QuotesUtf8 : Prop :=
  Reaches svc clock request → clock.ended < deadline request →
    (request.kind = Wasm.kWasmTaskKind → VersionUtf8 svc m request) ∧
    (dedicatedKind request.kind = false → ExceptionUtf8 svc gpu request)

end

section
variable {svc : BrokerService} {m : Manager} {clock : Clock} {gpu : Placement} {request : BrokerRequest}

theorem utf8_text {w : Bytes} (h : Text w) : Utf8 w := utf8_ascii h.2

theorem utf8_texts {u w : Bytes} (hu : Text u) (hw : Text w) : Utf8 (u ++ w) := utf8_append (utf8_text hu) (utf8_text hw)

theorem finishResponse_utf8 {r : BrokerResponse} :
    Utf8 (finishResponse clock request r).error ↔ (clock.ended < deadline request → Utf8 r.error) := by
  by_cases h : clock.ended ≥ deadline request
  · rw [finishResponse_late h]
    exact iff_of_true (utf8_text (text_of (by decide))) fun hlt => absurd hlt (by omega)
  · rw [finishResponse_early h]
    exact ⟨fun hr _ => hr, fun hr => hr (by omega)⟩

theorem text_validateRequest {limits : ProtocolLimits} {error : Bytes} (h : validateRequest request limits = some error) :
    Text error := by
  unfold validateRequest at h
  repeat' split at h
  all_goals cases h
  all_goals exact text_of (by decide)

theorem utf8_echo {α : Type} {decoded : Except Stop α} {r : BrokerResponse} (h : EchoAnswer request decoded r)
    (htext : ∀ e, decoded = .error e → Text e.text) : Utf8 r.error := by
  cases h with
  | undecoded hdec => exact utf8_text (htext _ hdec)
  | echoed => exact utf8_nil

theorem utf8_lifecycle {m' : Manager} {answer : Computed BrokerResponse} (h : LifecycleAnswer svc m request m' answer)
    {r : BrokerResponse} (hr : answer = .returned r) : Utf8 r.error := by
  cases h with
  | undecoded hdec =>
    cases hr
    exact utf8_texts (text_of (by decide)) (says_run (text_lifecycleRequest _) text_nil hdec)
  | threw => cases hr
  | escaped => cases hr
  | unencoded _ _ henc =>
    cases hr
    exact utf8_texts (text_of (by decide)) (text_encodeLifecycle _ _ _ henc)
  | @answered req _ resp _ _ hcall _ =>
    cases hr
    have hout := @Wasm.handleLifecycle_outcome m (forKind request.kind req)
    rw [hcall] at hout
    have hascii : Ascii resp.error := by
      cases hout with
      | keeps _ _ herror => exact herror
      | creates => exact ascii_nil
      | drains => exact ascii_nil
      | releases => exact ascii_nil
    exact utf8_ascii hascii

theorem refusalReply_fits {limits : WasmLimits} {req : WasmTaskRequest} {status : Wasm.WasmTaskStatus} {why : Bytes}
    (hreq : Wasm.TaskRequestFits limits req) :
    Wasm.TaskResponseFits limits (Wasm.refusalReply req status why) ↔ RefusalFits limits req why := by
  have herror : (Wasm.refusalReply req status why).error.length = 15 + req.moduleVersion.length + why.length := by
    have hhead : (ascii "module version ").length = 15 := by decide
    simp only [Wasm.refusalReply, List.length_append, hhead]
  have hlen : (Wasm.taskResponseBytes (Wasm.refusalReply req status why)).length = 45 + req.taskId.length +
      req.moduleVersion.length + why.length + (Wasm.descriptorsBytes req.bufferDescriptors).length := by
    rw [Wasm.length_taskResponseBytes, herror]
    simp only [Wasm.refusalReply, Wasm.taskReply, List.length_nil]
    omega
  refine ⟨?_, ?_⟩
  · intro h
    have hstring := h.error
    rw [Wasm.StringFits, herror] at hstring
    exact ⟨hstring, hlen ▸ h.frame⟩
  · intro h
    refine ⟨hreq.taskId, ?_, hreq.buffers, ?_, hlen ▸ h.2⟩
    · rw [Wasm.StringFits, herror]
      exact h.1
    · exact ⟨Nat.zero_le _, Nat.zero_lt_succ _⟩

theorem task_utf8_iff {m' : Manager} {answer : Computed BrokerResponse} (h : TaskAnswer svc m clock request m' answer)
    {r : BrokerResponse} (hr : answer = .returned r) : Utf8 r.error ↔ VersionUtf8 svc m request := by
  cases h with
  | undecoded hdec =>
    cases hr
    refine iff_of_true (utf8_texts (text_of (by decide)) (says_run (text_taskRequest _) text_nil hdec)) ?_
    intro req status why hdec'
    rw [hdec] at hdec'
    cases hdec'
  | unencoded hdec hout henc =>
    cases hr
    refine iff_of_true (utf8_texts (text_of (by decide)) (text_encodeTask _ _ _ henc)) ?_
    intro req status why hdec' hwhy hfits
    rw [hdec] at hdec'
    cases hdec'
    cases hout with
    | refused href =>
      -- a refusal with room for its text would have been encoded
      rw [hwhy] at href
      cases href
      have hreq := (Wasm.decodeWasmTaskRequest_ok.mp hdec).1
      have hok := Wasm.encodeWasmTaskResponse_ok.mpr ⟨(@refusalReply_fits _ _ status _ hreq).mpr hfits, rfl⟩
      rw [hok] at henc
      cases henc
    | ran hnone =>
      rw [hnone] at hwhy
      cases hwhy
  | answered hdec hout henc =>
    cases hr
    cases hout with
    | refused href =>
      have hreq := (Wasm.decodeWasmTaskRequest_ok.mp hdec).1
      have hfits := (refusalReply_fits hreq).mp (Wasm.encodeWasmTaskResponse_ok.mp henc).1
      have hhead : Ascii (ascii "module version ") := (text_of (by decide)).2
      have hquote : ∀ {v}, Utf8 (ascii "module version " ++ v ++ _) ↔ Utf8 v :=
        utf8_around_ascii hhead (Wasm.refusal_why href).2
      refine hquote.trans ⟨?_, ?_⟩
      · intro hv req status why hdec' _ _
        rw [hdec] at hdec'
        cases hdec'
        exact hv
      · intro h
        exact h _ _ _ hdec href hfits
    | ran hnone =>
      refine iff_of_true utf8_nil ?_
      intro req status why hdec' hwhy
      rw [hdec] at hdec'
      cases hdec'
      rw [hnone] at hwhy
      cases hwhy

theorem inference_utf8_iff {r : BrokerResponse} (hr : handleInferenceRequest svc gpu request = .returned r) :
    Utf8 r.error ↔ ExceptionUtf8 svc gpu request := by
  refine ⟨?_, ?_⟩
  · intro h what hthrows
    rwa [accelerator_error hthrows hr] at h
  · intro h
    cases inference_answer hr with
    | unpacked => exact utf8_text (text_of (by decide))
    | cpu => exact utf8_nil
    | gpu => exact utf8_nil
    | full => exact utf8_text (text_of (by decide))
    | npu => exact utf8_nil
    | threw hthrows => exact h _ hthrows

theorem handled_utf8_iff {m' : Manager} {answer : Computed BrokerResponse}
    (h : Handled svc m clock gpu request m' answer) {r : BrokerResponse} (hr : answer = .returned r) :
    Utf8 r.error ↔ QuotesUtf8 svc m clock gpu request := by
  -- a kind whose texts are all constants
  have hplain : ∀ {r : BrokerResponse}, Utf8 r.error → request.kind ≠ Wasm.kWasmTaskKind →
      dedicatedKind request.kind = true →
      (Utf8 (finishResponse clock request r).error ↔ QuotesUtf8 svc m clock gpu request) := by
    intro r hutf8 htask hkind
    refine iff_of_true (finishResponse_utf8.mpr fun _ => hutf8) fun _ _ => ⟨fun h => absurd h htask, fun h => ?_⟩
    rw [hkind] at h
    cases h
  cases h with
  | invalid hreach hv =>
    cases hr
    exact iff_of_true (utf8_text (text_validateRequest hv)) fun h => absurd h hreach
  | slept hreach =>
    cases hr
    exact iff_of_true (finishResponse_utf8.mpr fun _ => utf8_nil) fun h => absurd h hreach
  | geospatial _ hkind =>
    cases hr
    have hutf8 := utf8_echo (geospatial_answer svc request) fun e hdec => says_run (text_nxr1 _ _) text_nil hdec
    exact hplain hutf8 (by rw [hkind]; decide) (by rw [hkind]; decide)
  | media _ hkind =>
    cases hr
    have hutf8 := utf8_echo (media_answer svc request) fun e hdec => says_run (text_media _ _) text_nil hdec
    exact hplain hutf8 (by rw [hkind]; decide) (by rw [hkind]; decide)
  | task hreach hkind =>
    obtain ⟨r', hr', rfl⟩ := Computed.map_eq_returned.mp hr
    have hdedicated : dedicatedKind Wasm.kWasmTaskKind = true := by decide
    simp only [QuotesUtf8, finishResponse_utf8, task_utf8_iff (task_answer svc m clock request) hr', hreach, hkind,
      hdedicated, true_implies, Bool.true_eq_false, false_implies, and_true]
  | lifecycle _ hkind =>
    obtain ⟨r', hr', rfl⟩ := Computed.map_eq_returned.mp hr
    obtain ⟨htask, hdedicated⟩ := lifecycle_dedicated hkind
    exact hplain (utf8_lifecycle (lifecycle_answer svc m request) hr') htask hdedicated
  | inference hreach hkind =>
    obtain ⟨r', hr', rfl⟩ := Computed.map_eq_returned.mp hr
    have htask : request.kind ≠ Wasm.kWasmTaskKind := by
      rintro h
      rw [h] at hkind
      cases hkind
    simp only [QuotesUtf8, finishResponse_utf8, inference_utf8_iff hr', hreach, hkind, htask, true_implies, false_implies,
      true_and]

end

/-- Every string of the response is UTF-8, exactly when what it quotes is. -/
theorem reply_texts_utf8_iff (svc : BrokerService) (m : Manager) (clock : Clock) (gpu : Placement)
    (limits : ProtocolLimits) (body out : Bytes) (requestId0 requestId : UInt64) (request : BrokerRequest)
    (r : BrokerResponse) (hbody : decodeBrk2RequestBody body requestId0 limits = (requestId, .ok request))
    (hr : (handleRequest svc m clock gpu request).2 = .returned r)
    (hout : encodeBrk2ResponseBody r requestId limits = .ok out) :
    (∀ fs, Tlvs out fs → ∀ f ∈ fs, f.type = wtUtf8 → validUtf8 f.value = true) ↔
      QuotesUtf8 svc m clock gpu request := by
  obtain ⟨minor, fs, hreq⟩ := decoded_is_request hbody
  have htask : Utf8 r.taskId := by
    rw [carries_handleRequest svc m clock gpu request r hr]
    exact hreq.fields.taskId.2.2.1
  have hbackend : Utf8 (backendName r.backend) := by
    cases r.backend <;> exact utf8_text (text_of (by decide))
  have htlvs := response_tlvs hout
  rw [← handled_utf8_iff (handleRequest_handled svc m clock gpu request) hr]
  refine ⟨?_, ?_⟩
  · intro h
    have := h _ htlvs ⟨6, wtUtf8, 0, r.error⟩ (by simp [responseFields]) rfl
    exact (validUtf8_iff _).mp this
  · intro h fs hfs f hf htype
    rw [tlvs_unique hfs htlvs] at hf
    rw [validUtf8_iff]
    simp only [responseFields, List.mem_cons, List.not_mem_nil, or_false] at hf
    rcases hf with rfl | rfl | rfl | rfl | rfl | rfl | rfl
    · exact htask
    · exact absurd htype (by dsimp only; decide)
    · exact absurd htype (by dsimp only; decide)
    · exact absurd htype (by dsimp only; decide)
    · exact absurd htype (by dsimp only; decide)
    · exact h
    · exact hbackend

/-- A task for a module that was never prepared; `version` is any bytes. -/
def versionRequest (version : Bytes) : BrokerRequest :=
  { taskId := ascii "t", source := ascii "a", destination := ascii "b", kind := Wasm.kWasmTaskKind, timeoutMs := 1000
    payload := Wasm.taskRequestBytes 0 { Wasm.smallTask with moduleVersion := version } }

def versionFields (version : Bytes) : List FieldView :=
  [⟨1, wtUtf8, 0, ascii "t"⟩, ⟨2, wtUtf8, 0, ascii "a"⟩, ⟨3, wtUtf8, 0, ascii "b"⟩, ⟨4, wtUtf8, 0, Wasm.kWasmTaskKind⟩,
    ⟨5, wtU8, 0, [0]⟩, ⟨6, wtU32, 0, be 4 1000⟩, ⟨7, wtBytes, 0, (versionRequest version).payload⟩]

def versionBody (version : Bytes) : Bytes :=
  requestHeader 0 7 (serialise (versionFields version)).length ++ serialise (versionFields version)

/-- The answer of an empty manager. -/
def versionReply (version : Bytes) : BrokerResponse :=
  { taskId := ascii "t", status := .rejected
    result := Wasm.taskResponseBytes (Wasm.refusalReply { Wasm.smallTask with moduleVersion := version } .moduleNotFound
      (ascii " is not registered"))
    error := ascii "module version " ++ version ++ ascii " is not registered" }

def versionOut (version : Bytes) : Bytes :=
  envelope msgResponse (flagResponse ||| flagEndStream) 7 brk2SchemaResponse
    (serialise (responseFields (versionReply version)))

theorem reply_texts_utf8_iff_version :
    (decodeBrk2RequestBody (versionBody (ascii "1")) 0 {} = (7, .ok (versionRequest (ascii "1"))) ∧
      (handleRequest {} {} {} ⟨.escaped, 0⟩ (versionRequest (ascii "1"))).2 = .returned (versionReply (ascii "1")) ∧
      encodeBrk2ResponseBody (versionReply (ascii "1")) 7 {} = .ok (versionOut (ascii "1"))) ∧
    validUtf8 (versionReply (ascii "1")).error = true := by
  have hrun : decodeBrk2RequestBody (versionBody (ascii "1")) 0 {} = (7, .ok (versionRequest (ascii "1"))) ∧
      (handleRequest {} {} {} ⟨.escaped, 0⟩ (versionRequest (ascii "1"))).2 = .returned (versionReply (ascii "1")) ∧
      encodeBrk2ResponseBody (versionReply (ascii "1")) 7 {} = .ok (versionOut (ascii "1")) := by
    decide +kernel
  have hdec : Wasm.decodeWasmTaskRequest (versionRequest (ascii "1")).payload (wasmLimits {}) = .ok Wasm.smallTask := by
    decide +kernel
  refine ⟨hrun, ?_⟩
  obtain ⟨hbody, hr, hout⟩ := hrun
  refine (reply_texts_utf8_iff {} {} {} ⟨.escaped, 0⟩ {} _ _ 0 7 _ _ hbody hr hout).mpr ?_ _ (response_tlvs hout)
    ⟨6, wtUtf8, 0, _⟩ (by simp [responseFields]) rfl
  refine fun _ _ => ⟨fun _ => ?_, fun h => absurd h (by decide)⟩
  intro req status why hdec' _ _
  cases hdec.symm.trans hdec'
  exact utf8_text (text_of (by decide))

/-- Asked for version 0xff, the service answers with an error text that is not UTF-8. -/
theorem a_refused_task_quotes_its_version :
    decodeBrk2RequestBody (versionBody [0xff]) 0 {} = (7, .ok (versionRequest [0xff])) ∧
      (handleRequest {} {} {} ⟨.escaped, 0⟩ (versionRequest [0xff])).2 = .returned (versionReply [0xff]) ∧
      encodeBrk2ResponseBody (versionReply [0xff]) 7 {} = .ok (versionOut [0xff]) ∧
      ⟨6, wtUtf8, 0, (versionReply [0xff]).error⟩ ∈ responseFields (versionReply [0xff]) ∧
      validUtf8 (versionReply [0xff]).error = false := by
  decide +kernel

end Overhauled.Broker
