/-
  Overhauled.Broker.Answerable — whether the reply to an accepted request fits a frame.

  The session encodes `handle_request`'s response and drops it when the encoder throws,
  so a response that does not fit is never sent. Here the service has neither GPU nor
  NPU and the default limits; the manager holds any records.

  (1) Sizes. A reply either carries no error and at most
      as many bytes as the request's payload did, or an error of at most 1024 bytes and a
      small result (`Reply`). An inner WSM1 reply to a finished task is shorter than the
      request that asked for it.
  (2) BRK1 (`brk1_answerable`): the outer frame has room to spare, so every accepted
      request is answered, and the answer decodes to what was sent.
  (3) BRK2 (`brk2_answerable_iff`): the payload limit bounds the whole TLV region of a
      response, which for an inference task spends up to 15 bytes more around the result
      than the request spent around the payload. `a_full_request_has_no_answer` is a
      request in that gap.
-/

import Overhauled.Broker.Agreement
import Overhauled.Broker.Answers
import Overhauled.Broker.Texts

namespace Overhauled.Broker

open Wire Reader
open Wasm (Computed Manager)

/-! ## (1) The replies of the handlers -/

/-- A service with neither GPU nor NPU, and the default limits. -/
structure CpuOnly (svc : BrokerService) : Prop where
  noGpu : svc.useGpuPlacement = false
  noNpu : npuAvailable svc = false
  limits : svc.config.protocolLimits = {}

/-- No error and a result of at most `n` bytes, or an error that fits and a small result. -/
def Reply (n : Nat) (r : BrokerResponse) : Prop :=
  r.error = [] ∧ r.result.length ≤ n ∨ r.error.length ≤ 1024 ∧ r.result.length ≤ 70000

theorem reply_of_text {n : Nat} {r : BrokerResponse} (hr : r.result = []) (he : r.error.length ≤ 1024) : Reply n r :=
  Or.inr ⟨he, by rw [hr]; exact Nat.zero_le _⟩

theorem reply_mono {n k : Nat} {r : BrokerResponse} (hnk : n ≤ k) (h : Reply n r) : Reply k r := by
  rcases h with ⟨he, hr⟩ | h
  · exact Or.inl ⟨he, hr.trans hnk⟩
  · exact Or.inr h

section
variable {svc : BrokerService} {m m' : Manager} {clock : Clock} {gpu : Placement} {request : BrokerRequest}
  {answer : Computed BrokerResponse}

theorem reply_of_texts {n : Nat} {r : BrokerResponse} {u w : Bytes} (hu : Text u) (hw : Text w) (hr : r.result = [])
    (he : r.error = u ++ w) : Reply n r := by
  refine reply_of_text hr ?_
  have hu : u.length ≤ 256 := hu.1
  have hw : w.length ≤ 256 := hw.1
  rw [he, List.length_append]
  omega

theorem reply_echo {α : Type} {decoded : Except Stop α} {r : BrokerResponse} (h : EchoAnswer request decoded r)
    (htext : ∀ e, decoded = .error e → Text e.text) : Reply request.payload.length r := by
  cases h with
  | undecoded hdec => exact reply_of_text rfl (le_trans (htext _ hdec).1 (by decide))
  | echoed => exact Or.inl ⟨rfl, Nat.le_refl _⟩

/-- The inner reply to a finished task is shorter than the request was. -/
theorem reply_task (hlimits : svc.config.protocolLimits = {}) (h : TaskAnswer svc m clock request m' answer) :
    ∃ r, answer = .returned r ∧ Reply (request.payload.length - 5) r := by
  cases h with
  | undecoded hdec =>
    have htext := says_run (text_taskRequest _) text_nil hdec
    exact ⟨_, rfl, reply_of_texts (text_of (by decide)) htext rfl rfl⟩
  | unencoded _ _ henc => exact ⟨_, rfl, reply_of_texts (text_of (by decide)) (text_encodeTask _ _ _ henc) rfl rfl⟩
  | @answered req _ resp encoded hdec hout henc =>
    rw [hlimits] at hdec henc
    obtain ⟨hfits, -, flags, hframe⟩ := Wasm.decodeWasmTaskRequest_ok.mp hdec
    obtain ⟨hfit, henc⟩ := Wasm.encodeWasmTaskResponse_ok.mp henc
    have hlen := Wasm.length_taskResponseBytes resp
    rw [← henc] at hlen
    refine ⟨_, rfl, ?_⟩
    cases hout with
    | @refused status why _ =>
      have ht : req.taskId.length ≤ 1024 := hfits.taskId.1
      have herr : (Wasm.refusalReply req status why).error.length ≤ 1024 := hfit.error.1
      have hbufs : (Wasm.descriptorsBytes req.bufferDescriptors).length ≤ 2 + 64 * (26 + 1024) :=
        Wasm.length_descriptorsBytes_le hfits.buffers
      have hlen : encoded.length = 30 + req.taskId.length + (Wasm.refusalReply req status why).error.length +
          (Wasm.descriptorsBytes req.bufferDescriptors).length + 0 := hlen
      exact Or.inr ⟨herr, show encoded.length ≤ 70000 by omega⟩
    | ran =>
      have hreq := Wasm.length_taskRequestBytes flags req
      rw [← hframe] at hreq
      have hnamed := hfits.named
      have hpos : ∀ {w : Bytes}, w ≠ [] → 0 < w.length := List.length_pos_of_ne_nil
      have h1 := hpos (fun h => hnamed (Or.inr (Or.inl h)))
      have h2 := hpos (fun h => hnamed (Or.inr (Or.inr (Or.inl h))))
      have h3 := hpos (fun h => hnamed (Or.inr (Or.inr (Or.inr (Or.inl h)))))
      have h4 := hpos (fun h => hnamed (Or.inr (Or.inr (Or.inr (Or.inr h)))))
      simp only [Wasm.ranReply, Wasm.taskReply, List.length_nil, Wasm.length_defaultCompute] at hlen
      exact Or.inl ⟨rfl, show encoded.length ≤ request.payload.length - 5 by omega⟩

theorem reply_lifecycle (hlimits : svc.config.protocolLimits = {}) (hm : m.gpuSelector = none)
    (h : LifecycleAnswer svc m request m' answer) : ∃ r, answer = .returned r ∧ Reply 0 r := by
  cases h with
  | undecoded hdec =>
    have htext := says_run (text_lifecycleRequest _) text_nil hdec
    exact ⟨_, rfl, reply_of_texts (text_of (by decide)) htext rfl rfl⟩
  | threw _ hcall =>
    obtain ⟨_, _, hreplies⟩ := Wasm.handleLifecycle_replies hm (forKind request.kind _)
    rw [hcall] at hreplies
    cases hreplies
  | escaped _ hcall =>
    obtain ⟨_, _, hreplies⟩ := Wasm.handleLifecycle_replies hm (forKind request.kind _)
    rw [hcall] at hreplies
    cases hreplies
  | unencoded _ _ henc =>
    exact ⟨_, rfl, reply_of_texts (text_of (by decide)) (text_encodeLifecycle _ _ _ henc) rfl rfl⟩
  | @answered req _ resp encoded _ _ henc =>
    rw [hlimits] at henc
    obtain ⟨hfit, henc⟩ := Wasm.encodeWasmLifecycleResponse_ok.mp henc
    refine ⟨_, rfl, Or.inr ⟨hfit.error.1, ?_⟩⟩
    have hlen := Wasm.length_lifecycleResponseBytes resp
    rw [← henc] at hlen
    have h1 : resp.requestId.length ≤ 1024 := hfit.requestId.1
    have h2 : resp.sandboxId.length ≤ 1024 := hfit.sandboxId.1
    have h3 : resp.moduleId.length ≤ 1024 := hfit.moduleId.1
    have h4 : resp.moduleVersion.length ≤ 1024 := hfit.moduleVersion.1
    have h5 : resp.leaseToken.length ≤ 1024 := hfit.leaseToken.1
    have h6 : resp.error.length ≤ 1024 := hfit.error.1
    show encoded.length ≤ 70000
    omega

theorem reply_inference (hcpu : CpuOnly svc) :
    ∃ r, handleInferenceRequest svc gpu request = .returned r ∧
      (request.payload.length % 8 ≠ 0 → r.result = [] ∧ r.error.length ≤ 1024) ∧
      (request.payload.length % 8 = 0 → r.error = [] ∧ r.result.length = request.payload.length) := by
  unfold handleInferenceRequest decodePayloadAsDoubles
  have hbackend : selectBackend (backendPolicy svc request) (effectiveProfile request) = .cpu :=
    selectBackend_cpu hcpu.noGpu hcpu.noNpu _
  by_cases h : request.payload.length % 8 = 0
  · simp only [h, ne_eq, not_true_eq_false, if_false, hbackend]
    refine ⟨_, rfl, fun h' => h'.elim, fun _ => ⟨rfl, ?_⟩⟩
    exact Wasm.length_eight_words h _ (fun v => length_be 8 _) _ _
  · simp only [h, ne_eq, not_false_eq_true, if_true]
    have htext : Text (ascii "payload must be a packed array of doubles") := text_of (by decide)
    exact ⟨_, rfl, fun _ => ⟨rfl, htext.1.trans (by decide)⟩, fun h' => h'.elim⟩

/-! ## The whole call -/

/-- The deadline passed, in the simulated latency or by the end of the call. -/
def timedOut (svc : BrokerService) (clock : Clock) (request : BrokerRequest) : Bool :=
  sleptThrough svc clock request ∨ clock.ended ≥ deadline request

/-- How large the answer of the kind's handler is. No reply of a handler of its own outgrows
    the payload, and the shorter the kind's name, the shorter the reply: `wasm.task.v1` is
    three bytes short of 15. -/
structure Sized (request : BrokerRequest) (r : BrokerResponse) : Prop where
  dedicated : dedicatedKind request.kind = true →
    Reply (min request.payload.length (request.payload.length + request.kind.length - 15)) r
  inference : dedicatedKind request.kind = false →
    (request.payload.length % 8 ≠ 0 → r.result = [] ∧ r.error.length ≤ 1024) ∧
    (request.payload.length % 8 = 0 → r.error = [] ∧ r.result.length = request.payload.length)

/-- Nothing but a text once the deadline has passed, and otherwise what the handler answers. -/
def Timely (svc : BrokerService) (clock : Clock) (request : BrokerRequest) (r : BrokerResponse) : Prop :=
  (timedOut svc clock request = true → r.result = [] ∧ r.error.length ≤ 1024) ∧
    (timedOut svc clock request = false → Sized request r)

theorem sized_of_reply {n : Nat} {r : BrokerResponse} (hk : dedicatedKind request.kind = true)
    (hn : n ≤ min request.payload.length (request.payload.length + request.kind.length - 15)) (h : Reply n r) :
    Sized request r := by
  refine ⟨fun _ => reply_mono hn h, fun hk' => ?_⟩
  rw [hk] at hk'
  cases hk'

theorem timely_finish {r : BrokerResponse} (hreach : Reaches svc clock request) (h : Sized request r) :
    Timely svc clock request (finishResponse clock request r) := by
  have htimed : timedOut svc clock request = decide (clock.ended ≥ deadline request) := by
    simp [timedOut, hreach.2]
  rw [Timely, htimed]
  by_cases hlate : clock.ended ≥ deadline request
  · rw [finishResponse_late hlate]
    have htext : Text (ascii "request timed out") := text_of (by decide)
    exact ⟨fun _ => ⟨rfl, htext.1.trans (by decide)⟩, fun h => absurd hlate (of_decide_eq_false h)⟩
  · rw [finishResponse_early hlate]
    exact ⟨fun h => absurd (of_decide_eq_true h) hlate, fun _ => ⟨h.dedicated, h.inference⟩⟩

theorem handled_answers (hcpu : CpuOnly svc) (hm : m.gpuSelector = none)
    (hv : validateRequest request svc.config.protocolLimits = none) (h : Handled svc m clock gpu request m' answer) :
    ∃ r, answer = .returned r ∧ Timely svc clock request r := by
  -- the answer of a handler, finished
  have hfinish : ∀ {o : Computed BrokerResponse}, Reaches svc clock request → (∃ r, o = .returned r ∧ Sized request r) →
      ∃ r, o.map (finishResponse clock request) = .returned r ∧ Timely svc clock request r := by
    rintro o hreach ⟨r, rfl, hr⟩
    exact ⟨_, rfl, timely_finish hreach hr⟩
  cases h with
  | invalid _ herror =>
    rw [hv] at herror
    cases herror
  | slept hreach =>
    have hslept : sleptThrough svc clock request = true := by
      by_contra h
      exact hreach ⟨hv, by simpa using h⟩
    have htimed : timedOut svc clock request = true := by simp [timedOut, hslept]
    refine ⟨_, rfl, fun _ => ?_, fun h => absurd (htimed.symm.trans h) (by decide)⟩
    by_cases hlate : clock.ended ≥ deadline request
    · rw [finishResponse_late hlate]
      have htext : Text (ascii "request timed out") := text_of (by decide)
      exact ⟨rfl, htext.1.trans (by decide)⟩
    · rw [finishResponse_early hlate]
      exact ⟨rfl, Nat.zero_le _⟩
  | geospatial hreach hkind =>
    have hlen : request.kind.length = 19 := by rw [hkind]; decide
    have hreply := reply_echo (geospatial_answer svc request) fun e hdec => says_run (text_nxr1 _ _) text_nil hdec
    exact hfinish hreach ⟨_, rfl, sized_of_reply (by rw [hkind]; decide) (by omega) hreply⟩
  | media hreach hkind =>
    have hlen : request.kind.length = 15 := by rw [hkind]; decide
    have hreply := reply_echo (media_answer svc request) fun e hdec => says_run (text_media _ _) text_nil hdec
    exact hfinish hreach ⟨_, rfl, sized_of_reply (by rw [hkind]; decide) (by omega) hreply⟩
  | task hreach hkind =>
    have hlen : request.kind.length = 12 := by rw [hkind]; decide
    obtain ⟨r, hr, hreply⟩ := reply_task hcpu.limits (task_answer svc m clock request)
    exact hfinish hreach ⟨r, hr, sized_of_reply (by rw [hkind]; decide) (by omega) hreply⟩
  | lifecycle hreach hkind =>
    obtain ⟨r, hr, hreply⟩ := reply_lifecycle hcpu.limits hm (lifecycle_answer svc m request)
    exact hfinish hreach ⟨r, hr, sized_of_reply (lifecycle_dedicated hkind).2 (Nat.zero_le _) hreply⟩
  | inference hreach hkind =>
    obtain ⟨r, hr, hsizes⟩ := @reply_inference svc gpu request hcpu
    refine hfinish hreach ⟨r, hr, fun h => ?_, fun _ => hsizes⟩
    rw [hkind] at h
    cases h

variable (clock gpu request) in
/-- What a CPU-only service answers to a valid request. -/
theorem handleRequest_answers (hcpu : CpuOnly svc) (hm : m.gpuSelector = none)
    (hv : validateRequest request {} = none) :
    ∃ m' r, handleRequest svc m clock gpu request = (m', .returned r) ∧ r.taskId = request.taskId ∧
      Timely svc clock request r := by
  obtain ⟨r, hr, htimely⟩ := handled_answers hcpu hm (by rw [hcpu.limits]; exact hv)
    (handleRequest_handled svc m clock gpu request)
  exact ⟨_, r, Prod.ext rfl hr, carries_handleRequest svc m clock gpu request r hr, htimely⟩

end

/-! ## The plain request's reply -/

theorem plain_kind (n : Nat) : dedicatedKind (plainRequest n).kind = false := by
  show dedicatedKind (ascii "k") = false
  decide

theorem plain_intime (n : Nat) : timedOut {} {} (plainRequest n) = false := rfl

theorem cpuOnly_default : CpuOnly {} := ⟨rfl, rfl, rfl⟩

/-! ## (2) BRK1 -/

theorem reply_fits {n : Nat} {r : BrokerResponse} (hn : n ≤ 524288) (h : Reply n r) :
    r.result.length ≤ 524288 ∧ r.error.length ≤ 1024 := by
  rcases h with ⟨he, hr⟩ | ⟨he, hr⟩
  · exact ⟨hr.trans hn, by rw [he]; exact Nat.zero_le _⟩
  · exact ⟨by omega, he⟩

/-- Whatever the kind and whatever the clock says, the reply's two texts are within the limits. -/
theorem handleRequest_fits {svc : BrokerService} {m : Manager} (clock : Clock) (gpu : Placement)
    {request : BrokerRequest} (hcpu : CpuOnly svc) (hm : m.gpuSelector = none)
    (hv : validateRequest request {} = none) (hp : request.payload.length ≤ 524288) :
    ∃ m' r, handleRequest svc m clock gpu request = (m', .returned r) ∧ r.taskId = request.taskId ∧
      r.result.length ≤ 524288 ∧ r.error.length ≤ 1024 := by
  obtain ⟨m', r, he, ht, hlate, hearly⟩ := handleRequest_answers clock gpu request hcpu hm hv
  refine ⟨m', r, he, ht, ?_⟩
  have htext : r.result = [] ∧ r.error.length ≤ 1024 → r.result.length ≤ 524288 ∧ r.error.length ≤ 1024 :=
    fun h => ⟨by rw [h.1]; exact Nat.zero_le _, h.2⟩
  cases hout : timedOut svc clock request with
  | true => exact htext (hlate hout)
  | false =>
    obtain ⟨hded, hinf⟩ := hearly hout
    cases hk : dedicatedKind request.kind with
    | true => exact reply_fits (by omega) (hded hk)
    | false =>
      by_cases h8 : request.payload.length % 8 = 0
      · obtain ⟨herr, hres⟩ := (hinf hk).2 h8
        exact ⟨by omega, by rw [herr]; exact Nat.zero_le _⟩
      · exact htext ((hinf hk).1 h8)

/-- Every request frame the decoder accepts is answered: the response is encoded, carries the
    request's task id, and decodes to what the service answered. -/
theorem brk1_answerable (svc : BrokerService) (m : Manager) (clock : Clock) (gpu : Placement) (frame : Bytes)
    (request : BrokerRequest) (hcpu : CpuOnly svc) (hm : m.gpuSelector = none)
    (hframe : decodeRequestFrame frame {} = .ok request) :
    ∃ m' response out decoded,
      handleRequest svc m clock gpu request = (m', .returned response) ∧
      encodeResponseFrame response {} = .ok out ∧
      decodeResponseFrame out {} = .ok decoded ∧
      decoded.taskId = response.taskId ∧ decoded.status = response.status ∧
      decoded.selectedGpu = response.selectedGpu ∧ decoded.latencyMs = response.latencyMs ∧
      decoded.result = response.result ∧ decoded.error = response.error ∧
      response.taskId = request.taskId := by
  obtain ⟨hfits, -⟩ := decodeRequestFrame_ok.mp hframe
  obtain ⟨m', r, he, ht, hres, herr⟩ := handleRequest_fits clock gpu hcpu hm hfits.valid hfits.payload.1
  have hid : r.taskId.length ≤ 1024 := by
    rw [ht]
    exact hfits.taskId.1
  have hsize : ResponseFits {} r := by
    refine ⟨⟨hid, by omega⟩, ⟨hres, by omega⟩, ⟨herr, by omega⟩, ?_⟩
    rw [length_responseBytes]
    show _ ≤ 1024 * 1024
    omega
  have hout := encodeResponseFrame_ok.mpr ⟨hsize, rfl⟩
  exact ⟨m', r, _, wireResponse r, he, hout, decode_encodeResponse hout, rfl, rfl, rfl, rfl, rfl, rfl, ht⟩

theorem brk1_answerable_plain :
    ∃ m' response out decoded,
      handleRequest {} {} {} ⟨.escaped, 0⟩ (plainRequest 8) = (m', .returned response) ∧
      encodeResponseFrame response {} = .ok out ∧
      decodeResponseFrame out {} = .ok decoded ∧
      decoded.taskId = response.taskId ∧ decoded.status = response.status ∧
      decoded.selectedGpu = response.selectedGpu ∧ decoded.latencyMs = response.latencyMs ∧
      decoded.result = response.result ∧ decoded.error = response.error ∧
      response.taskId = ascii "t" :=
  brk1_answerable {} {} {} ⟨.escaped, 0⟩ (requestBytes (plainRequest 8)) (plainRequest 8) cpuOnly_default rfl
    (by decide +kernel)

/-! ## (3) BRK2 -/

theorem brk2_encodes_iff {r : BrokerResponse} (requestId : UInt64) (ht : r.taskId.length ≤ 1024)
    (he : r.error.length ≤ 1024) :
    (∃ out, encodeBrk2ResponseBody r requestId {} = .ok out) ↔
      76 + r.taskId.length + r.result.length + r.error.length ≤ 524288 := by
  refine ⟨?_, ?_⟩
  · intro h
    obtain ⟨out, h⟩ := h
    have hregion := (encodeBrk2ResponseBody_ok.mp h).1.region
    rwa [length_responseFields] at hregion
  · intro h
    refine ⟨_, encodeBrk2ResponseBody_ok.mpr ⟨⟨?_, ⟨ht, he⟩, ?_, ?_, ?_⟩, rfl⟩⟩
    · show r.result.length ≤ 512 * 1024
      omega
    · omega
    · rw [length_responseFields]
      exact h
    · rw [length_responseFields]
      show _ ≤ 1024 * 1024
      omega

/-- The reply to an accepted body is encoded exactly when the kind has a handler of its own,
    the deadline has passed, the payload is no array of doubles, or the payload leaves the
    response's fields the 76 bytes they take. -/
theorem brk2_answerable_iff (svc : BrokerService) (m : Manager) (clock : Clock) (gpu : Placement) (body : Bytes)
    (requestId0 requestId : UInt64) (request : BrokerRequest) (hcpu : CpuOnly svc) (hm : m.gpuSelector = none)
    (hbody : decodeBrk2RequestBody body requestId0 {} = (requestId, .ok request)) :
    (∃ m' response out, handleRequest svc m clock gpu request = (m', .returned response) ∧
        encodeBrk2ResponseBody response requestId {} = .ok out) ↔
      dedicatedKind request.kind = true ∨ timedOut svc clock request = true ∨ request.payload.length % 8 ≠ 0 ∨
        76 + request.taskId.length + request.payload.length ≤ 524288 := by
  obtain ⟨minor, fs, hreq⟩ := decoded_is_request hbody
  have hlen := required_fields_length hreq.fields
  have hregion : (serialise fs).length ≤ 524288 := hreq.payload.1
  have hid : request.taskId.length ≤ 1024 := hreq.fields.taskId.2.2.2
  have hsource := List.length_pos_of_ne_nil hreq.fields.source.2.1
  have hdest := List.length_pos_of_ne_nil hreq.fields.destination.2.1
  have hv := validateRequest_of_fields hreq.fields (show request.payload.length ≤ 512 * 1024 by omega)
  obtain ⟨m', r, he, ht, hlate, hearly⟩ := handleRequest_answers clock gpu request hcpu hm hv
  -- the reply is one value, so what is asked is whether this one fits
  have hone : (∃ m' response out, handleRequest svc m clock gpu request = (m', .returned response) ∧
      encodeBrk2ResponseBody response requestId {} = .ok out) ↔
      ∃ out, encodeBrk2ResponseBody r requestId {} = .ok out := by
    rw [he]
    refine ⟨?_, fun ⟨out, h⟩ => ⟨m', r, out, rfl, h⟩⟩
    intro h
    obtain ⟨_, _, out, heq, h⟩ := h
    cases heq
    exact ⟨out, h⟩
  have hfit : r.error.length ≤ 1024 → ((∃ out, encodeBrk2ResponseBody r requestId {} = .ok out) ↔
      76 + request.taskId.length + r.result.length + r.error.length ≤ 524288) := by
    intro herr
    rw [brk2_encodes_iff requestId (by rw [ht]; exact hid) herr, ht]
  have htext : r.result = [] ∧ r.error.length ≤ 1024 → ∃ out, encodeBrk2ResponseBody r requestId {} = .ok out := by
    intro h
    obtain ⟨hres, herr⟩ := h
    rw [hfit herr, hres, List.length_nil]
    omega
  rw [hone]
  cases hout : timedOut svc clock request with
  | true => exact iff_of_true (htext (hlate hout)) (by simp)
  | false =>
    obtain ⟨hded, hinf⟩ := hearly hout
    cases hk : dedicatedKind request.kind with
    | true =>
      refine iff_of_true ?_ (by simp)
      rcases hded hk with ⟨herr, hres⟩ | ⟨herr, hres⟩
      · rw [hfit (by rw [herr]; exact Nat.zero_le _), herr, List.length_nil]
        omega
      · rw [hfit herr]
        omega
    | false =>
      by_cases h8 : request.payload.length % 8 = 0
      · obtain ⟨herr, hres⟩ := (hinf hk).2 h8
        rw [hfit (by rw [herr]; exact Nat.zero_le _), herr, hres]
        simp [h8]
      · exact iff_of_true (htext ((hinf hk).1 h8)) (by simp [h8])

/-- The smallest inference request is answered, one of the largest is not. -/
theorem brk2_answerable_iff_plain :
    (∃ m' response out, handleRequest {} {} {} ⟨.escaped, 0⟩ (plainRequest 8) = (m', .returned response) ∧
      encodeBrk2ResponseBody response 7 {} = .ok out) ∧
    ¬ ∃ m' response out, handleRequest {} {} {} ⟨.escaped, 0⟩ (plainRequest 524216) = (m', .returned response) ∧
      encodeBrk2ResponseBody response 7 {} = .ok out := by
  refine ⟨?_, ?_⟩
  · refine (brk2_answerable_iff {} {} {} ⟨.escaped, 0⟩ (plainBody 8) 0 7 (plainRequest 8) cpuOnly_default rfl
      (plainBody_decodes (by decide) 0)).mpr (Or.inr (Or.inr (Or.inr ?_)))
    rw [length_plainPayload]
    decide
  · rw [brk2_answerable_iff {} {} {} ⟨.escaped, 0⟩ (plainBody 524216) 0 7 (plainRequest 524216) cpuOnly_default rfl
      (plainBody_decodes (by decide) 0), length_plainPayload]
    rw [plain_kind, plain_intime]
    decide

/-- 524216 zero bytes are accepted, doubled, and the 524216 bytes of the result find no room. -/
theorem a_full_request_has_no_answer :
    decodeBrk2RequestBody (plainBody 524216) 0 {} = (7, .ok (plainRequest 524216)) ∧
      ∃ m' response, handleRequest {} {} {} ⟨.escaped, 0⟩ (plainRequest 524216) = (m', .returned response) ∧
        ∀ out, encodeBrk2ResponseBody response 7 {} ≠ .ok out := by
  have hdecodes := plainBody_decodes (n := 524216) (by decide) 0
  have hv := validateRequest_of_fields (plain_fields 524216) (by rw [length_plainPayload]; decide)
  obtain ⟨m', r, he, ht, -, hearly⟩ :=
    @handleRequest_answers {} {} {} ⟨.escaped, 0⟩ (plainRequest 524216) cpuOnly_default rfl hv
  obtain ⟨-, hres⟩ := ((hearly (plain_intime _)).2 (plain_kind _)).2 (by rw [length_plainPayload])
  rw [length_plainPayload] at hres
  refine ⟨hdecodes, m', r, he, fun out hout => ?_⟩
  have hregion : (serialise (responseFields r)).length ≤ 512 * 1024 := (encodeBrk2ResponseBody_ok.mp hout).1.region
  rw [length_responseFields, hres] at hregion
  omega

end Overhauled.Broker
