/-
  Overhauled.Broker.Agreement — a request BRK2 accepts is one BRK1 can carry.

  The two decoders check their limits apart: BRK2 bounds the body and the whole TLV
  region, BRK1 each field and the frame. A TLV spends 8 bytes on what BRK1 spends 2 or 4
  on, and the BRK2 header 32 on what BRK1 spends 8 on, so within one set of limits the
  BRK1 frame of an accepted request always fits (`brk2_agrees_with_brk1`). Only a string
  limit above 65535 would let a string through that a BRK1 length cannot count.
-/

import Overhauled.Broker.Brk2Grammar

namespace Overhauled.Broker

open Wire

theorem length_requestBytes (r : BrokerRequest) :
    (requestBytes r).length = 25 + r.taskId.length + r.source.length + r.destination.length + r.kind.length +
      r.payload.length := by
  simp only [requestBytes, appendCommonHeader, List.length_append, length_be, length_pre, List.length_singleton,
    List.length_nil]
  omega

theorem validateRequest_of_fields {limits : ProtocolLimits} {fs : List FieldView} {request : BrokerRequest}
    (h : RequestFields limits fs request) (hp : request.payload.length ≤ limits.maxPayloadBytes) :
    validateRequest request limits = none := by
  obtain ⟨hlow, hhigh⟩ := h.timeoutRange
  have hzero : ¬ request.timeoutMs = 0 := by
    intro h0
    rw [h0] at hlow
    exact absurd hlow (by decide)
  have hmax : ¬ request.timeoutMs.toNat > brokerMaxTimeoutMs := Nat.not_lt.mpr hhigh
  have hpay : ¬ request.payload.length > limits.maxPayloadBytes := Nat.not_lt.mpr hp
  have hnames : ¬ (request.source = [] ∨ request.destination = [] ∨ request.kind = []) := by
    intro hnil
    rcases hnil with h1 | h2 | h3
    · exact h.source.2.1 h1
    · exact h.destination.2.1 h2
    · exact h.kind.2.1 h3
  unfold validateRequest
  rw [if_neg h.taskId.2.1, if_neg hnames, if_neg hzero, if_neg hmax, if_neg hpay]

/-- The fields of a BRK2 request fit a BRK1 frame, given a string limit that a 16-bit length
    can count. -/
theorem requestFits_of_isRequest {limits : ProtocolLimits} (hs : limits.maxStringBytes ≤ 65535) {body : Bytes}
    {minor : UInt8} {requestId : UInt64} {fs : List FieldView} {request : BrokerRequest}
    (h : IsRequest limits body minor requestId fs request) : RequestFits limits request := by
  have hlen := required_fields_length h.fields
  have hregion := h.payload
  have hbody := congrArg List.length h.shape
  rw [List.length_append, length_requestHeader] at hbody
  have hsize := h.size.2
  have hstring : ∀ {id v}, HasString limits fs id v → StringFits limits v := by
    intro id v hv
    have hv := hv.2.2.2
    exact ⟨hv, by omega⟩
  exact
    { taskId := hstring h.fields.taskId
      source := hstring h.fields.source
      destination := hstring h.fields.destination
      kind := hstring h.fields.kind
      payload := ⟨by omega, by omega⟩
      valid := validateRequest_of_fields h.fields (by omega)
      frame := by rw [length_requestBytes]; omega }

/-! ## A request of any size -/

/-- A request with one-byte names and `n` zero bytes of payload. -/
def plainRequest (n : Nat) : BrokerRequest :=
  { taskId := ascii "t", source := ascii "a", destination := ascii "b", kind := ascii "k", timeoutMs := 1000
    payload := List.replicate n 0 }

def plainFields (n : Nat) : List FieldView :=
  [⟨1, wtUtf8, 0, ascii "t"⟩, ⟨2, wtUtf8, 0, ascii "a"⟩, ⟨3, wtUtf8, 0, ascii "b"⟩, ⟨4, wtUtf8, 0, ascii "k"⟩,
    ⟨5, wtU8, 0, [0]⟩, ⟨6, wtU32, 0, be 4 1000⟩, ⟨7, wtBytes, 0, List.replicate n 0⟩]

def plainBody (n : Nat) : Bytes :=
  requestHeader 0 7 (serialise (plainFields n)).length ++ serialise (plainFields n)

theorem length_plainFields (n : Nat) : (serialise (plainFields n)).length = 65 + n := by
  simp only [plainFields, serialise, List.flatMap_cons, List.flatMap_nil, List.length_append, length_tlvBytes,
    List.length_nil, List.length_singleton, length_be, List.length_replicate]
  have hone : (ascii "t").length = 1 ∧ (ascii "a").length = 1 ∧ (ascii "b").length = 1 ∧ (ascii "k").length = 1 := by
    decide
  omega

theorem plain_shapes {n : Nat} {f : FieldView} (hf : f ∈ plainFields n) :
    f.flags = 0 ∧ f.id ≤ 7 ∧ 1 ≤ f.type ∧ f.type ≤ 12 := by
  simp only [plainFields, List.mem_cons, List.not_mem_nil, or_false] at hf
  rcases hf with rfl | rfl | rfl | rfl | rfl | rfl | rfl
  all_goals
    refine ⟨rfl, ?_⟩
    dsimp only
    decide

theorem plain_fields (n : Nat) : RequestFields {} (plainFields n) (plainRequest n) := by
  have hnames : ∀ w ∈ [ascii "t", ascii "a", ascii "b", ascii "k"], w ≠ [] ∧ Utf8 w ∧ w.length ≤ 1024 := by
    simp only [← validUtf8_iff]
    decide
  have hhas : ∀ f ∈ plainFields n, Has (plainFields n) f.id f.type f.value := fun f hf => ⟨f, hf, rfl, rfl, rfl⟩
  have habove : ∀ id : UInt16, ¬ id ≤ 7 → ∀ f ∈ plainFields n, f.id ≠ id := by
    intro id hid f hf h
    exact hid (h ▸ (plain_shapes hf).2.1)
  refine
    { distinct := ?_
      wire := ?_
      critical := ?_
      taskId := ⟨hhas ⟨1, wtUtf8, 0, ascii "t"⟩ (by simp [plainFields]), hnames (ascii "t") (by simp)⟩
      source := ⟨hhas ⟨2, wtUtf8, 0, ascii "a"⟩ (by simp [plainFields]), hnames (ascii "a") (by simp)⟩
      destination := ⟨hhas ⟨3, wtUtf8, 0, ascii "b"⟩ (by simp [plainFields]), hnames (ascii "b") (by simp)⟩
      kind := ⟨hhas ⟨4, wtUtf8, 0, ascii "k"⟩ (by simp [plainFields]), hnames (ascii "k") (by simp)⟩
      priority := hhas ⟨5, wtU8, 0, [0]⟩ (by simp [plainFields])
      timeout := hhas ⟨6, wtU32, 0, be 4 1000⟩ (by simp [plainFields])
      timeoutRange := ⟨show 1 ≤ (1000 : UInt32).toNat by decide, show (1000 : UInt32).toNat ≤ 300000 by decide⟩
      payload := hhas ⟨7, wtBytes, 0, List.replicate n 0⟩ (by simp [plainFields])
      idempotencyKey := fun f hf h => absurd h (habove 8 (by decide) f hf)
      deadline := fun f hf h => absurd h (habove 9 (by decide) f hf)
      device := Or.inl ⟨habove 10 (by decide), rfl⟩
      profile := rfl }
  · simp only [plainFields, List.map_cons, List.map_nil]
    decide
  · intro f hf
    obtain ⟨hflags, -, htype⟩ := plain_shapes hf
    exact ⟨by rw [hflags]; decide, htype⟩
  · intro f hf h
    rw [(plain_shapes hf).1] at h
    exact absurd h (by decide)

theorem plainBody_decodes {n : Nat} (h : n ≤ 524223) (requestId0 : UInt64) :
    decodeBrk2RequestBody (plainBody n) requestId0 {} = (7, .ok (plainRequest n)) := by
  have hlen := length_plainFields n
  have hbody : (plainBody n).length = 97 + n := by
    rw [plainBody, List.length_append, length_requestHeader, hlen]
    omega
  have hframe : (plainBody n).length ≤ 1024 * 1024 := by omega
  have hregion : (serialise (plainFields n)).length ≤ 512 * 1024 := by omega
  have h32 : 32 ≤ (plainBody n).length := by omega
  exact request_is_decoded ⟨⟨h32, hframe⟩, rfl, ⟨hregion, by omega⟩, plain_fields n⟩ requestId0

theorem length_plainPayload (n : Nat) : (plainRequest n).payload.length = n := List.length_replicate ..

/-! ## The agreement -/

/-- What BRK2 accepts is valid, and BRK1 carries it unchanged under the same limits. -/
theorem brk2_agrees_with_brk1 (limits : ProtocolLimits) (hs : limits.maxStringBytes ≤ 65535) (body : Bytes)
    (requestId0 requestId : UInt64) (request : BrokerRequest)
    (hbody : decodeBrk2RequestBody body requestId0 limits = (requestId, .ok request)) :
    validateRequest request limits = none ∧
      ∃ frame, encodeRequestFrame request limits = .ok frame ∧
        decodeRequestFrame frame limits = .ok (wireRequest request) := by
  obtain ⟨minor, fs, hreq⟩ := decoded_is_request hbody
  have hfits := requestFits_of_isRequest hs hreq
  have henc : encodeRequestFrame request limits = .ok (requestBytes request) := encodeRequestFrame_ok.mpr ⟨hfits, rfl⟩
  exact ⟨hfits.valid, _, henc, decode_encodeRequest henc⟩

theorem brk2_agrees_with_brk1_plain :
    decodeBrk2RequestBody (plainBody 524223) 0 {} = (7, .ok (plainRequest 524223)) ∧
      validateRequest (plainRequest 524223) {} = none ∧
      ∃ frame, encodeRequestFrame (plainRequest 524223) {} = .ok frame ∧
        decodeRequestFrame frame {} = .ok (wireRequest (plainRequest 524223)) :=
  have hbody := plainBody_decodes (Nat.le_refl 524223) 0
  ⟨hbody, brk2_agrees_with_brk1 {} (by decide) _ 0 7 _ hbody⟩

end Overhauled.Broker
