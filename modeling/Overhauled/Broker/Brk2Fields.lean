/-
  Overhauled.Broker.Brk2Fields — the TLVs of a BRK2 body, apart from their order and from
  what a peer does not know (`docs/BRK2_CONFORMANCE_V1.md`).

  (1) Requests (`field_order_and_extension`). The decoder collects the fields one by one,
  looks each new one up among those before it, and then makes several passes over the
  list. The grammar it accepts does not mention the order, so a permutation of the TLVs
  under the same header is the same request. A TLV of an unknown id changes nothing but
  the lengths, unless it is marked critical: then the body is refused.

  (2) Responses (`response_faithful_iff`). Nothing in the repository decodes a BRK2
  response; the TLV loop of the request side reads one back field by field. `put_field`
  refuses a value that 32 bits cannot count, `envelope` casts the length of all the TLVs
  without a check, so the header is right exactly while that length fits
  (`a_huge_response_wraps_its_payload_length`).
-/

import Overhauled.Broker.Brk2Grammar

namespace Overhauled.Broker

open Wire Reader

/-! ## (1) Requests -/

section
variable {limits : ProtocolLimits} {fs gs : List FieldView} {request : BrokerRequest}

theorem Has.perm {id : UInt16} {type : UInt8} {value : Bytes} (hp : fs.Perm gs) (h : Has fs id type value) :
    Has gs id type value := by
  obtain ⟨f, hf, hfield⟩ := h
  exact ⟨f, hp.mem_iff.mp hf, hfield⟩

theorem HasString.perm {id : UInt16} {value : Bytes} (hp : fs.Perm gs) (h : HasString limits fs id value) :
    HasString limits gs id value := ⟨h.1.perm hp, h.2⟩

theorem RequestFields.perm (hp : fs.Perm gs) (h : RequestFields limits fs request) : RequestFields limits gs request where
  distinct := (hp.map _).nodup_iff.mp h.distinct
  wire f hf := h.wire f (hp.mem_iff.mpr hf)
  critical f hf := h.critical f (hp.mem_iff.mpr hf)
  taskId := h.taskId.perm hp
  source := h.source.perm hp
  destination := h.destination.perm hp
  kind := h.kind.perm hp
  priority := h.priority.perm hp
  timeout := h.timeout.perm hp
  timeoutRange := h.timeoutRange
  payload := h.payload.perm hp
  idempotencyKey f hf := h.idempotencyKey f (hp.mem_iff.mpr hf)
  deadline f hf := h.deadline f (hp.mem_iff.mpr hf)
  device := by
    rcases h.device with ⟨hnone, hempty⟩ | ⟨hsome, hknown⟩
    · exact Or.inl ⟨fun f hf => hnone f (hp.mem_iff.mpr hf), hempty⟩
    · exact Or.inr ⟨hsome.perm hp, hknown⟩
  profile := h.profile

theorem Has.cons {id : UInt16} {type : UInt8} {value : Bytes} (f : FieldView) (h : Has fs id type value) :
    Has (f :: fs) id type value := by
  obtain ⟨g, hg, hfield⟩ := h
  exact ⟨g, List.mem_cons_of_mem f hg, hfield⟩

/-- An id the request schema does not know. -/
def Unknown (f : FieldView) : Prop := ¬ (1 ≤ f.id ∧ f.id ≤ 10)

theorem Unknown.ne {f : FieldView} (h : Unknown f) {id : UInt16} (hid : 1 ≤ id ∧ id ≤ 10) : f.id ≠ id := by
  intro he
  rw [Unknown, he] at h
  exact h hid

/-- What holds of every field of one id still holds behind a field of an unknown one. -/
theorem forall_cons_unknown {f : FieldView} (hf : Unknown f) {id : UInt16} (hid : 1 ≤ id ∧ id ≤ 10)
    {P : FieldView → Prop} (h : ∀ g ∈ fs, g.id = id → P g) : ∀ g ∈ f :: fs, g.id = id → P g := by
  intro g hg he
  rcases List.mem_cons.mp hg with rfl | hg
  · exact absurd he (hf.ne hid)
  · exact h g hg he

theorem RequestFields.cons_unknown {f : FieldView} (hf : Unknown f) (hnew : ∀ g ∈ fs, g.id ≠ f.id) (hok : TlvOk f)
    (hflags : f.flags = 0 ∨ f.flags = 2) (h : RequestFields limits fs request) :
    RequestFields limits (f :: fs) request where
  distinct := by
    rw [List.map_cons, List.nodup_cons]
    refine ⟨?_, h.distinct⟩
    intro hmem
    obtain ⟨g, hg, he⟩ := List.mem_map.mp hmem
    exact hnew g hg he
  wire := List.forall_mem_cons.mpr ⟨hok, h.wire⟩
  critical := by
    refine List.forall_mem_cons.mpr ⟨?_, h.critical⟩
    intro hc
    rcases hflags with h0 | h2
    · rw [h0] at hc
      exact absurd hc (by decide)
    · rw [h2] at hc
      exact absurd hc (by decide)
  taskId := ⟨h.taskId.1.cons f, h.taskId.2⟩
  source := ⟨h.source.1.cons f, h.source.2⟩
  destination := ⟨h.destination.1.cons f, h.destination.2⟩
  kind := ⟨h.kind.1.cons f, h.kind.2⟩
  priority := h.priority.cons f
  timeout := h.timeout.cons f
  timeoutRange := h.timeoutRange
  payload := h.payload.cons f
  idempotencyKey := forall_cons_unknown hf (by decide) h.idempotencyKey
  deadline := forall_cons_unknown hf (by decide) h.deadline
  device := by
    rcases h.device with ⟨hnone, hempty⟩ | ⟨hsome, hknown⟩
    · exact Or.inl ⟨List.forall_mem_cons.mpr ⟨hf.ne (by decide), hnone⟩, hempty⟩
    · exact Or.inr ⟨hsome.cons f, hknown⟩
  profile := h.profile

/-- A field inserted anywhere is one put in front, up to the order. -/
theorem RequestFields.insert_unknown {f : FieldView} (hf : Unknown f) (hnew : ∀ g ∈ fs ++ gs, g.id ≠ f.id) (hok : TlvOk f)
    (hflags : f.flags = 0 ∨ f.flags = 2) (h : RequestFields limits (fs ++ gs) request) :
    RequestFields limits (fs ++ f :: gs) request :=
  (h.cons_unknown hf hnew hok hflags).perm List.perm_middle.symm

theorem length_serialise_perm (hp : fs.Perm gs) : (serialise fs).length = (serialise gs).length :=
  (hp.flatMap_right tlvBytes).length_eq

/-- What is accepted of a header and a TLV list, which are given apart. -/
theorem decode_split {header : Bytes} (hh : header.length = 32) {requestId0 requestId : UInt64} :
    decodeBrk2RequestBody (header ++ serialise fs) requestId0 limits = (requestId, .ok request) ↔
      (∃ minor, header = requestHeader minor requestId (serialise fs).length) ∧
        32 + (serialise fs).length ≤ limits.maxFrameBytes ∧ (serialise fs).length ≤ limits.maxPayloadBytes ∧
        (serialise fs).length < 256 ^ 4 ∧ RequestFields limits fs request := by
  have hlen : (header ++ serialise fs).length = 32 + (serialise fs).length := by rw [List.length_append, hh]
  refine ⟨?_, ?_⟩
  · intro h
    obtain ⟨minor, tlvs, hreq⟩ := decoded_is_request h
    have hsplit : header = requestHeader minor requestId (serialise tlvs).length ∧ serialise fs = serialise tlvs :=
      List.append_inj hreq.shape (hh.trans (length_requestHeader _ _ _).symm)
    have hpayload := hreq.payload
    have hsize := hreq.size.2
    rw [← hsplit.2] at hpayload
    -- the region is shorter than 2^32, and so is every value in it
    have hshort : ∀ {l : List FieldView}, serialise l = serialise fs → ∀ f ∈ l, f.value.length < 256 ^ 4 := by
      intro l hl f hf
      have hle := length_value_le hf
      rw [hl] at hle
      omega
    have heq : fs = tlvs := serialise_inj (hshort rfl) (hshort hsplit.2.symm) hsplit.2
    subst heq
    exact ⟨⟨minor, hsplit.1⟩, by omega, hpayload.1, hpayload.2, hreq.fields⟩
  · intro h
    obtain ⟨⟨minor, hheader⟩, hframe, hpayload, hwide, hfields⟩ := h
    subst hheader
    exact request_is_decoded ⟨⟨by omega, by omega⟩, rfl, ⟨hpayload, hwide⟩, hfields⟩ requestId0

theorem decode_perm {header : Bytes} (hh : header.length = 32) {requestId0 requestId : UInt64} (hp : fs.Perm gs)
    (h : decodeBrk2RequestBody (header ++ serialise fs) requestId0 limits = (requestId, .ok request)) :
    decodeBrk2RequestBody (header ++ serialise gs) requestId0 limits = (requestId, .ok request) := by
  rw [decode_split hh] at h ⊢
  rw [← length_serialise_perm hp]
  exact ⟨h.1, h.2.1, h.2.2.1, h.2.2.2.1, h.2.2.2.2.perm hp⟩

/-- A header with another payload length. -/
def withPayloadLen (header : Bytes) (n : Nat) : Bytes := header.take 28 ++ be 4 n

theorem length_withPayloadLen {header : Bytes} (hh : header.length = 32) (n : Nat) :
    (withPayloadLen header n).length = 32 := by
  rw [withPayloadLen, List.length_append, List.length_take, length_be, hh]
  rfl

theorem withPayloadLen_requestHeader (minor : UInt8) (requestId : UInt64) (n n' : Nat) :
    withPayloadLen (requestHeader minor requestId n) n' = requestHeader minor requestId n' := by
  unfold withPayloadLen requestHeader
  rw [List.take_left' (by simp)]

end

/-- The body with `f` put between the TLVs `fs` and `gs`, and the payload length brought up to date. -/
def extended (header : Bytes) (fs gs : List FieldView) (f : FieldView) : Bytes :=
  withPayloadLen header (serialise (fs ++ f :: gs)).length ++ serialise (fs ++ f :: gs)

/-- The sizes a body with these TLVs is held to: the two limits, and what the payload length can count. -/
def SizesHold (limits : ProtocolLimits) (fs : List FieldView) : Prop :=
  32 + (serialise fs).length ≤ limits.maxFrameBytes ∧ (serialise fs).length ≤ limits.maxPayloadBytes ∧
    (serialise fs).length < 2 ^ 32

/-- The order of the TLVs does not matter; and what is accepted is a header and TLVs, between
    any two of which an unknown optional TLV changes nothing, while a critical one is refused. -/
theorem field_order_and_extension (limits : ProtocolLimits) (requestId0 : UInt64) :
    (∀ (header : Bytes) (fs gs : List FieldView), header.length = 32 → fs.Perm gs → ∀ requestId request,
      decodeBrk2RequestBody (header ++ serialise fs) requestId0 limits = (requestId, .ok request) ↔
        decodeBrk2RequestBody (header ++ serialise gs) requestId0 limits = (requestId, .ok request)) ∧
    ∀ (body : Bytes) (requestId : UInt64) (request : BrokerRequest),
      decodeBrk2RequestBody body requestId0 limits = (requestId, .ok request) →
      (∃ header fs, header.length = 32 ∧ body = header ++ serialise fs) ∧
      ∀ (header : Bytes) (fs gs : List FieldView) (f : FieldView),
        header.length = 32 → body = header ++ serialise (fs ++ gs) →
        ¬ (1 ≤ f.id ∧ f.id ≤ 10) → (∀ g ∈ fs ++ gs, g.id ≠ f.id) → 1 ≤ f.type → f.type ≤ 12 →
        (f.flags = 0 ∨ f.flags = 2 → SizesHold limits (fs ++ f :: gs) →
          decodeBrk2RequestBody (extended header fs gs f) requestId0 limits = (requestId, .ok request)) ∧
        (f.flags = 1 ∨ f.flags = 3 → ∀ requestId' request',
          decodeBrk2RequestBody (extended header fs gs f) requestId0 limits ≠ (requestId', .ok request')) := by
  refine ⟨?_, ?_⟩
  · intro header fs gs hh hp requestId request
    exact ⟨decode_perm hh hp, decode_perm hh hp.symm⟩
  · intro body requestId request hbody
    refine ⟨?_, ?_⟩
    · obtain ⟨minor, fs, hreq⟩ := decoded_is_request hbody
      exact ⟨_, fs, length_requestHeader minor requestId _, hreq.shape⟩
    intro header fs gs f hh hsplit hunknown hnew htype htype'
    have hlen := length_withPayloadLen hh (serialise (fs ++ f :: gs)).length
    refine ⟨?_, ?_⟩
    · intro hflags hsizes
      rw [hsplit, decode_split hh] at hbody
      obtain ⟨⟨minor, hheader⟩, -, -, -, hfields⟩ := hbody
      have hok : TlvOk f := by
        refine ⟨?_, htype, htype'⟩
        rcases hflags with h | h
        · rw [h]
          decide
        · rw [h]
          decide
      rw [extended, decode_split hlen]
      refine ⟨⟨minor, ?_⟩, hsizes.1, hsizes.2.1, hsizes.2.2, hfields.insert_unknown hunknown hnew hok hflags⟩
      rw [hheader, withPayloadLen_requestHeader]
    · intro hflags requestId' request' haccepted
      rw [extended, decode_split hlen] at haccepted
      exact hunknown (haccepted.2.2.2.2.critical f (by simp) hflags)

/-! ## (2) Responses -/

/-- The number in `n` bytes of a body. -/
def headerWord (body : Bytes) (pos n : Nat) : Nat := ofBe ((body.drop pos).take n)

/-- The header every BRK2 response has, apart from its payload length. -/
structure ResponseHeader (requestId : UInt64) (body : Bytes) : Prop where
  magic : headerWord body 0 4 = brk2Magic.toNat
  major : headerWord body 4 1 = 2
  headerLen : headerWord body 6 2 = 32
  type : headerWord body 8 2 = 4
  flags : headerWord body 10 2 = 5
  requestId : headerWord body 12 8 = requestId.toNat
  schema : headerWord body 20 4 = 2
  schemaVersion : headerWord body 24 2 = 1
  reserved : headerWord body 26 2 = 0

/-- `parse_fields` on a whole body. -/
def bodyFields (body : Bytes) : Except Stop (List FieldView) :=
  (do
    let n ← size
    seek brk2HeaderBytes
    parseFields n [] : Reader (List FieldView)).run body

/-- What the values of the seven fields of a response spell. -/
inductive Spells (r : BrokerResponse) : List FieldView → Prop
  | fields (f1 f2 f3 f4 f5 f6 f7 : FieldView) (status : UInt8)
      (hids : [f1, f2, f3, f4, f5, f6, f7].map (·.id) = [1, 2, 3, 4, 5, 6, 7])
      (htypes : [f1, f2, f3, f4, f5, f6, f7].map (·.type) = [wtUtf8, wtU8, wtI64, wtU64, wtBytes, wtUtf8, wtUtf8])
      (htaskId : f1.value = r.taskId)
      (hstatus : f2.value = [status] ∧ TaskStatus.ofRaw status = r.status)
      (hgpu : f3.value.length = 8 ∧ (UInt64.ofNat (ofBe f3.value)).toInt64.toInt = r.selectedGpu.toInt)
      (hlatency : f4.value.length = 8 ∧ UInt64.ofNat (ofBe f4.value) = r.latencyMs)
      (hresult : f5.value = r.result)
      (herror : f6.value = r.error)
      (hbackend : f7.value = backendName r.backend) : Spells r [f1, f2, f3, f4, f5, f6, f7]

/-- The body is a response frame that says what `r` says. -/
structure Faithful (limits : ProtocolLimits) (r : BrokerResponse) (requestId : UInt64) (body : Bytes) : Prop where
  size : 32 ≤ body.length ∧ body.length ≤ limits.maxFrameBytes
  header : ResponseHeader requestId body
  payloadLen : headerWord body 28 4 = body.length - 32
  fields : ∃ fs, bodyFields body = .ok fs ∧ Spells r fs

theorem headerWord_of_at {body : Bytes} {pos pos' n v : Nat} (h : At body pos (be n v) pos') :
    headerWord body pos n = v % 256 ^ n := by
  have htake := List.prefix_iff_eq_take.mp h.2.2
  rw [length_be] at htake
  rw [headerWord, ← htake, ofBe_be]

section
variable {type flags : UInt16} {requestId : UInt64} {schema : UInt32} {payload : Bytes}

/-- Where the words of an envelope stand. -/
theorem envelope_at : ∀ {body : Bytes}, body = envelope type flags requestId schema payload →
    At body 0 (be 4 brk2Magic.toNat) 4 ∧ At body 4 (be 1 2) 5 ∧ At body 6 (be 2 32) 8 ∧ At body 8 (be 2 type.toNat) 10 ∧
      At body 10 (be 2 flags.toNat) 12 ∧ At body 12 (be 8 requestId.toNat) 20 ∧ At body 20 (be 4 schema.toNat) 24 ∧
      At body 24 (be 2 1) 26 ∧ At body 26 (be 2 0) 28 ∧ At body 28 (be 4 payload.length) 32 ∧
      At body 32 payload body.length := by
  intro body hbody
  have h := at_whole.mpr hbody
  simp only [envelope, ← be_one, at_append] at h
  obtain ⟨o32, ⟨o28, ⟨o26, ⟨o24, ⟨o20, ⟨o12, ⟨o10, ⟨o8, ⟨o6, ⟨o5, ⟨o4, h0, h4⟩, h5⟩, h6⟩, h8⟩, h10⟩, h12⟩, h20⟩, h24⟩,
    h26⟩, h28⟩, h32⟩ := h
  obtain rfl : o4 = 4 := h0.1
  obtain rfl : o5 = 5 := h4.1
  obtain rfl : o6 = 6 := h5.1
  obtain rfl : o8 = 8 := h6.1
  obtain rfl : o10 = 10 := h8.1
  obtain rfl : o12 = 12 := h10.1
  obtain rfl : o20 = 20 := h12.1
  obtain rfl : o24 = 24 := h20.1
  obtain rfl : o26 = 26 := h24.1
  obtain rfl : o28 = 28 := h26.1
  obtain rfl : o32 = 32 := h28.1
  exact ⟨h0, h4, h6, h8, h10, h12, h20, h24, h26, h28, h32⟩

end

theorem response_header {r : BrokerResponse} {requestId : UInt64} {limits : ProtocolLimits} {out : Bytes}
    (h : encodeBrk2ResponseBody r requestId limits = .ok out) : ResponseHeader requestId out := by
  obtain ⟨-, hout⟩ := encodeBrk2ResponseBody_ok.mp h
  obtain ⟨h0, h4, h6, h8, h10, h12, h20, h24, h26, -, -⟩ := envelope_at hout
  exact
    { magic := headerWord_of_at h0
      major := headerWord_of_at h4
      headerLen := headerWord_of_at h6
      type := headerWord_of_at h8
      flags := headerWord_of_at h10
      requestId := (headerWord_of_at h12).trans (Nat.mod_eq_of_lt requestId.toNat_lt)
      schema := headerWord_of_at h20
      schemaVersion := headerWord_of_at h24
      reserved := headerWord_of_at h26 }

theorem responseFields_wire {r : BrokerResponse} {limits : ProtocolLimits} (h : Brk2ResponseFits limits r) :
    ∀ f ∈ responseFields r, TlvOk f ∧ f.value.length < 256 ^ 4 := by
  simp only [responseFields, List.forall_mem_cons, List.not_mem_nil, false_implies, implies_true, and_true, TlvOk,
    List.length_singleton, length_be, length_backendName]
  exact ⟨⟨by decide, h.wide.1⟩, ⟨by decide, by decide⟩, ⟨by decide, by decide⟩, ⟨by decide, by decide⟩,
    ⟨by decide, h.wide.2.1⟩, ⟨by decide, h.wide.2.2⟩, ⟨by decide, by decide⟩⟩

theorem bodyFields_response {r : BrokerResponse} {requestId : UInt64} {limits : ProtocolLimits} {out : Bytes}
    (h : encodeBrk2ResponseBody r requestId limits = .ok out) : bodyFields out = .ok (responseFields r) := by
  obtain ⟨hfits, hout⟩ := encodeBrk2ResponseBody_ok.mp h
  obtain ⟨-, -, -, -, -, -, -, -, -, -, hat⟩ := envelope_at hout
  have h32 : 32 ≤ out.length := by
    have := hat.1
    omega
  have hids : ((responseFields r).map (·.id)).Nodup := by
    simp only [responseFields, List.map_cons, List.map_nil]
    decide
  simp only [bodyFields, run_ok, bind_ok, size_ok, seek_ok]
  refine ⟨out.length, out.length, 0, ⟨rfl, rfl⟩, (), 32, rfl, ?_⟩
  exact (parseFields_ok h32 (Nat.sub_le _ _)).mpr
    ⟨responseFields r, rfl, responseFields_wire hfits, hids, by simp, hat, rfl⟩

/-- A GPU index survives as 64 bits with its sign. -/
theorem int32_of_wire (x : Int32) : (UInt64.ofNat (ofBe (be 8 x.toInt64.toUInt64.toNat))).toInt64.toInt = x.toInt := by
  rw [ofBe_be_of_lt (UInt64.toNat_lt _), UInt64.ofNat_toNat]
  exact Int32.toInt_toInt64 x

theorem spells_responseFields (r : BrokerResponse) : Spells r (responseFields r) := by
  have hlatency : UInt64.ofNat (ofBe (be 8 r.latencyMs.toNat)) = r.latencyMs := by
    rw [ofBe_be_of_lt r.latencyMs.toNat_lt, UInt64.ofNat_toNat]
  exact .fields _ _ _ _ _ _ _ r.status.raw rfl rfl rfl ⟨rfl, ofRaw_raw r.status⟩
    ⟨length_be _ _, int32_of_wire r.selectedGpu⟩ ⟨length_be _ _, hlatency⟩ rfl rfl rfl

/-- The payload length of the header is the number of bytes behind it as far as 32 bits go. -/
theorem payloadLen_response {r : BrokerResponse} {requestId : UInt64} {limits : ProtocolLimits} {out : Bytes}
    (h : encodeBrk2ResponseBody r requestId limits = .ok out) :
    headerWord out 28 4 = (76 + r.taskId.length + r.result.length + r.error.length) % 2 ^ 32 ∧
      out.length = 108 + r.taskId.length + r.result.length + r.error.length := by
  obtain ⟨-, hout⟩ := encodeBrk2ResponseBody_ok.mp h
  obtain ⟨-, -, -, -, -, -, -, -, -, hcount, hat⟩ := envelope_at hout
  have hregion := length_responseFields r
  have hword := headerWord_of_at hcount
  have hlen := hat.1
  rw [hregion] at hword hlen
  exact ⟨hword, by omega⟩

/-- What the encoder lets out is a response that says what it was given, if and only if the
    payload length of its header can count the TLVs. -/
theorem response_faithful_iff (limits : ProtocolLimits) (r : BrokerResponse) (requestId : UInt64) (out : Bytes)
    (h : encodeBrk2ResponseBody r requestId limits = .ok out) :
    Faithful limits r requestId out ↔ 76 + r.taskId.length + r.result.length + r.error.length < 2 ^ 32 := by
  obtain ⟨hword, hlen⟩ := payloadLen_response h
  refine ⟨?_, ?_⟩
  · intro hfaithful
    have hcount := hfaithful.payloadLen
    have hmod := Nat.mod_lt (76 + r.taskId.length + r.result.length + r.error.length) (show 0 < 2 ^ 32 by decide)
    omega
  · intro hwide
    have hframe := (encodeBrk2ResponseBody_ok.mp h).1.frame
    rw [length_responseFields] at hframe
    refine
      { size := ⟨by omega, by omega⟩
        header := response_header h
        payloadLen := ?_
        fields := ⟨responseFields r, bodyFields_response h, spells_responseFields r⟩ }
    rw [hword, Nat.mod_eq_of_lt hwide]
    omega

theorem response_faithful_iff_small :
    ∃ out, encodeBrk2ResponseBody { taskId := ascii "t", status := .ok, selectedGpu := -1 } 7 {} = .ok out ∧
      Faithful {} { taskId := ascii "t", status := .ok, selectedGpu := -1 } 7 out := by
  refine ⟨_, rfl, (response_faithful_iff {} _ 7 _ rfl).mpr ?_⟩
  decide

/-- A result of `n` zero bytes. -/
def zeros (n : Nat) : BrokerResponse := { status := .ok, result := List.replicate n 0 }

def wideLimits : ProtocolLimits := { maxFrameBytes := 2 ^ 33, maxPayloadBytes := 2 ^ 33 }

theorem zeros_fit {n : Nat} (h : n < 2 ^ 32) : Brk2ResponseFits wideLimits (zeros n) := by
  have hresult : (zeros n).result.length = n := List.length_replicate
  have hregion : (serialise (responseFields (zeros n))).length = 76 + n := by
    rw [length_responseFields, hresult]
    simp [zeros]
  have hframe : wideLimits.maxFrameBytes = 2 ^ 33 := rfl
  have hpayload : wideLimits.maxPayloadBytes = 2 ^ 33 := rfl
  exact
    { result := by omega
      strings := ⟨Nat.zero_le _, Nat.zero_le _⟩
      wide := ⟨Nat.pow_pos (by decide), by omega, Nat.pow_pos (by decide)⟩
      region := by omega
      frame := by omega }

/-- A result of 2^32 - 1 bytes fits its field, and limits of 8 GiB let it through: the header
    then counts 75 bytes. -/
theorem a_huge_response_wraps_its_payload_length :
    ∃ out, encodeBrk2ResponseBody (zeros (2 ^ 32 - 1)) 7 wideLimits = .ok out ∧
      ¬ Faithful wideLimits (zeros (2 ^ 32 - 1)) 7 out := by
  have hfits := zeros_fit (show 2 ^ 32 - 1 < 2 ^ 32 by decide)
  obtain ⟨out, henc⟩ : ∃ out, encodeBrk2ResponseBody (zeros (2 ^ 32 - 1)) 7 wideLimits = .ok out :=
    ⟨_, encodeBrk2ResponseBody_ok.mpr ⟨hfits, rfl⟩⟩
  refine ⟨out, henc, ?_⟩
  intro hfaithful
  obtain ⟨hword, hlen⟩ := payloadLen_response henc
  have hcount := hfaithful.payloadLen
  have hresult : (zeros (2 ^ 32 - 1)).result.length = 2 ^ 32 - 1 := List.length_replicate
  have htaskId : (zeros (2 ^ 32 - 1)).taskId.length = 0 := rfl
  have herror : (zeros (2 ^ 32 - 1)).error.length = 0 := rfl
  rw [htaskId, herror, hresult] at hword hlen
  omega

end Overhauled.Broker
