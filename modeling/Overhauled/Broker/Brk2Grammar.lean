/-
  Overhauled.Broker.Brk2Grammar — which bodies `decode_brk2_request_body` accepts.

  A request body is a header and the serialisation of a TLV list; `RequestFields` says
  what the list must hold and which request it means, with no reference to the
  decoder's loop, its lookups or the order of its checks. The decoder accepts exactly
  the bodies of that shape and answers exactly the request they mean.
-/

import Overhauled.Broker.Brk2

namespace Overhauled.Broker

open Wire Reader

/-! ## The grammar -/

def tlvBytes (f : FieldView) : Bytes := be 2 f.id.toNat ++ [f.type] ++ [f.flags] ++ pre 4 f.value

def serialise (fs : List FieldView) : Bytes := fs.flatMap tlvBytes

/-- The request header; `minor` is the byte the decoder does not look at. -/
def requestHeader (minor : UInt8) (requestId : UInt64) (payloadLen : Nat) : Bytes :=
  be 4 brk2Magic.toNat ++ be 1 2 ++ [minor] ++ be 2 32 ++ be 2 3 ++ be 2 0 ++ be 8 requestId.toNat ++ be 4 1 ++ be 2 1 ++
    be 2 0 ++ be 4 payloadLen

/-- Some field `id` of the list has this type and value. -/
def Has (fs : List FieldView) (id : UInt16) (type : UInt8) (value : Bytes) : Prop :=
  ∃ f ∈ fs, f.id = id ∧ f.type = type ∧ f.value = value

/-- A required string field: present, non-empty, well-formed, within the limit. -/
def HasString (limits : ProtocolLimits) (fs : List FieldView) (id : UInt16) (value : Bytes) : Prop :=
  Has fs id wtUtf8 value ∧ value ≠ [] ∧ Utf8 value ∧ value.length ≤ limits.maxStringBytes

/-- The wire form of a TLV: flags in 0..3, a known wire type. -/
def TlvOk (f : FieldView) : Prop := f.flags ≤ 3 ∧ 1 ≤ f.type ∧ f.type ≤ 12

/-- What a TLV list must hold to be a request, and which request it then is. -/
structure RequestFields (limits : ProtocolLimits) (fs : List FieldView) (req : BrokerRequest) : Prop where
  distinct : (fs.map (·.id)).Nodup
  wire : ∀ f ∈ fs, TlvOk f
  /-- Bit 0 of the flags marks a critical field; those must be known. -/
  critical : ∀ f ∈ fs, f.flags = 1 ∨ f.flags = 3 → 1 ≤ f.id ∧ f.id ≤ 10
  taskId : HasString limits fs 1 req.taskId
  source : HasString limits fs 2 req.source
  destination : HasString limits fs 3 req.destination
  kind : HasString limits fs 4 req.kind
  priority : Has fs 5 wtU8 [req.priority]
  timeout : Has fs 6 wtU32 (be 4 req.timeoutMs.toNat)
  timeoutRange : 1 ≤ req.timeoutMs.toNat ∧ req.timeoutMs.toNat ≤ 300000
  payload : Has fs 7 wtBytes req.payload
  idempotencyKey : ∀ f ∈ fs, f.id = 8 → f.type = wtUuid ∧ f.value.length = 16
  deadline : ∀ f ∈ fs, f.id = 9 → f.type = wtU64 ∧ f.value.length = 8
  device : (∀ f ∈ fs, f.id ≠ 10) ∧ req.devicePreference = [] ∨
    Has fs 10 wtUtf8 req.devicePreference ∧ req.devicePreference ∈ devicePreferences
  profile : req.profile = none

/-! ## The header -/

section
variable {body : Bytes} {limits : ProtocolLimits}

theorem headerReader_ok {requestId : UInt64} :
    (headerReader limits).run body = .ok requestId ↔
      (32 ≤ body.length ∧ body.length ≤ limits.maxFrameBytes) ∧ body.length - 32 ≤ limits.maxPayloadBytes ∧
        body.length - 32 < 256 ^ 4 ∧ ∃ minor, At body 0 (requestHeader minor requestId (body.length - 32)) 32 := by
  simp only [run_ok, headerReader, bind_ok, size_ok, rejectIf_ok, peekWord_ok, pure_ok, requestHeader, at_append]
  -- The peeks and the checks leave the offset alone; what remains is one word after the other.
  simp only [and_assoc, exists_and_left, exists_eq_left, exists_const, ne_eq, not_not, not_or]
  simp only [brk2HeaderBytes]
  refine ⟨?_, ?_⟩
  · intro h
    obtain ⟨hn, hx, _, m, -, h0, rfl, j, -, h4, rfl, hl, -, h6, rfl, t, -, h8, rfl, fl, -, h10, rfl, z, -, h26, rfl,
      p, hp, h28, hmax, rfl, c, -, h20, v, -, h24, rfl, rfl, i, hi, h12, rfl, -⟩ := h
    have hi' : (UInt64.ofNat i).toNat = i := by
      rw [UInt64.toNat_ofNat', Nat.mod_eq_of_lt (show i < 2 ^ 64 from hi)]
    have h5 : At body 5 [(body.drop 5).headD 0] 6 := by
      refine ⟨rfl, by omega, ?_⟩
      cases hd : body.drop 5 with
      | nil => have := List.drop_eq_nil_iff.mp hd; omega
      | cons b w => exact ⟨w, rfl⟩
    rw [hi']
    exact ⟨by omega, by omega, by omega, hp, (body.drop 5).headD 0,
      28, ⟨26, ⟨24, ⟨20, ⟨12, ⟨10, ⟨8, ⟨6, ⟨5, ⟨4, h0, h4⟩, h5⟩, h6⟩, h8⟩, h10⟩, h12⟩, h20⟩, h24⟩, h26⟩, h28⟩
  · intro h
    obtain ⟨hn, hx, hp, hp4, minor, o28, ⟨o26, ⟨o24, ⟨o20, ⟨o12, ⟨o10, ⟨o8, ⟨o6, ⟨o5, ⟨o4, h0, h4⟩, h5⟩, h6⟩, h8⟩, h10⟩,
      h12⟩, h20⟩, h24⟩, h26⟩, h28⟩ := h
    have e4 : o4 = 4 := h0.1
    subst e4
    have e5 : o5 = 5 := h4.1
    subst e5
    have e6 : o6 = 6 := h5.1
    subst e6
    have e8 : o8 = 8 := h6.1
    subst e8
    have e10 : o10 = 10 := h8.1
    subst e10
    have e12 : o12 = 12 := h10.1
    subst e12
    have e20 : o20 = 20 := h12.1
    subst e20
    have e24 : o24 = 24 := h20.1
    subst e24
    have e26 : o26 = 26 := h24.1
    subst e26
    have e28 : o28 = 28 := h26.1
    subst e28
    exact ⟨by omega, by omega, 0, _, by decide, h0, rfl, _, by decide, h4, rfl, _, by decide, h6, rfl, _, by decide, h8,
      rfl, _, by decide, h10, rfl, _, by decide, h26, rfl, _, hp4, h28, by omega, rfl, _, by decide, h20, _, by decide,
      h24, rfl, rfl, _, requestId.toNat_lt, h12, by rw [UInt64.ofNat_toNat], rfl⟩

theorem flag_bits (n : Nat) (h : n < 256) : n &&& 0xfc = 0 ↔ n ≤ 3 := by
  revert n
  decide +kernel

theorem flags_ok {v : UInt8} : ¬ (v.toNat &&& 0xfc ≠ 0) ↔ v ≤ 3 := by
  rw [ne_eq, not_not, flag_bits _ v.toNat_lt, UInt8.le_iff_toNat_le]
  rfl

theorem type_ok {v : UInt8} : ¬ (v < 1 ∨ v > 12) ↔ 1 ≤ v ∧ v ≤ 12 := by
  rw [not_or, UInt8.not_lt, gt_iff_lt, UInt8.not_lt]

variable {pos pos' : Nat}

theorem parseField_ok {fields : List FieldView} {f : FieldView} :
    parseField fields body pos = .ok (f, pos') ↔
      TlvOk f ∧ f.value.length < 256 ^ 4 ∧ (∀ g ∈ fields, g.id ≠ f.id) ∧ At body pos (tlvBytes f) pos' := by
  simp only [parseField, bind_ok, remaining_ok, rejectIf_ok, u16_ok, u8_ok, u32_ok, fetch_ok, pure_ok, tlvBytes, pre,
    ← be_one, at_append, flags_ok, type_ok]
  refine ⟨?_, ?_⟩
  · intro h
    obtain ⟨_, _, ⟨rfl, rfl⟩, _, _, ⟨h8, rfl⟩, i, o1, h1, t, o2, h2, fl, o3, h3, n, o4, h4, _, _, ⟨hf, rfl⟩, _, _, ⟨ht, rfl⟩,
      _, _, ⟨rfl, rfl⟩, _, _, ⟨hn, rfl⟩, v, o5, ⟨hl, h5⟩, _, _, ⟨hd, rfl⟩, rfl, rfl⟩ := h
    refine ⟨⟨hf, ht⟩, by show v.length < _; rw [hl]; exact n.toNat_lt, ?_, _, ⟨o2, ⟨o1, h1, h2⟩, h3⟩, _, ?_, h5⟩
    · intro g hg e
      exact hd (List.any_eq_true.mpr ⟨g, hg, by simpa using e⟩)
    · show At body o3 (be 4 v.length) _
      rw [hl]
      exact h4
  · intro h
    obtain ⟨⟨hf, ht⟩, hl, hd, o3, ⟨o2, ⟨o1, h1, h2⟩, h3⟩, o4, h4, h5⟩ := h
    have e1 := h1.1
    have e2 := h2.1
    have e3 := h3.1
    have e4 := h4.1
    have e5 := h5.1
    have hle := h5.le
    simp only [length_be] at e1 e2 e3 e4
    have hn : (UInt32.ofNat f.value.length).toNat = f.value.length := by
      rw [UInt32.toNat_ofNat', Nat.mod_eq_of_lt (show f.value.length < 2 ^ 32 from hl)]
    refine ⟨_, pos, ⟨rfl, rfl⟩, (), pos, ⟨by omega, rfl⟩, _, o1, h1, _, o2, h2, _, o3, h3, UInt32.ofNat f.value.length, o4,
      by rw [hn]; exact h4, (), o4, ⟨hf, rfl⟩, (), o4, ⟨ht, rfl⟩, _, o4, ⟨rfl, rfl⟩, (), o4, ⟨by rw [hn]; omega, rfl⟩,
      f.value, pos', ⟨hn.symm, h5⟩, (), pos', ⟨?_, rfl⟩, rfl, rfl⟩
    intro he
    obtain ⟨g, hg, hid⟩ := List.any_eq_true.mp he
    exact hd g hg (by simpa using hid)

theorem length_tlvBytes (f : FieldView) : (tlvBytes f).length = 8 + f.value.length := by
  simp only [tlvBytes, List.length_append, length_be, length_pre, List.length_singleton]
  omega

theorem length_serialise (fs : List FieldView) : 8 * fs.length ≤ (serialise fs).length := by
  induction fs with
  | nil => simp
  | cons f fs ih =>
    simp only [serialise, List.flatMap_cons, List.length_append, List.length_cons, length_tlvBytes] at ih ⊢
    omega

theorem parseFields_stop {fuel : Nat} {fields : List FieldView} (h : body.length ≤ pos) :
    parseFields fuel fields body pos = .ok (fields, pos) := by
  rw [parseFields.eq_def, bind_ok]
  refine ⟨_, pos, remaining_ok.mpr ⟨rfl, rfl⟩, ?_⟩
  rw [if_pos (by omega)]
  rfl

theorem parseFields_turn {fuel : Nat} {fields fs : List FieldView} (h : pos < body.length) :
    parseFields (fuel + 1) fields body pos = .ok (fs, pos') ↔
      ∃ f o, parseField fields body pos = .ok (f, o) ∧ parseFields fuel (fields ++ [f]) body o = .ok (fs, pos') := by
  rw [parseFields, bind_ok]
  refine ⟨?_, ?_⟩
  · intro h
    obtain ⟨_, _, hr, h'⟩ := h
    obtain ⟨rfl, rfl⟩ := remaining_ok.mp hr
    rw [if_neg (by omega)] at h'
    exact bind_ok.mp h'
  · intro h'
    refine ⟨_, pos, remaining_ok.mpr ⟨rfl, rfl⟩, ?_⟩
    rw [if_neg (by omega)]
    exact bind_ok.mpr h'

theorem serialise_at_end {new : List FieldView} (h : At body pos (serialise new) body.length) (hp : body.length ≤ pos) :
    new = [] := by
  have hlen := h.1
  have := length_serialise new
  exact List.eq_nil_of_length_eq_zero (by omega)

/-- From `pos` the loop reads the TLVs to the end of the body, given a bound no smaller
    than the bytes left. -/
theorem parseFields_ok {fuel : Nat} {fields fs : List FieldView} (hpos : pos ≤ body.length)
    (hfuel : body.length - pos ≤ fuel) :
    parseFields fuel fields body pos = .ok (fs, pos') ↔
      ∃ new, fs = fields ++ new ∧ (∀ f ∈ new, TlvOk f ∧ f.value.length < 256 ^ 4) ∧ (new.map (·.id)).Nodup ∧
        (∀ f ∈ new, ∀ g ∈ fields, g.id ≠ f.id) ∧ At body pos (serialise new) body.length ∧ pos' = body.length := by
  induction fuel generalizing fields pos with
  | zero =>
    rw [parseFields_stop (by omega)]
    refine ⟨?_, ?_⟩
    · intro h
      cases h
      exact ⟨[], by simp, by simp, by simp, by simp, at_nil.mpr ⟨by omega, hpos⟩, by omega⟩
    · intro h
      obtain ⟨new, rfl, -, -, -, ha, rfl⟩ := h
      rw [serialise_at_end ha (by omega), List.append_nil, show pos = body.length by omega]
  | succ fuel ih =>
    by_cases hend : body.length ≤ pos
    · rw [parseFields_stop hend]
      refine ⟨?_, ?_⟩
      · intro h
        cases h
        exact ⟨[], by simp, by simp, by simp, by simp, at_nil.mpr ⟨by omega, hpos⟩, by omega⟩
      · intro h
        obtain ⟨new, rfl, -, -, -, ha, rfl⟩ := h
        rw [serialise_at_end ha hend, List.append_nil, show pos = body.length by omega]
    rw [parseFields_turn (by omega)]
    refine ⟨?_, ?_⟩
    · intro h
      obtain ⟨f, o, hf, hr⟩ := h
      obtain ⟨hok, hl, hd, ha⟩ := parseField_ok.mp hf
      have hlen := ha.1
      rw [length_tlvBytes] at hlen
      obtain ⟨new, rfl, hn, hnd, hdis, hat, rfl⟩ := (ih ha.le (by omega)).mp hr
      refine ⟨f :: new, by simp, ?_, ?_, ?_, ?_, rfl⟩
      · intro g hg
        rcases List.mem_cons.mp hg with rfl | hg
        · exact ⟨hok, hl⟩
        · exact hn g hg
      · rw [List.map_cons, List.nodup_cons]
        refine ⟨?_, hnd⟩
        intro hm
        obtain ⟨g, hg, he⟩ := List.mem_map.mp hm
        exact hdis g hg f (by simp) he.symm
      · intro g hg g' hg'
        rcases List.mem_cons.mp hg with rfl | hg
        · exact hd g' hg'
        · exact hdis g hg g' (List.mem_append_left _ hg')
      · rw [serialise, List.flatMap_cons]
        exact at_append.mpr ⟨o, ha, hat⟩
    · intro h
      obtain ⟨new, rfl, hn, hnd, hdis, hat, rfl⟩ := h
      cases new with
      | nil =>
        have := (at_nil.mp hat).1
        omega
      | cons f new =>
        rw [serialise, List.flatMap_cons] at hat
        obtain ⟨o, ha, hat⟩ := at_append.mp hat
        have hlen := ha.1
        rw [length_tlvBytes] at hlen
        obtain ⟨hf, hfl⟩ := hn f (by simp)
        rw [List.map_cons, List.nodup_cons] at hnd
        refine ⟨f, o, parseField_ok.mpr ⟨hf, hfl, hdis f (by simp), ha⟩, ?_⟩
        refine (ih ha.le (by omega)).mpr ⟨new, by simp, fun g hg => hn g (by simp [hg]), hnd.2, ?_, hat, rfl⟩
        intro g hg g' hg'
        rcases List.mem_append.mp hg' with hg' | hg'
        · exact hdis g (by simp [hg]) g' hg'
        · rw [List.mem_singleton.mp hg']
          intro e
          exact hnd.1 (List.mem_map.mpr ⟨g, hg, e.symm⟩)

/-! ## The field lookups -/

section
variable {fs : List FieldView} {id : UInt16} {off off' : Nat}

theorem find_none : find fs id = none ↔ ∀ f ∈ fs, f.id ≠ id := by
  simp [find, List.find?_eq_none]

theorem find_mem {f : FieldView} (h : find fs id = some f) : f ∈ fs ∧ f.id = id :=
  ⟨List.mem_of_find?_eq_some h, by simpa using List.find?_some h⟩

theorem eq_of_nodup_ids {f g : FieldView} (hn : (fs.map (·.id)).Nodup) (hf : f ∈ fs) (hg : g ∈ fs) (he : f.id = g.id) :
    f = g := List.inj_on_of_nodup_map hn hf hg he

/-- With distinct ids a lookup finds the field of that id. -/
theorem find_some (hn : (fs.map (·.id)).Nodup) {f : FieldView} : find fs id = some f ↔ f ∈ fs ∧ f.id = id := by
  refine ⟨?_, ?_⟩
  · exact find_mem
  · intro h
    obtain ⟨hf, hid⟩ := h
    cases hg : find fs id with
    | none => exact absurd hid (find_none.mp hg f hf)
    | some g =>
      obtain ⟨hgm, hgi⟩ := find_mem hg
      rw [eq_of_nodup_ids hn hgm hf (hgi.trans hid.symm)]

theorem has_iff (hn : (fs.map (·.id)).Nodup) {type : UInt8} {v : Bytes} :
    Has fs id type v ↔ ∃ f, find fs id = some f ∧ f.type = type ∧ f.value = v := by
  simp only [Has, find_some hn, and_assoc]

theorem getString_ok (hn : (fs.map (·.id)).Nodup) {v : Bytes} :
    getString fs id body off = .ok (v, off') ↔ (Has fs id wtUtf8 v ∧ v ≠ [] ∧ Utf8 v) ∧ off' = off := by
  rw [has_iff hn]
  unfold getString
  cases hf : find fs id with
  | none => simp [reject_ok]
  | some f =>
    simp only [bind_ok, rejectIf_ok, pure_ok, Option.some.injEq]
    refine ⟨?_, ?_⟩
    · intro h
      obtain ⟨_, _, ⟨ht, rfl⟩, _, _, ⟨hu, rfl⟩, _, _, ⟨he, rfl⟩, rfl, rfl⟩ := h
      exact ⟨⟨⟨f, rfl, by simpa using ht, rfl⟩, he, (validUtf8_iff _).mp (by simpa using hu)⟩, rfl⟩
    · intro h
      obtain ⟨⟨⟨_, rfl, ht, rfl⟩, he, hu⟩, rfl⟩ := h
      refine ⟨(), _, ⟨by simpa using ht, rfl⟩, (), _, ⟨?_, rfl⟩, (), _, ⟨he, rfl⟩, rfl, rfl⟩
      rw [(validUtf8_iff _).mpr hu]
      simp

theorem getFixed_ok (hn : (fs.map (·.id)).Nodup) {type : UInt8} {n : Nat} {v : Bytes} :
    getFixed fs id type n body off = .ok (v, off') ↔ (Has fs id type v ∧ v.length = n) ∧ off' = off := by
  rw [has_iff hn]
  unfold getFixed
  cases hf : find fs id with
  | none => simp [reject_ok]
  | some f =>
    simp only [bind_ok, rejectIf_ok, pure_ok, Option.some.injEq, not_or, ne_eq, not_not]
    refine ⟨?_, ?_⟩
    · intro h
      obtain ⟨_, _, ⟨⟨ht, hl⟩, rfl⟩, rfl, rfl⟩ := h
      exact ⟨⟨⟨f, rfl, ht, rfl⟩, hl⟩, rfl⟩
    · intro h
      obtain ⟨⟨⟨_, rfl, ht, rfl⟩, hl⟩, rfl⟩ := h
      exact ⟨(), _, ⟨⟨ht, hl⟩, rfl⟩, rfl, rfl⟩

theorem checkOptional_ok (hn : (fs.map (·.id)).Nodup) {type : UInt8} {n : Nat} {msg : Bytes} {u : Unit} :
    checkOptional fs id type n msg body off = .ok (u, off') ↔
      (∀ f ∈ fs, f.id = id → f.type = type ∧ f.value.length = n) ∧ off' = off := by
  unfold checkOptional
  cases hf : find fs id with
  | none =>
    simp only [pure_ok, true_and]
    exact ⟨fun h => ⟨fun f hm hid => absurd hid (find_none.mp hf f hm), h⟩, fun h => h.2⟩
  | some f =>
    obtain ⟨hm, hid⟩ := find_mem hf
    simp only [rejectIf_ok, not_or, ne_eq, not_not]
    refine ⟨?_, ?_⟩
    · intro h
      obtain ⟨h, rfl⟩ := h
      refine ⟨fun g hg he => ?_, rfl⟩
      rw [eq_of_nodup_ids hn hg hm (he.trans hid.symm)]
      exact h
    · intro h
      obtain ⟨h, rfl⟩ := h
      exact ⟨h f hm hid, rfl⟩

theorem getDevicePreference_ok (hn : (fs.map (·.id)).Nodup) {v : Bytes} :
    getDevicePreference fs body off = .ok (v, off') ↔
      ((∀ f ∈ fs, f.id ≠ 10) ∧ v = [] ∨ Has fs 10 wtUtf8 v ∧ v ∈ devicePreferences) ∧ off' = off := by
  rw [has_iff hn, ← find_none]
  unfold getDevicePreference
  cases hf : find fs 10 with
  | none => simp [pure_ok]
  | some f =>
    simp only [bind_ok, rejectIf_ok, pure_ok, reduceCtorEq, false_and, false_or, Option.some.injEq, ne_eq, not_not]
    refine ⟨?_, ?_⟩
    · intro h
      obtain ⟨_, _, ⟨ht, rfl⟩, _, _, ⟨hp, rfl⟩, rfl, rfl⟩ := h
      exact ⟨⟨⟨f, rfl, ht, rfl⟩, hp⟩, rfl⟩
    · intro h
      obtain ⟨⟨⟨_, rfl, ht, rfl⟩, hp⟩, rfl⟩ := h
      exact ⟨(), _, ⟨ht, rfl⟩, (), _, ⟨hp, rfl⟩, rfl, rfl⟩

theorem critical_bit {v : UInt8} (h : v ≤ 3) : (v &&& fieldCritical != 0) = true ↔ v = 1 ∨ v = 3 := by
  have hv : v.toNat ≤ 3 := UInt8.le_iff_toNat_le.mp h
  have hcases : v = 0 ∨ v = 1 ∨ v = 2 ∨ v = 3 := by
    simp only [← UInt8.toNat_inj]
    show v.toNat = 0 ∨ v.toNat = 1 ∨ v.toNat = 2 ∨ v.toNat = 3
    omega
  rcases hcases with rfl | rfl | rfl | rfl <;> decide

theorem critical_ok (hw : ∀ f ∈ fs, TlvOk f) :
    ¬ (fs.any fun f => !(decide (f.id ≥ 1) && decide (f.id ≤ 10)) && (f.flags &&& fieldCritical != 0)) = true ↔
      ∀ f ∈ fs, f.flags = 1 ∨ f.flags = 3 → 1 ≤ f.id ∧ f.id ≤ 10 := by
  refine ⟨?_, ?_⟩
  · intro h f hf hc
    by_contra hk
    refine h (List.any_eq_true.mpr ⟨f, hf, ?_⟩)
    rw [(critical_bit (hw f hf).1).mpr hc, Bool.and_true, ← Bool.decide_and, Bool.not_eq_true', decide_eq_false_iff_not]
    exact hk
  · intro h ha
    obtain ⟨f, hf, hb⟩ := List.any_eq_true.mp ha
    simp only [Bool.and_eq_true, Bool.not_eq_true', Bool.and_eq_false_iff, decide_eq_false_iff_not] at hb
    have := h f hf ((critical_bit (hw f hf).1).mp hb.2)
    tauto

/-! ## The decoder -/

theorem word_of_length {v : Bytes} {k : Nat} (h : v.length = k) : be k (ofBe v) = v := by
  rw [← h, be_ofBe]

theorem strings_fit {a b c d : Bytes} {max : Nat} :
    ¬ (∃ value ∈ [a, b, c, d], value.length > max) ↔
      a.length ≤ max ∧ b.length ≤ max ∧ c.length ≤ max ∧ d.length ≤ max := by
  simp

theorem byte_of_length {v : Bytes} (h : v.length = 1) : [UInt8.ofNat (ofBe v)] = v := by
  have hlt := ofBe_lt v
  rw [h, Nat.pow_one] at hlt
  rw [← be_one, UInt8.toNat_ofNat', Nat.mod_eq_of_lt hlt, word_of_length h]

theorem requestOfFields_ok {req : BrokerRequest} (hn : (fs.map (·.id)).Nodup) (hw : ∀ f ∈ fs, TlvOk f)
    (hv : ∀ f ∈ fs, f.value.length ≤ limits.maxPayloadBytes) (hl : body.length ≤ limits.maxFrameBytes) :
    requestOfFields limits fs body off = .ok (req, off') ↔ RequestFields limits fs req ∧ off' = off := by
  simp only [requestOfFields, bind_ok, rejectIf_ok, critical_ok hw, getString_ok hn, getFixed_ok hn, checkOptional_ok hn,
    getDevicePreference_ok hn, strings_fit, size_ok, pure_ok]
  simp only [and_assoc, exists_and_left, exists_eq_left, exists_const]
  refine ⟨?_, ?_⟩
  · intro h
    obtain ⟨hc, t, ht, hte, htu, s, hs, hse, hsu, d, hd, hde, hdu, k, hk, hke, hku, htl, hsl, hdl, hkl, pr, hp, hpl,
      ms, hms, hmsl, pl, hpay, -, -, h8, h9, dev, hdev, htr, -, rfl, rfl⟩ := h
    have hlt := ofBe_lt ms
    rw [hmsl] at hlt
    have hms' : (UInt32.ofNat (ofBe ms)).toNat = ofBe ms := by
      rw [UInt32.toNat_ofNat', Nat.mod_eq_of_lt (show ofBe ms < 2 ^ 32 from hlt)]
    refine ⟨?_, rfl⟩
    exact
      { distinct := hn, wire := hw, critical := hc, taskId := ⟨ht, hte, htu, htl⟩, source := ⟨hs, hse, hsu, hsl⟩,
        destination := ⟨hd, hde, hdu, hdl⟩, kind := ⟨hk, hke, hku, hkl⟩,
        priority := by rw [byte_of_length hpl]; exact hp
        timeout := by rw [hms', word_of_length hmsl]; exact hms
        timeoutRange := by rw [hms']; unfold brokerMaxTimeoutMs at htr; omega
        payload := hpay, idempotencyKey := h8, deadline := h9, device := hdev, profile := rfl }
  · intro h
    obtain ⟨h, rfl⟩ := h
    obtain ⟨f, hf, hid, hty, hval⟩ := h.payload
    have h7 : find fs 7 = some f := (find_some hn).mpr ⟨hf, hid⟩
    have hfit : req.payload.length ≤ limits.maxPayloadBytes := hval ▸ hv f hf
    have hms : ofBe (be 4 req.timeoutMs.toNat) = req.timeoutMs.toNat := ofBe_be_of_lt req.timeoutMs.toNat_lt
    have hrange := h.timeoutRange
    refine ⟨h.critical, _, h.taskId.1, h.taskId.2.1, h.taskId.2.2.1, _, h.source.1, h.source.2.1, h.source.2.2.1,
      _, h.destination.1, h.destination.2.1, h.destination.2.2.1, _, h.kind.1, h.kind.2.1, h.kind.2.2.1,
      h.taskId.2.2.2, h.source.2.2.2, h.destination.2.2.2, h.kind.2.2.2, _, h.priority, rfl, _, h.timeout, length_be _ _,
      _, h.payload, ?_, by omega, h.idempotencyKey, h.deadline, _, h.device, ?_, by omega, ?_, rfl⟩
    · rw [h7, ← hval]
    · rw [hms]
      unfold brokerMaxTimeoutMs
      omega
    · have hb : UInt8.ofNat (ofBe [req.priority]) = req.priority := by simp [ofBe]
      rw [hms, UInt32.ofNat_toNat, hb, ← h.profile]

theorem length_value_le {f : FieldView} (h : f ∈ fs) : f.value.length ≤ (serialise fs).length := by
  have hsub : (tlvBytes f).length ≤ (serialise fs).length :=
    (List.sublist_flatten_of_mem (List.mem_map.mpr ⟨f, h, rfl⟩)).length_le
  rw [length_tlvBytes] at hsub
  omega

theorem fieldsReader_ok {req : BrokerRequest} (h32 : 32 ≤ body.length) (hl : body.length ≤ limits.maxFrameBytes)
    (hp : body.length - 32 ≤ limits.maxPayloadBytes) (h4 : body.length - 32 < 256 ^ 4) :
    (fieldsReader limits).run body = .ok req ↔
      ∃ fs, At body 32 (serialise fs) body.length ∧ RequestFields limits fs req := by
  simp only [run_ok, fieldsReader, bind_ok, size_ok, seek_ok]
  refine ⟨?_, ?_⟩
  · intro h
    obtain ⟨_, _, _, ⟨rfl, rfl⟩, _, _, rfl, fs, o, hfs, hreq⟩ := h
    obtain ⟨_, rfl, hw, hnd, -, hat, rfl⟩ := (parseFields_ok h32 (Nat.sub_le _ _)).mp hfs
    have hlen := hat.1
    have hv : ∀ f ∈ fs, f.value.length ≤ limits.maxPayloadBytes := fun f hf => by
      have := length_value_le hf
      omega
    exact ⟨fs, hat, ((requestOfFields_ok hnd (fun f hf => (hw f hf).1) hv hl).mp hreq).1⟩
  · intro h
    obtain ⟨fs, hat, h⟩ := h
    have hlen := hat.1
    have hv : ∀ f ∈ fs, f.value.length ≤ body.length - 32 := fun f hf => by
      have := length_value_le hf
      omega
    refine ⟨body.length, _, _, ⟨rfl, rfl⟩, (), _, rfl, fs, body.length, ?_, ?_⟩
    · refine (parseFields_ok h32 (Nat.sub_le _ _)).mpr ⟨fs, rfl, ?_, h.distinct, by simp, hat, rfl⟩
      exact fun f hf => ⟨h.wire f hf, lt_of_le_of_lt (hv f hf) h4⟩
    · exact (requestOfFields_ok h.distinct h.wire (fun f hf => (hv f hf).trans hp) hl).mpr ⟨h, rfl⟩

end

theorem length_requestHeader (minor : UInt8) (requestId : UInt64) (n : Nat) :
    (requestHeader minor requestId n).length = 32 := by
  simp [requestHeader]

theorem decodeBrk2RequestBody_eq {requestId0 requestId : UInt64} {req : BrokerRequest} :
    decodeBrk2RequestBody body requestId0 limits = (requestId, .ok req) ↔
      (headerReader limits).run body = .ok requestId ∧ (fieldsReader limits).run body = .ok req := by
  unfold decodeBrk2RequestBody
  split
  · rename_i e he
    simp [he]
  · rename_i i hi
    simp [hi]

/-- A body that is a header and the serialisation of a request's fields. -/
structure IsRequest (limits : ProtocolLimits) (body : Bytes) (minor : UInt8) (requestId : UInt64) (fs : List FieldView)
    (req : BrokerRequest) : Prop where
  size : 32 ≤ body.length ∧ body.length ≤ limits.maxFrameBytes
  shape : body = requestHeader minor requestId (serialise fs).length ++ serialise fs
  payload : (serialise fs).length ≤ limits.maxPayloadBytes ∧ (serialise fs).length < 256 ^ 4
  fields : RequestFields limits fs req

theorem decoded_is_request {requestId0 requestId : UInt64} {req : BrokerRequest}
    (h : decodeBrk2RequestBody body requestId0 limits = (requestId, .ok req)) :
    ∃ minor fs, IsRequest limits body minor requestId fs req := by
  obtain ⟨hh, hf⟩ := decodeBrk2RequestBody_eq.mp h
  obtain ⟨⟨h32, hl⟩, hp, h4, minor, hh⟩ := headerReader_ok.mp hh
  obtain ⟨fs, hat, hreq⟩ := (fieldsReader_ok h32 hl hp h4).mp hf
  have hlen : (serialise fs).length = body.length - 32 := by
    have := hat.1
    omega
  rw [← hlen] at hp h4 hh
  exact ⟨minor, fs, ⟨h32, hl⟩, at_whole.mp (at_append.mpr ⟨32, hh, hat⟩), ⟨hp, h4⟩, hreq⟩

theorem request_is_decoded {minor : UInt8} {requestId : UInt64} {fs : List FieldView} {req : BrokerRequest}
    (h : IsRequest limits body minor requestId fs req) (requestId0 : UInt64) :
    decodeBrk2RequestBody body requestId0 limits = (requestId, .ok req) := by
  obtain ⟨⟨h32, hl⟩, hb, ⟨hp, h4⟩, hreq⟩ := h
  have hlen : (serialise fs).length = body.length - 32 := by
    have := congrArg List.length hb
    rw [List.length_append, length_requestHeader] at this
    omega
  obtain ⟨o, hh, hat⟩ := at_append.mp (at_whole.mpr hb)
  have ho : o = 32 := by
    have := hh.1
    rwa [length_requestHeader] at this
  subst ho
  rw [hlen] at hp h4 hh
  rw [decodeBrk2RequestBody_eq, headerReader_ok, fieldsReader_ok h32 hl hp h4]
  exact ⟨⟨⟨h32, hl⟩, hp, h4, minor, hh⟩, fs, hat, hreq⟩

end

/-- The decoder succeeds with a request and an id exactly when the body is a header
    carrying that id, the length of what follows it and any minor version, before the
    serialisation of a TLV list that holds that request. -/
theorem decodeBrk2RequestBody_iff (body : Bytes) (limits : ProtocolLimits) (requestId0 requestId : UInt64)
    (req : BrokerRequest) :
    decodeBrk2RequestBody body requestId0 limits = (requestId, .ok req) ↔
      (32 ≤ body.length ∧ body.length ≤ limits.maxFrameBytes) ∧
        ∃ minor fs, body = requestHeader minor requestId (serialise fs).length ++ serialise fs ∧
          (serialise fs).length ≤ limits.maxPayloadBytes ∧ (serialise fs).length < 256 ^ 4 ∧
          RequestFields limits fs req := by
  refine ⟨?_, ?_⟩
  · intro h
    obtain ⟨minor, fs, h⟩ := decoded_is_request h
    exact ⟨h.size, minor, fs, h.shape, h.payload.1, h.payload.2, h.fields⟩
  · intro h
    obtain ⟨hsize, minor, fs, hshape, hp, h4, hfields⟩ := h
    exact request_is_decoded ⟨hsize, hshape, ⟨hp, h4⟩, hfields⟩ requestId0

/-! ## The bytes determine the TLVs -/

theorem tlvBytes_append_inj {f g : FieldView} {u w : Bytes} (hf : f.value.length < 256 ^ 4)
    (hg : g.value.length < 256 ^ 4) (h : tlvBytes f ++ u = tlvBytes g ++ w) : f = g ∧ u = w := by
  simp only [tlvBytes, pre, List.append_assoc] at h
  obtain ⟨hid, h⟩ := List.append_inj h (by simp)
  obtain ⟨htype, h⟩ := List.append_inj h (by simp)
  obtain ⟨hflags, h⟩ := List.append_inj h (by simp)
  obtain ⟨hlen, h⟩ := List.append_inj h (by simp)
  have hid : f.id.toNat = g.id.toNat := by
    rw [← ofBe_be_of_lt (n := 2) f.id.toNat_lt, hid, ofBe_be_of_lt g.id.toNat_lt]
  have hlen : f.value.length = g.value.length := by rw [← ofBe_be_of_lt hf, hlen, ofBe_be_of_lt hg]
  obtain ⟨hvalue, hrest⟩ := List.append_inj h hlen
  obtain ⟨id, type, flags, value⟩ := f
  obtain ⟨id', type', flags', value'⟩ := g
  cases UInt16.toNat_inj.mp hid
  cases htype
  cases hflags
  cases hvalue
  exact ⟨rfl, hrest⟩

theorem serialise_inj {fs gs : List FieldView} (hf : ∀ f ∈ fs, f.value.length < 256 ^ 4)
    (hg : ∀ g ∈ gs, g.value.length < 256 ^ 4) (h : serialise fs = serialise gs) : fs = gs := by
  have hne : ∀ {f : FieldView} {rest : Bytes}, tlvBytes f ++ rest ≠ [] := by
    intro f rest h
    have := congrArg List.length h
    simp [length_tlvBytes] at this
  induction fs generalizing gs with
  | nil =>
    cases gs with
    | nil => rfl
    | cons g gs => exact absurd h.symm hne
  | cons f fs ih =>
    cases gs with
    | nil => exact absurd h hne
    | cons g gs =>
      rw [List.forall_mem_cons] at hf hg
      obtain ⟨rfl, hrest⟩ := tlvBytes_append_inj hf.1 hg.1 h
      rw [ih hf.2 hg.2 hrest]

/-! ## How long the fields are -/

/-- The seven required fields are seven different TLVs. -/
theorem required_fields_length {limits : ProtocolLimits} {fs : List FieldView} {req : BrokerRequest}
    (h : RequestFields limits fs req) :
    61 + req.taskId.length + req.source.length + req.destination.length + req.kind.length + req.payload.length ≤
      (serialise fs).length := by
  obtain ⟨f1, m1, i1, -, v1⟩ := h.taskId.1
  obtain ⟨f2, m2, i2, -, v2⟩ := h.source.1
  obtain ⟨f3, m3, i3, -, v3⟩ := h.destination.1
  obtain ⟨f4, m4, i4, -, v4⟩ := h.kind.1
  obtain ⟨f5, m5, i5, -, v5⟩ := h.priority
  obtain ⟨f6, m6, i6, -, v6⟩ := h.timeout
  obtain ⟨f7, m7, i7, -, v7⟩ := h.payload
  have hids : ([f1, f2, f3, f4, f5, f6, f7].map (·.id)).Nodup := by
    simp only [List.map_cons, List.map_nil, i1, i2, i3, i4, i5, i6, i7]
    decide
  have hsub : [f1, f2, f3, f4, f5, f6, f7] ⊆ fs := by simp [m1, m2, m3, m4, m5, m6, m7]
  obtain ⟨l, hperm, hl⟩ := (List.Nodup.of_map _ hids).subperm hsub
  have hle : (serialise l).length ≤ (serialise fs).length := (hl.flatMap tlvBytes).length_le
  have heq : (serialise l).length = (serialise [f1, f2, f3, f4, f5, f6, f7]).length :=
    (hperm.flatMap_right tlvBytes).length_eq
  have hseven : (serialise [f1, f2, f3, f4, f5, f6, f7]).length = 61 + req.taskId.length + req.source.length +
      req.destination.length + req.kind.length + req.payload.length := by
    simp only [serialise, List.flatMap_cons, List.flatMap_nil, List.length_append, length_tlvBytes, List.length_nil, v1, v2,
      v3, v4, v5, v6, v7, List.length_singleton, length_be]
    omega
  omega

/-! ## The response -/

def responseFields (r : BrokerResponse) : List FieldView :=
  [⟨1, wtUtf8, 0, r.taskId⟩, ⟨2, wtU8, 0, [r.status.raw]⟩, ⟨3, wtI64, 0, be 8 r.selectedGpu.toInt64.toUInt64.toNat⟩,
    ⟨4, wtU64, 0, be 8 r.latencyMs.toNat⟩, ⟨5, wtBytes, 0, r.result⟩, ⟨6, wtUtf8, 0, r.error⟩,
    ⟨7, wtUtf8, 0, backendName r.backend⟩]

structure Brk2ResponseFits (limits : ProtocolLimits) (r : BrokerResponse) : Prop where
  result : r.result.length ≤ limits.maxPayloadBytes
  strings : r.taskId.length ≤ limits.maxStringBytes ∧ r.error.length ≤ limits.maxStringBytes
  wide : r.taskId.length < 256 ^ 4 ∧ r.result.length < 256 ^ 4 ∧ r.error.length < 256 ^ 4
  region : (serialise (responseFields r)).length ≤ limits.maxPayloadBytes
  frame : 32 + (serialise (responseFields r)).length ≤ limits.maxFrameBytes

theorem putField_ok {p data o : Bytes} {id : UInt16} {type flags : UInt8} :
    putField p id type data flags = .ok o ↔ data.length < 256 ^ 4 ∧ o = p ++ tlvBytes ⟨id, type, flags, data⟩ := by
  simp only [putField, except_bind_ok, failIf_ok, except_pure_ok, exists_const, tlvBytes, pre, List.append_assoc]
  refine ⟨?_, ?_⟩
  · intro h
    obtain ⟨h, rfl⟩ := h
    exact ⟨by omega, rfl⟩
  · intro h
    obtain ⟨h, rfl⟩ := h
    exact ⟨by omega, rfl⟩

theorem length_backendName (b : BackendKind) : (backendName b).length = 3 := by cases b <;> rfl

theorem encodeBrk2ResponseBody_ok {r : BrokerResponse} {requestId : UInt64} {limits : ProtocolLimits} {out : Bytes} :
    encodeBrk2ResponseBody r requestId limits = .ok out ↔ Brk2ResponseFits limits r ∧
      out = envelope msgResponse (flagResponse ||| flagEndStream) requestId brk2SchemaResponse
        (serialise (responseFields r)) := by
  have hserial : serialise (responseFields r) = [] ++ tlvBytes ⟨1, wtUtf8, 0, r.taskId⟩ ++
      tlvBytes ⟨2, wtU8, 0, [r.status.raw]⟩ ++ tlvBytes ⟨3, wtI64, 0, be 8 r.selectedGpu.toInt64.toUInt64.toNat⟩ ++
      tlvBytes ⟨4, wtU64, 0, be 8 r.latencyMs.toNat⟩ ++ tlvBytes ⟨5, wtBytes, 0, r.result⟩ ++
      tlvBytes ⟨6, wtUtf8, 0, r.error⟩ ++ tlvBytes ⟨7, wtUtf8, 0, backendName r.backend⟩ := by
    simp [serialise, responseFields]
  simp only [encodeBrk2ResponseBody, fieldStr, fieldU8, fieldI64, fieldU64, fieldBytes, except_bind_ok, failIf_ok, putField_ok,
    except_pure_ok, exists_const]
  simp only [and_assoc, exists_and_left, exists_eq_left, ← hserial, brk2HeaderBytes, not_or, Nat.not_lt, gt_iff_lt]
  refine ⟨?_, ?_⟩
  · intro h
    obtain ⟨hr, ht, he, w1, -, -, -, w5, w6, -, hp, hf, rfl⟩ := h
    exact ⟨⟨hr, ⟨ht, he⟩, ⟨w1, w5, w6⟩, hp, hf⟩, rfl⟩
  · intro h
    obtain ⟨h, rfl⟩ := h
    exact ⟨h.result, h.strings.1, h.strings.2, h.wide.1, by simp, by simp, by simp, h.wide.2.1, h.wide.2.2,
      by rw [length_backendName]; decide, h.region, h.frame, rfl⟩

theorem length_responseFields (r : BrokerResponse) :
    (serialise (responseFields r)).length = 76 + r.taskId.length + r.result.length + r.error.length := by
  simp only [responseFields, serialise, List.flatMap_cons, List.flatMap_nil, List.length_append, length_tlvBytes,
    List.length_nil, List.length_singleton, length_be, length_backendName]
  omega

end Overhauled.Broker
