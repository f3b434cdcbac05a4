/-
  Overhauled.Broker.Echo — the two kinds the broker acknowledges by sending the frame back.

  The handlers decode the payload and encode the frame again, and answer with what the
  encoder gives (`docs/BROKER_PROTOCOL.md`, "Broker handling"). Decoder and encoder of each
  format meet in one layout, so decoding undoes encoding (`payload_codecs_round_trip`) and,
  the other way round, a payload that decodes is encoded to its own bytes: the answer is the
  payload, and the branch for a frame that cannot be encoded again is never taken
  (`echo_kinds_acknowledge`).
-/

import Overhauled.Broker.Answers

namespace Overhauled.Broker

open Wire
open Geo (GeospatialFrame encodeNxr1Frame decodeNxr1Frame encodeNxr1Frame_ok decodeNxr1Frame_ok)
open Media (MediaStreamFrame encodeMediaStreamFrame decodeMediaStreamFrame encodeMediaStreamFrame_ok
  decodeMediaStreamFrame_ok)

theorem encodeNxr1Frame_accepts (host : Host) (f : GeospatialFrame) (maxPayloadBytes : Nat) :
    (∃ bytes, encodeNxr1Frame host f maxPayloadBytes = .ok bytes) ↔
      (∀ bits ∈ f.fields, exponent bits ≠ 2047) ∧ f.payload.length ≤ min maxPayloadBytes (2 ^ 32 - 1) := by
  have hfinite : (∀ bits ∈ f.fields, isFinite bits = true) ↔ ∀ bits ∈ f.fields, exponent bits ≠ 2047 := by
    simp only [isFinite, decide_eq_true_eq]
  rw [← hfinite]
  refine ⟨?_, ?_⟩
  · intro h
    obtain ⟨bytes, h⟩ := h
    have hfits := (encodeNxr1Frame_ok.mp h).1
    have hpayload := hfits.payload
    exact ⟨hfits.finite, by omega⟩
  · intro h
    exact ⟨_, encodeNxr1Frame_ok.mpr ⟨⟨h.1, by omega⟩, rfl⟩⟩

/-- Under one set of limits each decoder gives back, bit for bit, the frame its encoder was
    given; and NXR1's encoder accepts exactly the finite frames within the payload limit. -/
theorem payload_codecs_round_trip :
    (∀ (frame : MediaStreamFrame) (maxPayloadBytes maxStringBytes : Nat) (bytes : Bytes),
      encodeMediaStreamFrame frame maxPayloadBytes maxStringBytes = .ok bytes →
        decodeMediaStreamFrame bytes maxPayloadBytes maxStringBytes = .ok frame) ∧
    (∀ (host : Host) (frame : GeospatialFrame) (maxPayloadBytes : Nat) (bytes : Bytes),
      encodeNxr1Frame host frame maxPayloadBytes = .ok bytes → decodeNxr1Frame host bytes maxPayloadBytes = .ok frame) ∧
    ∀ (host : Host) (frame : GeospatialFrame) (maxPayloadBytes : Nat),
      (∃ bytes, encodeNxr1Frame host frame maxPayloadBytes = .ok bytes) ↔
        (∀ bits ∈ frame.fields, exponent bits ≠ 2047) ∧ frame.payload.length ≤ min maxPayloadBytes (2 ^ 32 - 1) := by
  refine ⟨?_, ?_, encodeNxr1Frame_accepts⟩
  · intro frame maxPayloadBytes maxStringBytes bytes h
    exact decodeMediaStreamFrame_ok.mpr (encodeMediaStreamFrame_ok.mp h)
  · intro host frame maxPayloadBytes bytes h
    exact decodeNxr1Frame_ok.mpr (encodeNxr1Frame_ok.mp h)

-- Negative zero, the smallest subnormal and the largest finite number come back as they went in.
example : decodeNxr1Frame .little
    (Geo.nxr1Bytes .little { latitude := 0x8000000000000000, longitude := 1, altitude := 0x7fefffffffffffff, payload := [7] }) 1 =
      .ok { latitude := 0x8000000000000000, longitude := 1, altitude := 0x7fefffffffffffff, payload := [7] } := by
  decide +kernel

/-- The payload comes back exactly when it decodes, and then the frame it decodes to is
    encoded to it; otherwise nothing comes back. -/
structure Acknowledges {α : Type} (request : BrokerRequest) (decoded : Except Stop α) (encode : α → Except Bytes Bytes)
    (response : BrokerResponse) : Prop where
  accepted : ∀ frame, decoded = .ok frame →
    encode frame = .ok request.payload ∧ response.status = .ok ∧ response.result = request.payload
  refused : ∀ e, decoded = .error e → response.status = .rejected ∧ response.result = []

theorem acknowledges_echo {α : Type} {request : BrokerRequest} {decoded : Except Stop α} {encode : α → Except Bytes Bytes}
    (hround : ∀ frame, decoded = .ok frame → encode frame = .ok request.payload) :
    Acknowledges request decoded encode (echoResponse request decoded encode) := by
  refine ⟨?_, ?_⟩
  · intro frame hdec
    rw [echoResponse_ok hdec (hround frame hdec)]
    exact ⟨hround frame hdec, rfl, rfl⟩
  · intro e hdec
    rw [echoResponse_error hdec]
    exact ⟨rfl, rfl⟩

/-- Both echo kinds, whatever the limits, the payload and the host. -/
theorem echo_kinds_acknowledge (svc : BrokerService) (request : BrokerRequest) :
    Acknowledges request (decodeNxr1Frame svc.host request.payload svc.config.protocolLimits.maxPayloadBytes)
        (fun frame => encodeNxr1Frame svc.host frame svc.config.protocolLimits.maxPayloadBytes)
        (handleGeospatialFrameRequest svc request) ∧
      Acknowledges request
        (decodeMediaStreamFrame request.payload svc.config.protocolLimits.maxPayloadBytes
          svc.config.protocolLimits.maxStringBytes)
        (fun frame => encodeMediaStreamFrame frame svc.config.protocolLimits.maxPayloadBytes
          svc.config.protocolLimits.maxStringBytes)
        (handleMediaStreamRequest svc request) := by
  rw [geospatial_eq_echo, media_eq_echo]
  refine ⟨acknowledges_echo ?_, acknowledges_echo ?_⟩
  · intro frame hdec
    exact encodeNxr1Frame_ok.mpr (decodeNxr1Frame_ok.mp hdec)
  · intro frame hdec
    exact encodeMediaStreamFrame_ok.mpr (decodeMediaStreamFrame_ok.mp hdec)

end Overhauled.Broker
