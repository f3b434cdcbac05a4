/-
  Overhauled.Server.Outbound — what the socket has accepted over a session's life.

  Every frame is sent under the mutex, its length before its body, each by a loop of
  partial sends. A send that fails ends the loop. A worker then gives up its frame;
  the reader's senders of protocol errors go on from the length to the body. Neither
  forbids further writing, so the next writer appends to what was left:
  `a_torn_frame_is_written_over` is a body cut after its first byte by a send timeout
  and followed by the next frame's length.

  The frames are those someone took the mutex to write; a frame of which nothing was
  accepted is left out (`List.Sublist`). Any bytes at all begin some concatenation of
  frames, so it is these frames the bytes have to be compared with.

  Proved: `outbound_frames`, for every run in which the socket accepts nothing more
  once a frame has been torn, under a frame limit below 2^32.
-/

import Overhauled.Server.Correlation

namespace Overhauled.Server

open Wire Broker Machine

def St.begunBodies (s : St) : List Bytes := s.begun.map (·.body)

def allFrames (bodies : List Bytes) : Bytes := bodies.flatMap frameBytes

/-- The socket accepts bytes although an earlier frame was torn. -/
def appendsToTorn (s : St) : Ev → Bool
  | .send (.accepted n) => s.torn && decide (0 < n) && s.writing.isSome
  | _ => false

/-- The bytes are whole frames, and then the part of the frame being written that was accepted. -/
def Intact (s : St) : Prop :=
  match s.writing with
  | none => ∃ bodies, bodies.Sublist s.begunBodies ∧ s.out = allFrames bodies
  | some w => ∃ bodies body, (bodies ++ [body]).Sublist s.begunBodies ∧
      s.out = allFrames bodies ++ (frameBytes body).take w.sent ∧
      w.left ++ w.next.getD [] = (frameBytes body).drop w.sent

/-- The bytes begin a concatenation of frames. -/
def Begins (s : St) : Prop := ∃ bodies, bodies.Sublist s.begunBodies ∧ s.out <+: allFrames bodies

structure Streaming (s : St) : Prop where
  begins : Begins s
  intact : s.torn = false → Intact s

section
variable {cfg : BrokerServerConfig} {s s' : St} {e : Ev}

theorem allFrames_concat (bodies : List Bytes) (body : Bytes) :
    allFrames (bodies ++ [body]) = allFrames bodies ++ frameBytes body := by
  simp [allFrames]

theorem begins_of_intact (h : Intact s) : Begins s := by
  unfold Intact at h
  split at h
  next =>
    obtain ⟨bodies, hsub, hout⟩ := h
    exact ⟨bodies, hsub, hout ▸ List.prefix_refl _⟩
  next w hw =>
    obtain ⟨bodies, body, hsub, hout, -⟩ := h
    refine ⟨bodies ++ [body], hsub, ?_⟩
    rw [hout, allFrames_concat]
    exact (List.prefix_append_right_inj _).mpr (List.take_prefix _ _)

theorem Streaming.same (h : Streaming s) (hb : s'.begunBodies = s.begunBodies) (ho : s'.out = s.out)
    (hw : s'.writing = s.writing) (ht : s'.torn = s.torn) : Streaming s' := by
  obtain ⟨h1, h2⟩ := h
  refine ⟨?_, ?_⟩
  · simpa only [Begins, hb, ho] using h1
  · simpa only [Intact, hb, ho, hw, ht] using h2

theorem Streaming.start (h : Streaming s) (hfree : s.writing = none) {holder answers : Option Nat} {body : Bytes} :
    Streaming (startWrite s holder answers body) := by
  have hgrow : ∀ {bodies : List Bytes}, bodies.Sublist s.begunBodies →
      bodies.Sublist (startWrite s holder answers body).begunBodies := by
    intro bodies hsub
    simp only [St.begunBodies, startWrite, List.map_append]
    exact hsub.trans (List.sublist_append_left _ _)
  refine ⟨?_, fun ht => ?_⟩
  · obtain ⟨bodies, hsub, hout⟩ := h.begins
    exact ⟨bodies, hgrow hsub, hout⟩
  · have hint := h.intact ht
    simp only [Intact, hfree] at hint
    obtain ⟨bodies, hsub, hout⟩ := hint
    refine ⟨bodies, body, ?_, ?_, ?_⟩
    · simp only [St.begunBodies, startWrite, List.map_append, List.map_cons, List.map_nil]
      exact hsub.append (List.Sublist.refl _)
    · simpa [startWrite] using hout
    · simp [frameBytes]

/-- The bytes accepted go on where the frame was. -/
theorem intact_sent {w w' : Writing} {n : Nat} {bytes : Bytes} (h : Intact s) (hw : s.writing = some w)
    (hbytes : (w.left ++ w.next.getD []).take n = bytes)
    (hrest : w'.left ++ w'.next.getD [] = (w.left ++ w.next.getD []).drop n) (hsent : w'.sent = w.sent + n) :
    Intact { s with out := s.out ++ bytes, writing := some w' } := by
  simp only [Intact, hw] at h
  obtain ⟨bodies, body, hsub, hout, hleft⟩ := h
  refine ⟨bodies, body, hsub, ?_, ?_⟩
  · rw [hsent, hout, List.append_assoc, ← hbytes, hleft, ← List.take_add]
  · rw [hrest, hsent, hleft, List.drop_drop]

/-- The last byte of the frame was accepted. -/
theorem intact_last {w : Writing} (h : Intact s) (hw : s.writing = some w) (hnext : w.next = none) :
    ∃ bodies, bodies.Sublist s.begunBodies ∧ s.out ++ w.left = allFrames bodies := by
  simp only [Intact, hw, hnext, Option.getD_none, List.append_nil] at h
  obtain ⟨bodies, body, hsub, hout, hleft⟩ := h
  refine ⟨bodies ++ [body], hsub, ?_⟩
  rw [allFrames_concat, hout, hleft, List.append_assoc, List.take_append_drop]

/-- The mutex is given back between two frames. -/
theorem Streaming.release {w : Writing} {ok : Bool} (hbegins : Begins s)
    (hwhole : s.torn = false → ∃ bodies, bodies.Sublist s.begunBodies ∧ s.out = allFrames bodies) :
    Streaming (release s w ok) := by
  unfold Server.release
  split
  next => exact ⟨hbegins, hwhole⟩
  next => exact ⟨hbegins, hwhole⟩

theorem streaming_sent (h : Streaming s) {w w' : Writing} {n : Nat} {bytes : Bytes} (htorn : s.torn = false)
    (hw : s.writing = some w) (hbytes : (w.left ++ w.next.getD []).take n = bytes)
    (hrest : w'.left ++ w'.next.getD [] = (w.left ++ w.next.getD []).drop n) (hsent : w'.sent = w.sent + n) :
    Streaming { s with out := s.out ++ bytes, writing := some w' } := by
  have hint := intact_sent (h.intact htorn) hw hbytes hrest hsent
  exact ⟨begins_of_intact hint, fun _ => hint⟩

theorem untorn_of_accepted {w : Writing} {n : Nat} (hok : appendsToTorn s (.send (.accepted n)) = false)
    (hw : s.writing = some w) (h0 : 0 < n) : s.torn = false := by
  simpa [appendsToTorn, hw, h0] using hok

/-- What was accepted of a frame given up before its first byte is nothing. -/
theorem intact_untouched {w : Writing} (h : Intact s) (hw : s.writing = some w) (hsent : w.sent = 0) :
    ∃ bodies, bodies.Sublist s.begunBodies ∧ s.out = allFrames bodies := by
  simp only [Intact, hw, hsent, List.take_zero, List.append_nil] at h
  obtain ⟨bodies, body, hsub, hout, -⟩ := h
  exact ⟨bodies, (List.sublist_append_left _ _).trans hsub, hout⟩

theorem streaming_step (h : Streaming s) (heff : Effect cfg s e s') (hok : appendsToTorn s e = false) :
    Streaming s' := by
  cases heff with
  | startRejection hr hfree => exact (h.start hfree).same rfl rfl rfl rfl
  | @startResponse i env w body hv hp hfree =>
    have hsame : Streaming (setProgress s i .writing) := h.same rfl rfl rfl rfl
    exact hsame.start hfree
  | @sendPart w n hw h0 hn =>
    refine streaming_sent h (untorn_of_accepted hok hw h0) hw ?_ ?_ rfl
    · exact List.take_append_of_le_length (Nat.le_of_lt hn)
    · exact (List.drop_append_of_le_length (Nat.le_of_lt hn)).symm
  | @sendLength w n body hw h0 hn hnext =>
    refine streaming_sent (n := w.left.length) h (untorn_of_accepted hok hw h0) hw ?_ ?_ rfl
    · exact List.take_left
    · rw [List.drop_left, hnext]
      exact List.append_nil _
  | @sendLast w n hw h0 hn hnext =>
    have hwhole := intact_last (h.intact (untorn_of_accepted hok hw h0)) hw hnext
    refine Streaming.release ?_ fun _ => hwhole
    obtain ⟨bodies, hsub, hout⟩ := hwhole
    exact ⟨bodies, hsub, hout ▸ List.prefix_refl _⟩
  | @skip w r body hw hends hh hnext =>
    refine ⟨h.begins, fun ht => ?_⟩
    simp [Writing.tears, hh, hnext] at ht
  | @giveUp w r hw hends =>
    refine Streaming.release h.begins fun ht => ?_
    have htorn : s.torn = false ∧ w.tears = false := by simpa using ht
    have hsent : w.sent = 0 := by
      have := htorn.2
      simp only [Writing.tears, decide_eq_false_iff_not, not_or] at this
      omega
    exact intact_untouched (h.intact htorn.1) hw hsent
  -- the other steps send nothing and take no mutex
  | _ => exact h.same rfl rfl rfl rfl

theorem length_envelope (type flags : UInt16) (requestId : UInt64) (schema : UInt32) (payload : Bytes) :
    (envelope type flags requestId schema payload).length = 32 + payload.length := by
  simp only [envelope, List.length_append, length_be, List.length_singleton]

/-- No encoder exceeds the frame limit. -/
theorem length_encodeReply {limits : ProtocolLimits} {useBrk2 : Bool} {requestId : UInt64} {response : BrokerResponse}
    {body : Bytes} (h : encodeReply limits useBrk2 requestId response = .ok body) :
    body.length ≤ limits.maxFrameBytes := by
  unfold encodeReply at h
  split at h
  next =>
    obtain ⟨hfits, rfl⟩ := encodeBrk2ResponseBody_ok.mp h
    rw [length_envelope]
    exact hfits.frame
  next =>
    obtain ⟨hfits, rfl⟩ := encodeResponseFrame_ok.mp h
    exact hfits.frame

end

/-- While nothing is accepted after a torn frame, the bytes accepted begin a concatenation of
    complete frames, the session's own and in their order. -/
theorem outbound_frames (cfg : BrokerServerConfig) (es : List Ev) (hlimit : cfg.limits.maxFrameBytes < 2 ^ 32)
    (hrun : EachStep (step cfg) (fun s e => appendsToTorn s e = false) {} es) :
    ∃ bodies, bodies.Sublist (exec (step cfg) {} es).begunBodies ∧ (∀ body ∈ bodies, body.length < 2 ^ 32) ∧
      (exec (step cfg) {} es).out <+: allFrames bodies := by
  have hstream : Streaming (exec (step cfg) {} es) := by
    refine exec_each (I := fun s : St => Streaming s) hrun ?_ ?_
    · exact ⟨⟨[], List.Sublist.refl _, List.prefix_refl _⟩, fun _ => ⟨[], List.Sublist.refl _, rfl⟩⟩
    · intro s e h hok
      exact streaming_step h (step_effect cfg s e) hok
  obtain ⟨bodies, hsub, hout⟩ := hstream.begins
  refine ⟨bodies, hsub, fun body hbody => ?_, hout⟩
  obtain ⟨o, ho, rfl⟩ := List.mem_map.mp (hsub.subset hbody)
  obtain ⟨_, _, _, henc⟩ := (owned_genuine_run cfg es).2.encoded o ho
  exact Nat.lt_of_le_of_lt (length_encodeReply henc) hlimit

/-! A client whose frames of one byte are turned away. -/

/-- A frame of one byte arrives, and the reader comes to write its rejection. -/
def rejectsOne : List Ev := [.reader, .reader, .recv (.data (be 4 1)), .recv (.data [0]), .reader, .reader]

/-- The first rejection goes out in pieces, the second not at all. -/
def piecewiseRun : List Ev :=
  rejectsOne ++ [.send (.accepted 3), .send .interrupted, .send (.accepted 9), .send (.accepted 1000)] ++
    [.send (.accepted 1000)] ++ rejectsOne ++ [.send .timedOut, .send .timedOut]

theorem outbound_frames_rejections :
    ∃ bodies, bodies.Sublist (exec (step {}) {} piecewiseRun).begunBodies ∧ (∀ body ∈ bodies, body.length < 2 ^ 32) ∧
      (exec (step {}) {} piecewiseRun).out <+: allFrames bodies :=
  outbound_frames {} piecewiseRun (by decide) (by decide +kernel)

/-- The first rejection's body is cut after one byte; the second is written after it. -/
def tornRun : List Ev :=
  rejectsOne ++ [.send (.accepted 4), .send (.accepted 1), .send .timedOut] ++ rejectsOne ++
    [.send (.accepted 4), .send (.accepted 1000)]

theorem a_torn_frame_is_written_over :
    ¬ ∃ bodies, bodies.Sublist (exec (step {}) {} tornRun).begunBodies ∧
      (exec (step {}) {} tornRun).out <+: allFrames bodies := by
  intro h
  obtain ⟨bodies, hsub, hout⟩ := h
  have hnone : ∀ bodies ∈ (exec (step {}) {} tornRun).begunBodies.sublists,
      ¬ (exec (step {}) {} tornRun).out <+: allFrames bodies := by
    decide +kernel
  exact hnone bodies (List.mem_sublists.mpr hsub) hout

end Overhauled.Server
