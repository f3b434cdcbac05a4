/-
  Overhauled.Server.Framing — what a session makes of the bytes its client sends, however
  the network cuts them up (`session_loop` and `read_exact` of `src/broker_server.cpp`).

  `Inbound` is a session together with what it has not received yet. A `recv` delivers a
  piece of that, or its end; it may be interrupted any number of times. The workers and
  the reader's own replies go on in between as in `Session`. There is no timeout and
  nobody stops the server.

  `cut` is what the stream spells: lengths of four bytes in network order, in
  1..max_frame_bytes, each with that many bytes. The loop ends within a frame with the
  stream, or after a length out of range.

  (1) What the loop has read is always the beginning of that, and the whole of it, with
      the rest of the stream untouched, once the loop is left (`inbound_framing`), as
      long as every reply of the reader itself can be encoded. When one cannot, its
      exception ends the session: `an_unencodable_rejection_ends_the_session`.
  (2) Every run can be continued until the loop is left (`Inbound.canLeave`).
-/

import Overhauled.Server.Inflight
import Overhauled.Wire.Stream

namespace Overhauled.Server

open Wire Broker Machine

structure Inbound where
  session : St := {}
  unread : Bytes

inductive InboundEv where
  | recv (more : Nat)
  | interrupted
  | reader
  | send (r : SendResult)
  | worker (i : Nat) (env : Env)

/-- What `read_exact` asks `recv` for. -/
def ReaderAt.asked : ReaderAt → Nat
  | .readLen got => 4 - got.length
  | .readBody len got => len - got.length
  | _ => 0

namespace Inbound

def receive (cfg : BrokerServerConfig) (s : Inbound) (w : Bytes) : Inbound :=
  { session := Server.step cfg s.session (.recv (.data w)), unread := s.unread.drop w.length }

def step (cfg : BrokerServerConfig) (s : Inbound) : InboundEv → Inbound
  | .recv more =>
    if s.session.reader.reading then receive cfg s (piece s.session.reader.asked more s.unread) else s
  | .interrupted => { s with session := Server.step cfg s.session (.recv .interrupted) }
  | .reader => { s with session := Server.step cfg s.session .reader }
  | .send r => { s with session := Server.step cfg s.session (.send r) }
  | .worker i env => { s with session := Server.step cfg s.session (.worker i env) }

end Inbound

/-! ## (1) What a stream spells -/

section
variable (cfg : BrokerServerConfig)

/-- The frames of a stream after those in `frames`, and what is left of it where the loop
    ends. -/
def cut (frames : List Bytes) (stream : Bytes) : List Bytes × Bytes :=
  if stream.length < 4 then (frames, [])
  else
    let len := ofBe (stream.take 4)
    if legalLength cfg len = false then (frames, stream.drop 4)
    else if (stream.drop 4).length < len then (frames, [])
    else cut (frames ++ [(stream.drop 4).take len]) ((stream.drop 4).drop len)
termination_by stream.length
decreasing_by
  rw [List.length_drop, List.length_drop]
  omega

/-- The same of a stream that begins with the body of a frame. -/
def cutBody (frames : List Bytes) (len : Nat) (stream : Bytes) : List Bytes × Bytes :=
  if stream.length < len then (frames, []) else cut cfg (frames ++ [stream.take len]) (stream.drop len)

variable {cfg}

theorem cut_short {frames : List Bytes} {stream : Bytes} (h : stream.length < 4) : cut cfg frames stream = (frames, []) := by
  rw [cut, if_pos h]

theorem cut_length {frames : List Bytes} {got stream : Bytes} (h : got.length = 4) :
    cut cfg frames (got ++ stream) =
      if legalLength cfg (ofBe got) = false then (frames, stream) else cutBody cfg frames (ofBe got) stream := by
  rw [cut, if_neg (by rw [List.length_append]; omega), List.take_left' h, List.drop_left' h]
  rfl

theorem cutBody_whole {frames : List Bytes} {got stream : Bytes} :
    cutBody cfg frames got.length (got ++ stream) = cut cfg (frames ++ [got]) stream := by
  rw [cutBody, if_neg (by rw [List.length_append]; omega), List.take_left' rfl, List.drop_left' rfl]

/-- The frames read so far are the first ones. -/
theorem prefix_cut (frames : List Bytes) (stream : Bytes) : frames <+: (cut cfg frames stream).1 := by
  fun_induction cut cfg frames stream with
  | case1 => exact List.prefix_refl _
  | case2 => exact List.prefix_refl _
  | case3 => exact List.prefix_refl _
  | case4 frames stream _ _ _ _ ih => exact (List.prefix_append _ _).trans ih

/-- What is read and what is to come are the stream, at the end of a frame: the loop ends
    there or goes on. -/
def Due (cfg : BrokerServerConfig) (stream : Bytes) (frames : List Bytes) (unread : Bytes) (leave : Bool) : Prop :=
  if leave then (frames, unread) = cut cfg [] stream else cut cfg frames unread = cut cfg [] stream

/-- Where the reader stands, what it has read and what is to come are the stream. -/
def Agrees (cfg : BrokerServerConfig) (stream : Bytes) (s : St) (unread : Bytes) : Prop :=
  match s.reader with
  | .readLen got => got.length < 4 ∧ cut cfg s.frames (got ++ unread) = cut cfg [] stream
  | .readBody len got => got.length < len ∧ cutBody cfg s.frames len (got ++ unread) = cut cfg [] stream
  | .lock r => Due cfg stream s.frames unread r.leave
  | .sending leave => Due cfg stream s.frames unread leave
  | .top | .reap _ | .received _ => Due cfg stream s.frames unread false
  | .disable | .erase | .shutdown | .joining | .closed => Due cfg stream s.frames unread true

/-- No reply of the reader itself makes its encoder throw. -/
def Encodable (cfg : BrokerServerConfig) (s : Inbound) : InboundEv → Prop
  | .reader => ∀ r, s.session.reader = .lock r → encodes (r.body cfg.limits) = true
  | _ => True

instance Encodable.decidable (cfg : BrokerServerConfig) (s : Inbound) (e : InboundEv) : Decidable (Encodable cfg s e) :=
  match e with
  | .reader =>
    match h : s.session.reader with
    | .lock r =>
      decidable_of_iff (encodes (r.body cfg.limits) = true) ⟨fun hr r' h' => by cases h.symm.trans h'; exact hr, fun hr => hr r h⟩
    | .top | .reap _ | .readLen _ | .readBody _ _ | .received _ | .sending _ | .disable | .erase | .shutdown | .joining
    | .closed => isTrue fun r h' => by cases h.symm.trans h'
  | .recv _ | .interrupted | .send _ | .worker _ _ => isTrue trivial

section
variable {stream unread : Bytes} {s : St}

theorem agrees_congr {s' : St} (hr : s'.reader = s.reader) (hf : s'.frames = s.frames) :
    Agrees cfg stream s' unread ↔ Agrees cfg stream s unread := by
  unfold Agrees
  rw [hr, hf]

theorem agrees_goOn {s' : St} {leave : Bool} (hr : s'.reader = goOn leave)
    (h : Due cfg stream s'.frames unread leave) : Agrees cfg stream s' unread := by
  unfold Agrees
  rw [hr]
  cases leave <;> exact h

theorem agrees_leaving (hp : s.reader.leaving = true) :
    Agrees cfg stream s unread ↔ (s.frames, unread) = cut cfg [] stream := by
  unfold Agrees
  cases hr : s.reader <;> rw [hr] at hp <;> first | exact Iff.rfl | cases hp

theorem agrees_reject {r : Rejection} (h : Due cfg stream s.frames unread r.leave) :
    Agrees cfg stream (reject s r) unread := by
  unfold reject
  split
  next => exact h
  next => exact agrees_goOn rfl h

theorem agrees_receive {frame : Bytes} (h : Due cfg stream s.frames unread false) :
    Agrees cfg stream (receive cfg s frame) unread := by
  unfold receive
  dsimp only
  split
  next => exact agrees_reject h
  next =>
    split
    next => exact agrees_reject h
    next => exact h

theorem agrees_reader (hrun : s.running = true) (h : Agrees cfg stream s unread)
    (henc : ∀ r, s.reader = .lock r → encodes (r.body cfg.limits) = true) :
    Agrees cfg stream (readerStep cfg s) unread := by
  have hsame := h
  unfold Agrees at h
  unfold readerStep
  split
  next hr =>
    rw [hr] at h
    simp only [hrun, if_true]
    exact h
  next k hr =>
    rw [hr] at h
    split
    next => exact ⟨Nat.zero_lt_succ 3, h⟩
    next =>
      split
      next => exact (agrees_congr rfl rfl).mpr hsame
      next => exact h
  next frame hr =>
    rw [hr] at h
    exact agrees_receive h
  next r hr =>
    have hbody := henc r hr
    rw [hr] at h
    split
    next => exact hsame
    next =>
      split
      next =>
        split
        next e he =>
          rw [he] at hbody
          cases hbody
        next => exact h
      next => exact agrees_goOn rfl h
  next hr =>
    rw [hr] at h
    exact h
  next hr =>
    rw [hr] at h
    exact h
  next hr =>
    rw [hr] at h
    exact h
  next hr =>
    rw [hr] at h
    split
    next => exact h
    next =>
      split
      next => exact (agrees_congr rfl rfl).mpr hsame
      next => exact hsame
  all_goals exact hsame

theorem agrees_gotLength {got : Bytes} (hle : got.length ≤ 4)
    (h : cut cfg s.frames (got ++ unread) = cut cfg [] stream) : Agrees cfg stream (gotLength cfg s got) unread := by
  unfold gotLength
  split
  next hlt => exact ⟨hlt, h⟩
  next hge =>
    rw [cut_length (by omega)] at h
    split
    next hlegal =>
      have hpos : ¬ (ofBe got = 0 ∨ ofBe got > cfg.limits.maxFrameBytes) := of_decide_eq_true hlegal
      rw [if_neg (by rw [hlegal]; decide)] at h
      exact ⟨by rw [List.length_nil]; omega, h⟩
    next hbad =>
      rw [if_pos (Bool.eq_false_iff.mpr hbad)] at h
      exact agrees_reject h

theorem agrees_gotBody {len : Nat} {got : Bytes} (hle : got.length ≤ len)
    (h : cutBody cfg s.frames len (got ++ unread) = cut cfg [] stream) : Agrees cfg stream (gotBody s len got) unread := by
  unfold gotBody
  split
  next hlt => exact ⟨hlt, h⟩
  next hge =>
    have hlen : len = got.length := by omega
    subst hlen
    rw [cutBody_whole] at h
    exact h

theorem agrees_recv {more : Nat} (h : Agrees cfg stream s unread) (hreading : s.reader.reading = true) :
    Agrees cfg stream (recvStep cfg s (.data (piece s.reader.asked more unread)))
      (unread.drop (piece s.reader.asked more unread).length) := by
  unfold Agrees at h
  cases hr : s.reader with
  | readLen got =>
    rw [hr] at h
    obtain ⟨hgot, h⟩ := h
    have hle := @length_piece_le (4 - got.length) more unread
    rw [show (ReaderAt.readLen got).asked = 4 - got.length from rfl]
    simp only [recvStep, hr, readExact]
    by_cases hnil : piece (4 - got.length) more unread = []
    · have hend := (piece_eq_nil_iff.mp hnil).resolve_left (by omega)
      rw [hend, List.append_nil, cut_short hgot] at h
      rw [if_pos hnil, hnil, hend]
      exact h
    · rw [if_neg hnil, List.take_of_length_le hle]
      refine agrees_gotLength ?_ ?_
      · rw [List.length_append]
        omega
      · rwa [piece_append_rest]
  | readBody len got =>
    rw [hr] at h
    obtain ⟨hgot, h⟩ := h
    have hle := @length_piece_le (len - got.length) more unread
    rw [show (ReaderAt.readBody len got).asked = len - got.length from rfl]
    simp only [recvStep, hr, readExact]
    by_cases hnil : piece (len - got.length) more unread = []
    · have hend := (piece_eq_nil_iff.mp hnil).resolve_left (by omega)
      rw [hend, List.append_nil, cutBody, if_pos hgot] at h
      rw [if_pos hnil, hnil, hend]
      exact h
    · rw [if_neg hnil, List.take_of_length_le hle]
      refine agrees_gotBody ?_ ?_
      · rw [List.length_append]
        omega
      · rwa [piece_append_rest]
  | _ =>
    rw [hr] at hreading
    cases hreading

/-- Steps that are neither the reader's nor a `recv`'s. -/
theorem agrees_other {s' : St} (h : Agrees cfg stream s unread) (hf : s'.frames = s.frames)
    (hr : s'.reader = s.reader ∨ ∃ leave, s.reader = .sending leave ∧ s'.reader = goOn leave) :
    Agrees cfg stream s' unread := by
  rcases hr with hr | ⟨leave, hr, hr'⟩
  · exact (agrees_congr hr hf).mpr h
  · refine agrees_goOn hr' ?_
    unfold Agrees at h
    rw [hr] at h
    rw [hf]
    exact h

theorem prefix_cutBody (frames : List Bytes) (len : Nat) (stream : Bytes) : frames <+: (cutBody cfg frames len stream).1 := by
  unfold cutBody
  split
  next => exact List.prefix_refl _
  next => exact (List.prefix_append _ _).trans (prefix_cut _ _)

theorem prefix_of_due {leave : Bool} (h : Due cfg stream s.frames unread leave) : s.frames <+: (cut cfg [] stream).1 := by
  cases leave with
  | false =>
    have h : cut cfg s.frames unread = cut cfg [] stream := h
    exact h ▸ prefix_cut _ _
  | true =>
    have h : (s.frames, unread) = cut cfg [] stream := h
    exact h ▸ List.prefix_refl _

theorem prefix_of_agrees (h : Agrees cfg stream s unread) : s.frames <+: (cut cfg [] stream).1 := by
  unfold Agrees at h
  split at h
  · exact h.2 ▸ prefix_cut _ _
  · exact h.2 ▸ prefix_cutBody _ _ _
  all_goals exact prefix_of_due h

end

/-! ### Runs -/

section
variable {s s' : St} {e : Ev}

theorem release_keeps (s : St) (w : Writing) (ok : Bool) :
    (release s w ok).running = s.running ∧ (release s w ok).frames = s.frames := by
  unfold release
  split <;> exact ⟨rfl, rfl⟩

theorem running_step (heff : Effect cfg s e s') (he : e ≠ .stop) : s'.running = s.running := by
  cases heff with
  | stop => exact absurd rfl he
  | sendLast => exact (release_keeps _ _ _).1
  | giveUp => exact (release_keeps _ _ _).1
  | _ => rfl

theorem frames_step (heff : Effect cfg s e s') (he : ∀ r, e ≠ .recv r) : s'.frames = s.frames := by
  cases heff with
  | frame => exact absurd rfl (he _)
  | sendLast => exact (release_keeps _ _ _).2
  | giveUp => exact (release_keeps _ _ _).2
  | _ => rfl

end

theorem agrees_step {stream : Bytes} (s : Inbound) (e : InboundEv)
    (h : s.session.running = true ∧ Agrees cfg stream s.session s.unread) (henc : Encodable cfg s e) :
    (Inbound.step cfg s e).session.running = true ∧
      Agrees cfg stream (Inbound.step cfg s e).session (Inbound.step cfg s e).unread := by
  obtain ⟨hrun, h⟩ := h
  have hkeep : ∀ e, e ≠ .stop → (step cfg s.session e).running = true :=
    fun e he => (running_step (step_effect cfg s.session e) he).trans hrun
  cases e with
  | recv more =>
    unfold Inbound.step
    dsimp only
    split
    next hreading => exact ⟨hkeep _ nofun, agrees_recv h hreading⟩
    next => exact ⟨hrun, h⟩
  | interrupted =>
    refine ⟨hkeep _ nofun, ?_⟩
    -- `read_exact` asks again
    have hsame : recvStep cfg s.session .interrupted = s.session := by
      unfold recvStep
      split <;> rfl
    show Agrees cfg stream (recvStep cfg s.session .interrupted) s.unread
    rwa [hsame]
  | reader => exact ⟨hkeep _ nofun, agrees_reader hrun h henc⟩
  | send r =>
    exact ⟨hkeep _ nofun, agrees_other h (frames_step (step_effect cfg s.session (.send r)) nofun) (reader_sendStep r)⟩
  | worker i env =>
    refine ⟨hkeep _ nofun, agrees_other h (frames_step (step_effect cfg s.session (.worker i env)) nofun) ?_⟩
    exact Or.inl (reader_workerStep i env)

end

/-! ## (2) The loop can be left -/

/-- The reader is at its writing only with the mutex. -/
def Sends (s : St) : Prop := ∀ leave, s.reader = .sending leave → ∃ w, s.writing = some w ∧ w.holder = none

section
variable {cfg : BrokerServerConfig} {s s' : St} {e : Ev}

theorem goOn_ne_sending (leave leave' : Bool) : goOn leave ≠ .sending leave' := by cases leave <;> nofun

theorem Sends.release (h : Sends s) {w : Writing} (hw : s.writing = some w) {ok : Bool} {out : Bytes} {torn : Bool} :
    Sends (Server.release { s with out, torn } w ok) := by
  intro leave hs
  unfold Server.release at hs
  split at hs
  next hh =>
    dsimp only at hs
    split at hs
    next => exact absurd hs (goOn_ne_sending _ _)
    next hne => exact absurd hs (hne leave)
  next i hh =>
    obtain ⟨w', hw', hnone⟩ := h leave hs
    rw [hw] at hw'
    cases hw'
    rw [hh] at hnone
    cases hnone

theorem sends_step (h : Sends s) (heff : Effect cfg s e s') : Sends s' := by
  have hnext : ∀ {w w' : Writing} {out : Bytes} {torn : Bool}, s.writing = some w → w'.holder = w.holder →
      Sends { s with out, torn, writing := some w' } := by
    intro w w' out torn hw hh leave hs
    obtain ⟨v, hv, hnone⟩ := h leave hs
    rw [hw] at hv
    cases hv
    exact ⟨w', rfl, hh.trans hnone⟩
  have hreject : ∀ r, Sends (reject s r) := by
    intro r leave hs
    unfold reject at hs
    dsimp only at hs
    split at hs
    next => cases hs
    next => exact absurd hs (goOn_ne_sending _ _)
  cases heff with
  | idle => exact h
  | stop => exact h
  | look =>
    intro leave hs
    dsimp only at hs
    split at hs <;> cases hs
  | collect => exact h
  | readOn hr hp =>
    rename_i p
    intro leave hs
    dsimp only at hs
    subst hs
    cases hp
  | badLength => exact hreject _
  | turnAway => exact hreject _
  | mute => exact fun leave hs => absurd hs (goOn_ne_sending _ _)
  | startRejection => exact fun _ _ => ⟨_, rfl, rfl⟩
  | windDown hr hp =>
    intro leave hs
    dsimp only at hs
    subst hs
    cases hp
  | join => exact h
  | sendPart hw => exact hnext hw rfl
  | sendLength hw => exact hnext hw rfl
  | sendLast hw => exact h.release hw
  | skip hw => exact hnext hw rfl
  | giveUp hw => exact h.release hw
  | advance => exact h
  | startResponse hw hp hfree =>
    intro leave hs
    obtain ⟨w, hw, -⟩ := h leave hs
    rw [hfree] at hw
    cases hw
  | _ =>
    intro leave hs
    cases hs

end

namespace Inbound

/-- Some continuation leaves the loop. -/
def CanLeave (cfg : BrokerServerConfig) (s : Inbound) : Prop :=
  ∃ es, (exec (step cfg) s es).session.reader.leaving = true

/-- With less of the stream to come the loop can be left. -/
def LeavesSooner (cfg : BrokerServerConfig) (s : Inbound) : Prop :=
  ∀ t : Inbound, t.unread.length < s.unread.length → Sends t.session → CanLeave cfg t

section
variable {cfg : BrokerServerConfig} {s : Inbound}

theorem CanLeave.now (h : s.session.reader.leaving = true) : CanLeave cfg s := ⟨[], h⟩

theorem CanLeave.after (e : InboundEv) (h : CanLeave cfg (step cfg s e)) : CanLeave cfg s := by
  obtain ⟨es, hes⟩ := h
  exact ⟨e :: es, hes⟩

theorem sends_session (h : Sends s.session) (e : InboundEv) : Sends (step cfg s e).session := by
  have hstep : ∀ e, Sends (Server.step cfg s.session e) := fun e => sends_step h (step_effect cfg s.session e)
  cases e with
  | recv more =>
    unfold step
    dsimp only
    split
    next => exact hstep (.recv (.data _))
    next => exact h
  | interrupted => exact hstep (.recv .interrupted)
  | reader => exact hstep .reader
  | send r => exact hstep (.send r)
  | worker i env => exact hstep (.worker i env)

/-- A `recv` ends the loop or takes a byte. -/
theorem canLeave_reading (h : s.session.reader.reading = true)
    (ih : LeavesSooner cfg s) (hs : Sends s.session) :
    CanLeave cfg s := by
  refine .after (.recv 0) ?_
  have hstep : step cfg s (.recv 0) = receive cfg s (piece s.session.reader.asked 0 s.unread) := if_pos h
  by_cases hnil : piece s.session.reader.asked 0 s.unread = []
  · refine .now ?_
    rw [hstep, hnil]
    show (recvStep cfg s.session (.data [])).reader.leaving = true
    unfold recvStep
    split
    next => rfl
    next => rfl
    next hlen hbody =>
      cases hr : s.session.reader with
      | readLen got => exact absurd hr (hlen got)
      | readBody len got => exact absurd hr (hbody len got)
      | _ =>
        rw [hr] at h
        cases h
  · refine ih _ ?_ (sends_session hs _)
    rw [hstep]
    exact length_drop_piece_lt hnil

/-- The pending workers are looked at one by one. -/
theorem canLeave_reap {k n : Nat} (hn : s.session.pending.length - k = n) (hr : s.session.reader = .reap k)
    (ih : LeavesSooner cfg s) : CanLeave cfg s := by
  induction n generalizing s k with
  | zero =>
    have hnone : s.session.pending[k]? = none := List.getElem?_eq_none (by omega)
    refine .after .reader (canLeave_reading ?_ ih ?_)
    · simp only [step, Server.step, readerStep, hr, hnone]
      rfl
    · intro leave hs
      simp only [step, Server.step, readerStep, hr, hnone] at hs
      cases hs
  | succ n ihn =>
    have hk : k < s.session.pending.length := by omega
    have hsome := List.getElem?_eq_getElem hk
    refine .after .reader ?_
    cases hd : s.session.isDone s.session.pending[k] with
    | true =>
      refine @ihn _ k ?_ ?_ ih
      · simp only [step, Server.step, readerStep, hr, hsome, hd, if_true, List.length_eraseIdx_of_lt hk]
        omega
      · simp only [step, Server.step, readerStep, hr, hsome, hd, if_true]
    | false =>
      refine @ihn _ (k + 1) ?_ ?_ ih
      · simp only [step, Server.step, readerStep, hr, hsome, hd, Bool.false_eq_true, if_false]
        omega
      · simp only [step, Server.step, readerStep, hr, hsome, hd, Bool.false_eq_true, if_false]

theorem canLeave_top (hr : s.session.reader = .top)
    (ih : LeavesSooner cfg s) : CanLeave cfg s := by
  refine .after .reader ?_
  cases hrun : s.session.running with
  | false =>
    refine .now ?_
    simp only [step, Server.step, readerStep, hr, hrun, Bool.false_eq_true, if_false]
    rfl
  | true =>
    refine canLeave_reap (k := 0) rfl ?_ ih
    simp only [step, Server.step, readerStep, hr, hrun, if_true]

theorem canLeave_goOn {leave : Bool} (hr : s.session.reader = goOn leave)
    (ih : LeavesSooner cfg s) : CanLeave cfg s := by
  cases leave with
  | false => exact canLeave_top hr ih
  | true => exact .now (by rw [hr]; rfl)

theorem sendStep_idle {s : St} (h : s.writing = none) (r : SendResult) : sendStep s r = s := by simp only [sendStep, h]

/-- Two failed calls of `send` give the mutex back, whoever holds it. -/
theorem writing_failing (s : St) : (sendStep (sendStep s .failed) .failed).writing = none := by
  have hbody : ∀ (t : St) (w : Writing), t.writing = some w → w.holder ≠ none ∨ w.next = none →
      (sendStep t .failed).writing = none := by
    intro t w hw hlast
    simp only [sendStep, hw, sendFailed]
    split
    next hh hnext =>
      rw [hh, hnext] at hlast
      rcases hlast with h | h
      · exact absurd rfl h
      · cases h
    next => exact writing_release _ _
  cases hw : s.writing with
  | none =>
    rw [sendStep_idle hw, sendStep_idle hw]
    exact hw
  | some w =>
    by_cases hlast : w.holder ≠ none ∨ w.next = none
    · rw [sendStep_idle (hbody s w hw hlast)]
      exact hbody s w hw hlast
    · -- the reader sends the body although the length has failed
      obtain ⟨hh, hnext⟩ := not_or.mp hlast
      obtain ⟨body, hbody'⟩ := Option.ne_none_iff_exists'.mp hnext
      refine hbody _ { w with left := body, next := none } ?_ (Or.inr rfl)
      simp only [sendStep, hw, sendFailed, not_not.mp hh, hbody']

theorem canLeave_sending {leave : Bool} (hr : s.session.reader = .sending leave) (hs : Sends s.session)
    (ih : LeavesSooner cfg s) : CanLeave cfg s := by
  refine .after (.send .failed) (.after (.send .failed) ?_)
  have hs2 := @sends_session cfg _ (@sends_session cfg s hs (.send .failed)) (.send .failed)
  have hfree := writing_failing s.session
  rcases @reader_sendStep s.session .failed with h1 | ⟨leave', hr', h1⟩
  · rcases @reader_sendStep (sendStep s.session .failed) .failed with h2 | ⟨leave', -, h2⟩
    · -- the reader would be at its writing without the mutex
      obtain ⟨w, hw, -⟩ := hs2 leave (h2.trans (h1.trans hr))
      cases hfree.symm.trans hw
    · exact canLeave_goOn h2 ih
  · rcases @reader_sendStep (sendStep s.session .failed) .failed with h2 | ⟨leave'', hr'', -⟩
    · exact canLeave_goOn (h2.trans h1) ih
    · exact absurd (h1.symm.trans hr'') (goOn_ne_sending _ _)

theorem canLeave_lock {r : Rejection} (hr : s.session.reader = .lock r)
    (ih : LeavesSooner cfg s) : CanLeave cfg s := by
  refine .after (.send .failed) (.after (.send .failed) ?_)
  have hkeep : ∀ t : St, t.reader = .lock r → (sendStep t .failed).reader = .lock r := by
    intro t ht
    rcases @reader_sendStep t .failed with h | ⟨leave, h, -⟩
    · exact h.trans ht
    · cases ht.symm.trans h
  have hlock := hkeep _ (hkeep _ hr)
  have hfree := writing_failing s.session
  generalize hu : step cfg (step cfg s (.send .failed)) (.send .failed) = u
  have hsession : sendStep (sendStep s.session .failed) .failed = u.session := congrArg session hu
  have hunread : (step cfg (step cfg s (.send .failed)) (.send .failed)).unread = u.unread := congrArg unread hu
  rw [hsession] at hlock hfree
  have ih : LeavesSooner cfg u := fun t ht => ih t (hunread ▸ ht)
  refine .after .reader ?_
  cases hon : u.session.writesEnabled with
  | false =>
    refine @canLeave_goOn cfg _ r.leave ?_ ih
    simp only [step, Server.step, readerStep, hlock, hfree, hon, Option.isSome_none, Bool.false_eq_true, if_false]
  | true =>
    cases hbody : r.body cfg.limits with
    | error e =>
      refine .now ?_
      simp only [step, Server.step, readerStep, hlock, hfree, hon, hbody, Option.isSome_none, Bool.false_eq_true,
        if_false, if_true]
      rfl
    | ok body =>
      have hsending : (step cfg u .reader).session.reader = .sending r.leave := by
        simp only [step, Server.step, readerStep, hlock, hfree, hon, hbody, Option.isSome_none, Bool.false_eq_true,
          if_false, if_true]
      refine canLeave_sending hsending ?_ ih
      exact sends_session (fun leave hs => by cases hlock.symm.trans hs) .reader

/-- Wherever the reader stands, the loop is left when the socket fails and the client says
    no more than it has. -/
theorem canLeave (hs : Sends s.session) : CanLeave cfg s := by
  induction hlen : s.unread.length using Nat.strong_induction_on generalizing s with
  | _ n ihn =>
    have ih : LeavesSooner cfg s := fun t ht hst => ihn _ (hlen ▸ ht) hst rfl
    cases hr : s.session.reader with
    | top => exact canLeave_top hr ih
    | reap k => exact canLeave_reap rfl hr ih
    | readLen got => exact canLeave_reading (by rw [hr]; rfl) ih hs
    | readBody len got => exact canLeave_reading (by rw [hr]; rfl) ih hs
    | received frame =>
      have hstep : (step cfg s .reader).session = Server.receive cfg s.session frame := by
        simp only [step, Server.step, readerStep, hr]
      refine .after .reader ?_
      have hreject : ∀ r : Rejection, (step cfg s .reader).session = reject s.session r → CanLeave cfg (step cfg s .reader) := by
        intro r hrej
        unfold reject at hrej
        split at hrej
        next => exact canLeave_lock (r := r) (congrArg St.reader hrej) ih
        next => exact @canLeave_goOn cfg _ r.leave (congrArg St.reader hrej) ih
      unfold Server.receive at hstep
      dsimp only at hstep
      split at hstep
      next => exact hreject _ hstep
      next =>
        split at hstep
        next => exact hreject _ hstep
        next => exact canLeave_top (congrArg St.reader hstep) ih
    | lock r => exact canLeave_lock hr ih
    | sending leave => exact canLeave_sending hr hs ih
    | _ => exact .now (by rw [hr]; rfl)

end

end Inbound

/-- However the stream is cut into pieces and whatever the workers and the socket do: as
    long as each reply of the reader itself can be encoded, the frames read are the first
    ones the stream spells, and once the loop is left they are all of them, with the same
    rest unread, so that any two such runs agree; and every run can be continued until the
    loop is left. -/
theorem inbound_framing (cfg : BrokerServerConfig) (stream : Bytes) :
    (∀ es, EachStep (Inbound.step cfg) (Encodable cfg) { unread := stream } es →
      (exec (Inbound.step cfg) { unread := stream } es).session.frames <+: (cut cfg [] stream).1 ∧
        ((exec (Inbound.step cfg) { unread := stream } es).session.reader.leaving = true →
          ((exec (Inbound.step cfg) { unread := stream } es).session.frames,
            (exec (Inbound.step cfg) { unread := stream } es).unread) = cut cfg [] stream)) ∧
      ∀ es, ∃ es', (exec (Inbound.step cfg) { unread := stream } (es ++ es')).session.reader.leaving = true := by
  refine ⟨?_, ?_⟩
  · intro es henc
    have h := exec_each (I := fun s : Inbound => s.session.running = true ∧ Agrees cfg stream s.session s.unread) henc
      ⟨rfl, rfl⟩ agrees_step
    exact ⟨prefix_of_agrees h.2, fun hleft => (agrees_leaving hleft).mp h.2⟩
  · intro es
    have hsends : Sends (exec (Inbound.step cfg) { unread := stream } es).session :=
      exec_induct (I := fun s : Inbound => Sends s.session) (fun _ hs => by cases hs)
        fun _ e _ h => Inbound.sends_session h e
    obtain ⟨es', hleft⟩ := @Inbound.canLeave cfg _ hsends
    exact ⟨es', by rwa [exec_append]⟩

/-- The reader passes over `listed` records, and a frame of `n` bytes comes in two pieces. -/
def takes (listed n : Nat) : List InboundEv :=
  List.replicate (listed + 2) .reader ++ [.recv 3, .interrupted, .recv n, .reader]

/-- The `i`-th worker serves its request and writes the response. -/
def replies (i : Nat) : List InboundEv :=
  [.worker i {}, .worker i {}, .worker i {}, .send (.accepted 4), .send (.accepted 1000), .worker i {}]

/-- The length comes byte by byte. -/
def byteByByte : List InboundEv :=
  [.reader, .reader, .recv 0, .recv 0, .interrupted, .recv 0, .recv 0, .recv 1000, .reader, .reader, .reader, .reader,
    .recv 0]

theorem inbound_framing_byteByByte :
    ((exec (Inbound.step {}) { unread := frameBytes pingFrame } byteByByte).session.frames,
      (exec (Inbound.step {}) { unread := frameBytes pingFrame } byteByByte).unread) =
        cut {} [] (frameBytes pingFrame) :=
  ((inbound_framing {} (frameBytes pingFrame)).1 byteByByte (by decide +kernel)).2 (by decide +kernel)

/-- Strings of eight bytes at most, and one request at a time. -/
def terse : BrokerServerConfig :=
  { maxInflightPerClient := 1, service := { config := { protocolLimits := { maxStringBytes := 8 } } } }

def threePings : Bytes := frameBytes pingFrame ++ frameBytes pingFrame ++ frameBytes pingFrame

/-- The same three requests: answered one by one they are all read; when the second comes
    before the first is answered, the reply that turns it away does not fit the limits, and
    the session ends before the third. -/
theorem an_unencodable_rejection_ends_the_session :
    let patient := exec (Inbound.step terse) { unread := threePings }
      (takes 0 1000 ++ replies 0 ++ takes 1 1000 ++ replies 1 ++ takes 1 1000 ++ replies 2 ++
        List.replicate 3 .reader ++ [.recv 0])
    let hasty := exec (Inbound.step terse) { unread := threePings } (takes 0 1000 ++ takes 1 1000 ++ [.reader])
    patient.session.reader.leaving = true ∧ hasty.session.reader.leaving = true ∧
      patient.session.frames = [pingFrame, pingFrame, pingFrame] ∧ hasty.session.frames = [pingFrame, pingFrame] := by
  decide +kernel

end Overhauled.Server
