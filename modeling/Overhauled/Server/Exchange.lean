/-
  Overhauled.Server.Exchange — a whole connection, from the requests a client encodes to the
  responses it decodes (`session_loop` of `src/broker_server.cpp`, and the client of
  `tests/broker_server_e2e_test.cpp`: `send_request`, `read_response`).

  The client writes BRK1 requests one after another and reads responses until a read fails.
  In between are the session's reader, its workers and the socket as in `Session`, in any
  order: pieces of any size, timeouts, interrupts, a stop, sends that fail.

  `client_is_answered`: each response the client reads is, in the fields BRK1 carries, what
  `handle_request` answers to one of its requests in some state of the service, or the notice
  that too many are in flight; and no request is answered twice. The socket must accept
  nothing after a frame that was torn, or the client reads what was never written
  (`Outbound`).
-/

import Overhauled.Server.Framing
import Overhauled.Server.Outbound

namespace Overhauled.Server.Exchange

open Wire Broker Machine

/-! ## The client -/

/-- `send_request`, one after another. -/
def sendRequests (limits : ProtocolLimits) : List BrokerRequest → Except Bytes Bytes
  | [] => .ok []
  | request :: rest => do
    let frame ← encodeRequestFrame request limits
    let more ← sendRequests limits rest
    pure (frameBytes frame ++ more)

/-- `read_response`, until it returns false. -/
def readResponses (limits : ProtocolLimits) (stream : Bytes) : List BrokerResponse :=
  if stream.length < 4 then []
  else if ofBe (stream.take 4) > limits.maxFrameBytes then []
  else if (stream.drop 4).length < ofBe (stream.take 4) then []
  else
    match decodeResponseFrame ((stream.drop 4).take (ofBe (stream.take 4))) limits with
    | .error _ => []
    | .ok response => response :: readResponses limits ((stream.drop 4).drop (ofBe (stream.take 4)))
termination_by stream.length
decreasing_by
  rw [List.length_drop, List.length_drop]
  omega

/-! ## The connection -/

/-- A session, and what `recv` has delivered to it. -/
structure Connection where
  session : St := {}
  delivered : Bytes := []

/-- What the reader takes of a delivery. -/
def taken (s : St) : Ev → Bytes
  | .recv (.data w) => w.take s.reader.asked
  | _ => []

def Connection.step (cfg : BrokerServerConfig) (c : Connection) (e : Ev) : Connection :=
  { session := Server.step cfg c.session e, delivered := c.delivered ++ taken c.session e }

/-- The notice of a request that is turned away. -/
def busy (request : BrokerRequest) : BrokerResponse :=
  { taskId := request.taskId, status := .rejected, error := ascii "too many inflight requests for client"
    selectedGpu := -1 }

/-- What the server may answer to a request. -/
def AnswerTo (cfg : BrokerServerConfig) (request : BrokerRequest) (response : BrokerResponse) : Prop :=
  (∃ env : Env, (handleRequest cfg.service env.manager env.clock env.gpu request).2 = .returned response) ∨
    response = busy request

/-! ## Frames in a row -/

section
variable {body body' : Bytes} {frames bodies : List Bytes}

theorem frameBytes_append_inj {rest rest' : Bytes} (hlt : body.length < 2 ^ 32) (hlt' : body'.length < 2 ^ 32)
    (h : frameBytes body ++ rest = frameBytes body' ++ rest') : body = body' ∧ rest = rest' := by
  rw [frameBytes, frameBytes, List.append_assoc, List.append_assoc] at h
  obtain ⟨hlen, hrest⟩ := List.append_inj h (by rw [length_be, length_be])
  exact List.append_inj hrest (be_inj hlt hlt' hlen)

theorem length_frameBytes (body : Bytes) : (frameBytes body).length = 4 + body.length := by
  rw [frameBytes, List.length_append, length_be]

/-- Whole frames at the start of a row of frames are its first ones. -/
theorem exists_rest {tail : Bytes} (hframes : ∀ f ∈ frames, f.length < 2 ^ 32) (hbodies : ∀ b ∈ bodies, b.length < 2 ^ 32)
    (h : allFrames frames ++ tail <+: allFrames bodies) : ∃ rest, bodies = frames ++ rest ∧ tail <+: allFrames rest := by
  induction frames generalizing bodies with
  | nil => exact ⟨bodies, rfl, h⟩
  | cons f frames ih =>
    obtain ⟨more, hmore⟩ := h
    cases bodies with
    | nil =>
      have hlen := congrArg List.length hmore
      simp only [allFrames, List.flatMap_cons, List.flatMap_nil, List.length_append, length_frameBytes,
        List.length_nil] at hlen
      omega
    | cons b bodies =>
      have hcons : frameBytes f ++ (allFrames frames ++ tail ++ more) = frameBytes b ++ allFrames bodies := by
        simpa [allFrames, List.append_assoc] using hmore
      obtain ⟨rfl, hrest⟩ := frameBytes_append_inj (hframes f List.mem_cons_self) (hbodies b List.mem_cons_self) hcons
      obtain ⟨rest, rfl, htail⟩ := ih (fun f' hf' => hframes f' (List.mem_cons_of_mem _ hf'))
        (fun b' hb' => hbodies b' (List.mem_cons_of_mem _ hb')) ⟨more, hrest⟩
      exact ⟨rest, rfl, htail⟩

/-- Four bytes after whole frames are the length of the next one. -/
theorem next_length {g : Bytes} (hframes : ∀ f ∈ frames, f.length < 2 ^ 32) (hbodies : ∀ b ∈ bodies, b.length < 2 ^ 32)
    (hfour : g.length = 4) (h : allFrames frames ++ g <+: allFrames bodies) : ∃ b ∈ bodies, ofBe g = b.length := by
  obtain ⟨rest, rfl, more, hmore⟩ := exists_rest hframes hbodies h
  cases rest with
  | nil =>
    have hlen := congrArg List.length hmore
    rw [List.length_append, hfour] at hlen
    simp [allFrames] at hlen
  | cons b rest =>
    have hb : b ∈ frames ++ b :: rest := List.mem_append_right _ List.mem_cons_self
    rw [allFrames, List.flatMap_cons, frameBytes, List.append_assoc] at hmore
    obtain ⟨rfl, -⟩ := List.append_inj hmore (by rw [hfour, length_be])
    exact ⟨b, hb, ofBe_be_of_lt (hbodies b hb)⟩

/-- What the client makes of the start of a row of responses. -/
theorem readResponses_of_prefix {limits : ProtocolLimits} {responses : List BrokerResponse} {out : Bytes}
    (hsmall : ∀ b ∈ bodies, b.length < 2 ^ 32 ∧ b.length ≤ limits.maxFrameBytes)
    (hdecode : List.Forall₂ (fun b response => decodeResponseFrame b limits = .ok response) bodies responses)
    (h : out <+: allFrames bodies) : ∃ n, readResponses limits out = responses.take n := by
  induction hdecode generalizing out with
  | nil =>
    have hnil : out = [] := List.prefix_nil.mp h
    refine ⟨0, ?_⟩
    rw [hnil, readResponses]
    rfl
  | @cons b response bodies responses hfirst _ ih =>
    obtain ⟨hlt, hle⟩ := hsmall b List.mem_cons_self
    obtain ⟨more, hmore⟩ := h
    rw [allFrames, List.flatMap_cons, frameBytes, List.append_assoc] at hmore
    rw [readResponses]
    by_cases hshort : out.length < 4
    · exact ⟨0, if_pos hshort⟩
    have hhead : out.take 4 = be 4 b.length := by
      have htake : (out ++ more).take 4 = out.take 4 := List.take_append_of_le_length (Nat.le_of_not_lt hshort)
      rw [← htake, hmore, List.take_left' (length_be 4 _)]
    have hbody : out.drop 4 ++ more = b ++ allFrames bodies := by
      rw [← List.drop_append_of_le_length (Nat.le_of_not_lt hshort), hmore, List.drop_left' (length_be 4 _)]
      rfl
    have hlen : ofBe (out.take 4) = b.length := by rw [hhead, ofBe_be_of_lt hlt]
    rw [if_neg hshort, hlen, if_neg (Nat.not_lt_of_le hle)]
    by_cases hpart : (out.drop 4).length < b.length
    · exact ⟨0, if_pos hpart⟩
    have hwhole : (out.drop 4).take b.length = b := by
      have htake : (out.drop 4 ++ more).take b.length = (out.drop 4).take b.length :=
        List.take_append_of_le_length (Nat.le_of_not_lt hpart)
      rw [← htake, hbody, List.take_left' rfl]
    have hrest : (out.drop 4).drop b.length ++ more = allFrames bodies := by
      rw [← List.drop_append_of_le_length (Nat.le_of_not_lt hpart), hbody, List.drop_left' rfl]
    obtain ⟨n, hn⟩ := ih (fun b' hb' => hsmall b' (List.mem_cons_of_mem _ hb')) ⟨more, hrest⟩
    refine ⟨n + 1, ?_⟩
    rw [if_neg hpart, hwhole, hfirst]
    simp only [hn, List.take_succ_cons]

end

/-! ## What the session has read -/

/-- What the reader has of the frame it is at. -/
def got : ReaderAt → Bytes
  | .readLen part => part
  | .readBody len part => be 4 len ++ part
  | _ => []

/-- The reader reads no more. -/
def ending : ReaderAt → Bool
  | .lock r => r.leave
  | .sending leave => leave
  | p => p.leaving

/-- What was delivered is the frames read and the part of one at hand, while there is more to
    read. -/
structure Consumed (c : Connection) : Prop where
  delivered : ending c.session.reader = false → c.delivered = allFrames c.session.frames ++ got c.session.reader
  whole : allFrames c.session.frames <+: c.delivered
  small : ∀ f ∈ c.session.frames, f.length < 2 ^ 32
  length : ∀ part, c.session.reader = .readLen part → part.length < 4
  body : ∀ len part, c.session.reader = .readBody len part → part.length < len ∧ len < 2 ^ 32

/-- The reader moves between two frames. -/
structure Between (p q : ReaderAt) : Prop where
  clean : got q = []
  goesOn : ending q = false → ending p = false ∧ got p = []
  fresh : q.reading = true → q = .readLen []

section
variable {cfg : BrokerServerConfig} {s s' : St} {e : Ev}

theorem between_leaving {p q : ReaderAt} (hq : q.leaving = true) : Between p q := by
  have hend : ending q = true ∧ got q = [] ∧ q.reading = false := by
    cases q <;> first | exact ⟨rfl, rfl, rfl⟩ | cases hq
  obtain ⟨hend, hgot, hread⟩ := hend
  refine ⟨hgot, fun h => ?_, fun h => ?_⟩
  · rw [hend] at h
    cases h
  · rw [hread] at h
    cases h

theorem between_goOn {p : ReaderAt} {leave : Bool} (hp : ending p = leave) (hgot : got p = []) :
    Between p (goOn leave) := by
  cases leave with
  | true => exact between_leaving rfl
  | false => exact ⟨rfl, fun _ => ⟨hp, hgot⟩, fun h => by cases h⟩

theorem between_release (hheld : Held s) {w : Writing} (hw : s.writing = some w) (ok : Bool) :
    (release s w ok).frames = s.frames ∧
      ((release s w ok).reader = s.reader ∨ Between s.reader (release s w ok).reader) := by
  rcases hheld.release_cases hw ok with ⟨leave, hr, hs'⟩ | ⟨i, v, -, -, hs'⟩
  · rw [hs', hr]
    exact ⟨rfl, Or.inr (between_goOn rfl rfl)⟩
  · rw [hs']
    exact ⟨rfl, Or.inl rfl⟩

/-- Where nothing is received, no frame is added and the reader stays or moves between two
    frames. -/
theorem between_of_effect (hheld : Held s) (heff : Effect cfg s e s') (he : ∀ r, e ≠ .recv r) :
    s'.frames = s.frames ∧ (s'.reader = s.reader ∨ Between s.reader s'.reader) := by
  cases heff with
  | idle => exact ⟨rfl, Or.inl rfl⟩
  | stop => exact ⟨rfl, Or.inl rfl⟩
  | look hr =>
    refine ⟨rfl, Or.inr ?_⟩
    simp only [hr]
    split
    · exact ⟨rfl, fun _ => ⟨rfl, rfl⟩, fun h => by cases h⟩
    · exact between_leaving rfl
  | keep hr => exact ⟨rfl, Or.inr (by rw [hr]; exact ⟨rfl, fun _ => ⟨rfl, rfl⟩, fun h => by cases h⟩)⟩
  | collect => exact ⟨rfl, Or.inl rfl⟩
  | await hr => exact ⟨rfl, Or.inr (by rw [hr]; exact ⟨rfl, fun _ => ⟨rfl, rfl⟩, fun _ => rfl⟩)⟩
  | hangup => exact absurd rfl (he _)
  | readOn => exact absurd rfl (he _)
  | badLength => exact absurd rfl (he _)
  | frame => exact absurd rfl (he _)
  | turnAway hr haway =>
    refine ⟨rfl, Or.inr ?_⟩
    unfold reject
    split
    · rw [hr]
      exact ⟨rfl, fun _ => ⟨rfl, rfl⟩, fun h => by cases h⟩
    · rw [hr, haway.leave]
      exact between_goOn rfl rfl
  | spawn hr => exact ⟨rfl, Or.inr (by rw [hr]; exact ⟨rfl, fun _ => ⟨rfl, rfl⟩, fun h => by cases h⟩)⟩
  | mute hr => exact ⟨rfl, Or.inr (by rw [hr]; exact between_goOn rfl rfl)⟩
  | throw => exact ⟨rfl, Or.inr (between_leaving rfl)⟩
  | startRejection hr => exact ⟨rfl, Or.inr (by rw [hr]; exact ⟨rfl, fun h => ⟨h, rfl⟩, fun h => by cases h⟩)⟩
  | disable => exact ⟨rfl, Or.inr (between_leaving rfl)⟩
  | windDown hr hp => exact ⟨rfl, Or.inr (between_leaving hp)⟩
  | join => exact ⟨rfl, Or.inl rfl⟩
  | sendPart => exact ⟨rfl, Or.inl rfl⟩
  | sendLength => exact ⟨rfl, Or.inl rfl⟩
  | @sendLast w n hw =>
    have hout : Held { s with out := s.out ++ w.left } := ⟨hheld.byReader, hheld.byWorker⟩
    exact between_release hout hw true
  | skip => exact ⟨rfl, Or.inl rfl⟩
  | @giveUp w r hw =>
    have htorn : Held { s with torn := s.torn || w.tears } := ⟨hheld.byReader, hheld.byWorker⟩
    exact between_release htorn hw false
  | advance => exact ⟨rfl, Or.inl rfl⟩
  | startResponse => exact ⟨rfl, Or.inl rfl⟩

/-- Nothing is received. -/
theorem Consumed.other {c c' : Connection} (h : Consumed c) (hd : c'.delivered = c.delivered)
    (hf : c'.session.frames = c.session.frames)
    (hr : c'.session.reader = c.session.reader ∨ Between c.session.reader c'.session.reader) : Consumed c' := by
  have hwhole : allFrames c'.session.frames <+: c'.delivered := by
    rw [hf, hd]
    exact h.whole
  have hsmall : ∀ f ∈ c'.session.frames, f.length < 2 ^ 32 := by
    rw [hf]
    exact h.small
  rcases hr with hr | hr
  · refine ⟨?_, hwhole, hsmall, ?_, ?_⟩
    · rw [hr, hd, hf]
      exact h.delivered
    · rw [hr]
      exact h.length
    · rw [hr]
      exact h.body
  · refine ⟨fun hend => ?_, hwhole, hsmall, fun part hp => ?_, fun len part hp => ?_⟩
    · obtain ⟨hp, hgot⟩ := hr.goesOn hend
      rw [hd, hf, hr.clean, h.delivered hp, hgot]
    · have hfresh := hr.fresh (by rw [hp]; rfl)
      rw [hp] at hfresh
      cases hfresh
      exact Nat.zero_lt_succ 3
    · have hfresh := hr.fresh (by rw [hp]; rfl)
      rw [hp] at hfresh
      cases hfresh

/-- The reader has given up, or will once its complaint is out. -/
theorem Consumed.ended {c : Connection} {s : St} {more : Bytes} (h : Consumed c) (hf : s.frames = c.session.frames)
    (hend : ending s.reader = true) (hread : s.reader.reading = false) : Consumed ⟨s, c.delivered ++ more⟩ := by
  refine ⟨fun hgo => ?_, ?_, ?_, fun part hp => ?_, fun len part hp => ?_⟩
  · rw [hend] at hgo
    cases hgo
  · show allFrames s.frames <+: c.delivered ++ more
    rw [hf]
    exact h.whole.trans (List.prefix_append _ _)
  · show ∀ f ∈ s.frames, f.length < 2 ^ 32
    rw [hf]
    exact h.small
  · have hp : s.reader = .readLen part := hp
    rw [hp] at hread
    cases hread
  · have hp : s.reader = .readBody len part := hp
    rw [hp] at hread
    cases hread

theorem Consumed.gotLength {c : Connection} {delivered g : Bytes} (h : Consumed c)
    (hd : delivered = allFrames c.session.frames ++ g) (hpre : c.delivered <+: delivered) (hle : g.length ≤ 4) :
    Consumed ⟨Server.gotLength cfg c.session g, delivered⟩ := by
  have hwhole : allFrames c.session.frames <+: delivered := h.whole.trans hpre
  unfold Server.gotLength
  split
  · rename_i hlt
    refine ⟨fun _ => hd, hwhole, h.small, fun part hp => ?_, fun len part hp => by cases hp⟩
    cases hp
    exact hlt
  · rename_i hge
    have hfour : g.length = 4 := by omega
    split
    · rename_i hlegal
      have hpos : ¬ (ofBe g = 0 ∨ ofBe g > cfg.limits.maxFrameBytes) := of_decide_eq_true hlegal
      have hlt : ofBe g < 2 ^ 32 := by
        have := ofBe_lt g
        rw [hfour] at this
        exact this
      refine ⟨fun _ => ?_, hwhole, h.small, fun part hp => (by cases hp), fun len part hp => ?_⟩
      · have hbe : be 4 (ofBe g) = g := by
          rw [← hfour]
          exact be_ofBe g
        show delivered = allFrames c.session.frames ++ (be 4 (ofBe g) ++ [])
        rw [hbe, List.append_nil]
        exact hd
      · cases hp
        exact ⟨by rw [List.length_nil]; omega, hlt⟩
    · obtain ⟨more, rfl⟩ := hpre
      refine h.ended rfl ?_ ?_
      · unfold reject
        split <;> rfl
      · unfold reject
        split <;> rfl

theorem Consumed.gotBody {c : Connection} {delivered g : Bytes} {len : Nat} (h : Consumed c)
    (hd : delivered = allFrames c.session.frames ++ (be 4 len ++ g)) (hpre : c.delivered <+: delivered)
    (hle : g.length ≤ len) (hlt : len < 2 ^ 32) : Consumed ⟨Server.gotBody c.session len g, delivered⟩ := by
  unfold Server.gotBody
  split
  · rename_i hpart
    refine ⟨fun _ => hd, h.whole.trans hpre, h.small, fun part hp => (by cases hp), fun len' part hp => ?_⟩
    cases hp
    exact ⟨hpart, hlt⟩
  · rename_i hge
    have hlen : g.length = len := by omega
    subst hlen
    have hall : delivered = allFrames (c.session.frames ++ [g]) := by
      rw [allFrames_concat]
      exact hd
    refine ⟨fun _ => ?_, ?_, fun f hf => ?_, fun part hp => (by cases hp), fun len' part hp => by cases hp⟩
    · show delivered = allFrames (c.session.frames ++ [g]) ++ []
      rw [List.append_nil]
      exact hall
    · show allFrames (c.session.frames ++ [g]) <+: delivered
      rw [hall]
    · rcases List.mem_append.mp hf with hf | hf
      · exact h.small f hf
      · rw [List.mem_singleton.mp hf]
        exact hlt

theorem Consumed.recv {c : Connection} (h : Consumed c) (cfg : BrokerServerConfig) (r : RecvResult) :
    Consumed (c.step cfg (.recv r)) := by
  -- a `recv` that ends the loop, or that is interrupted
  have hends : ∀ {more : Bytes}, Consumed ⟨{ c.session with reader := .disable }, c.delivered ++ more⟩ :=
    h.ended rfl rfl rfl
  have hsame : Consumed ⟨c.session, c.delivered ++ []⟩ := by
    rw [List.append_nil]
    exact h
  show Consumed ⟨recvStep cfg c.session r, c.delivered ++ taken c.session (.recv r)⟩
  cases hr : c.session.reader with
  | readLen part =>
    have hlt := h.length part hr
    simp only [recvStep, hr]
    cases r with
    | data w =>
      simp only [readExact, taken, hr, ReaderAt.asked]
      split
      · exact hends
      · refine h.gotLength ?_ (List.prefix_append _ _) ?_
        · rw [h.delivered (by rw [hr]; rfl), hr, List.append_assoc]
          rfl
        · rw [List.length_append, List.length_take]
          omega
    | interrupted => exact hsame
    | timedOut => exact hends
    | failed => exact hends
  | readBody len part =>
    obtain ⟨hpart, hlt⟩ := h.body len part hr
    simp only [recvStep, hr]
    cases r with
    | data w =>
      simp only [readExact, taken, hr, ReaderAt.asked]
      split
      · exact hends
      · refine h.gotBody ?_ (List.prefix_append _ _) ?_ hlt
        · rw [h.delivered (by rw [hr]; rfl), hr, List.append_assoc, got, List.append_assoc]
        · rw [List.length_append, List.length_take]
          omega
    | interrupted => exact hsame
    | timedOut => exact hends
    | failed => exact hends
  | _ =>
    have htaken : taken c.session (.recv r) = [] := by
      cases r <;> simp [taken, hr, ReaderAt.asked]
    simp only [recvStep, hr, htaken]
    exact hsame

theorem consumed_step {c : Connection} (h : Consumed c) (hheld : Held c.session) (cfg : BrokerServerConfig) (e : Ev) :
    Consumed (c.step cfg e) := by
  have hother : (∀ r, e ≠ .recv r) → taken c.session e = [] → Consumed (c.step cfg e) := by
    intro he htaken
    obtain ⟨hf, hr⟩ := between_of_effect hheld (step_effect cfg c.session e) he
    refine h.other ?_ hf hr
    rw [Connection.step, htaken, List.append_nil]
  cases e with
  | recv r => exact h.recv cfg r
  | reader => exact hother (fun r hr => by cases hr) rfl
  | send r => exact hother (fun r hr => by cases hr) rfl
  | worker i env => exact hother (fun r hr => by cases hr) rfl
  | stop => exact hother (fun r hr => by cases hr) rfl

end

/-! ## Where an answer comes from -/

/-- The worker is where it was, or has made this of its request since. -/
inductive Made (cfg : BrokerServerConfig) (w : Worker) : Progress → Prop
  | kept : Made cfg w w.progress
  | served {env : Env} {response : BrokerResponse}
      (hr : (handleRequest cfg.service env.manager env.clock env.gpu w.request).2 = .returned response) :
      Made cfg w (.encoding response)
  | encoded {response : BrokerResponse} {body : Bytes} (hp : w.progress = .encoding response)
      (hb : encodeReply cfg.limits w.useBrk2 w.requestId response = .ok body) : Made cfg w (.waiting body)
  | settled {p : Progress} (henc : ∀ response, p ≠ .encoding response) (hwait : ∀ body, p ≠ .waiting body) :
      Made cfg w p

/-- A length that no frame may have. -/
def BadLength (cfg : BrokerServerConfig) (s : St) (e : Ev) : Prop :=
  ∃ w part, e = .recv (.data w) ∧ s.reader = .readLen part ∧ 4 ≤ (part ++ w.take (4 - part.length)).length ∧
    legalLength cfg (ofBe (part ++ w.take (4 - part.length))) = false

/-- Where what a step leaves to be written has its origin. -/
structure Origins (cfg : BrokerServerConfig) (s : St) (e : Ev) (s' : St) : Prop where
  frames : s.frames <+: s'.frames
  workers : ∀ w' ∈ s'.workers, w'.progress = .serving ∨
    ∃ w ∈ s.workers, w'.request = w.request ∧ w'.useBrk2 = w.useBrk2 ∧ w'.requestId = w.requestId ∧ w'.frame = w.frame ∧
      Made cfg w w'.progress
  begun : ∀ o ∈ s'.begun, o ∈ s.begun ∨
    (∃ r, s.reader = .lock r ∧ o.answers = r.answers ∧ r.body cfg.limits = .ok o.body) ∨
    ∃ w ∈ s.workers, w.progress = .waiting o.body ∧ o.answers = some w.frame
  lock : ∀ r, s'.reader = .lock r → s.reader = .lock r ∨ (r.answers = none ∧ BadLength cfg s e) ∨
    ∃ frame, s.reader = .received frame ∧ r.answers = some (s.frames.length - 1) ∧
      ∀ request, decodeIncoming cfg.limits frame = ⟨false, 0, .ok request⟩ →
        r.useBrk2 = false ∧ r.response = busy request

section
variable {cfg : BrokerServerConfig} {s s' : St} {e : Ev}

/-- No worker and no frame to be written changes. -/
theorem Origins.still (hw : s'.workers = s.workers) (hb : s'.begun = s.begun) (hf : s.frames <+: s'.frames)
    (hlock : ∀ r, s'.reader = .lock r → s.reader = .lock r) : Origins cfg s e s' := by
  refine ⟨hf, ?_, ?_, fun r hr => Or.inl (hlock r hr)⟩
  · rw [hw]
    exact fun w hmem => Or.inr ⟨w, hmem, rfl, rfl, rfl, rfl, .kept⟩
  · rw [hb]
    exact fun o ho => Or.inl ho

/-- One worker goes on. -/
theorem Origins.advance {i : Nat} {v : Worker} {f : Worker → Worker} (hv : s.workers[i]? = some v)
    (hw : s'.workers = s.workers.modify i f) (hb : s'.begun = s.begun) (hf : s'.frames = s.frames)
    (hreader : s'.reader = s.reader)
    (hfrom : (f v).request = v.request ∧ (f v).useBrk2 = v.useBrk2 ∧ (f v).requestId = v.requestId ∧
      (f v).frame = v.frame ∧ Made cfg v (f v).progress) : Origins cfg s e s' := by
  refine ⟨by rw [hf], ?_, ?_, fun r hr => Or.inl (hreader ▸ hr)⟩
  · rw [hw]
    intro w' hw'
    rcases mem_modify hw' with hmem | ⟨u, hu, rfl⟩
    · exact Or.inr ⟨w', hmem, rfl, rfl, rfl, rfl, .kept⟩
    · rw [hv] at hu
      cases hu
      exact Or.inr ⟨v, List.mem_of_getElem? hv, hfrom⟩
  · rw [hb]
    exact fun o ho => Or.inl ho

theorem origins_release (cfg : BrokerServerConfig) (e : Ev) (hheld : Held s) {w : Writing} (hw : s.writing = some w)
    (ok : Bool) : Origins cfg s e (release s w ok) := by
  rcases hheld.release_cases hw ok with ⟨leave, hr, hs'⟩ | ⟨i, v, hv, -, hs'⟩
  · rw [hs']
    exact .still rfl rfl List.prefix_rfl fun r hr' => absurd hr' (goOn_ne_lock leave r)
  · rw [hs']
    refine .advance hv rfl rfl rfl rfl ⟨rfl, rfl, rfl, rfl, .settled ?_ ?_⟩
    · exact fun response h => by cases h
    · exact fun body h => by cases h

/-- The reader turns a frame away, or gives it to a new worker. -/
theorem origins_receive {frame : Bytes} (hr : s.reader = .received frame) : Origins cfg s e (receive cfg s frame) := by
  -- what the reader says itself
  have hreject : ∀ r : Rejection, r.answers = some (s.frames.length - 1) →
      (∀ request, decodeIncoming cfg.limits frame = ⟨false, 0, .ok request⟩ →
        r.useBrk2 = false ∧ r.response = busy request) → Origins cfg s e (reject s r) := by
    intro r hans hbusy
    refine ⟨List.prefix_rfl, fun w hw => Or.inr ⟨w, hw, rfl, rfl, rfl, rfl, .kept⟩, fun o ho => Or.inl ho, ?_⟩
    intro r' hr'
    have hr' : (if r.useBrk2 || s.writesEnabled then ReaderAt.lock r else goOn r.leave) = .lock r' := hr'
    split at hr'
    · cases hr'
      exact Or.inr (Or.inr ⟨frame, hr, hans, hbusy⟩)
    · exact absurd hr' (goOn_ne_lock _ _)
  unfold receive
  simp only
  split
  · rename_i why hd
    refine hreject _ rfl fun request hdec => ?_
    rw [hdec] at hd
    cases hd
  · rename_i request hd
    split
    · refine hreject _ rfl fun request' hdec => ?_
      rw [hdec] at hd
      cases hd
      rw [hdec]
      exact ⟨rfl, rfl⟩
    · refine ⟨List.prefix_rfl, fun w' hw' => ?_, fun o ho => Or.inl ho, fun r h => by cases h⟩
      rcases List.mem_append.mp hw' with hmem | hmem
      · exact Or.inr ⟨w', hmem, rfl, rfl, rfl, rfl, .kept⟩
      · rw [List.mem_singleton.mp hmem]
        exact Or.inl rfl

theorem origins (hheld : Held s) (e : Ev) : Origins cfg s e (step cfg s e) := by
  by_cases hreceived : e = .reader ∧ ∃ frame, s.reader = .received frame
  · obtain ⟨rfl, frame, hr⟩ := hreceived
    have hstep : step cfg s .reader = receive cfg s frame := by simp only [step, readerStep, hr]
    rw [hstep]
    exact origins_receive hr
  have heff := step_effect cfg s e
  generalize step cfg s e = s' at heff ⊢
  cases heff with
  | idle => exact .still rfl rfl List.prefix_rfl fun r hr => hr
  | stop => exact .still rfl rfl List.prefix_rfl fun r hr => hr
  | look hr =>
    refine .still rfl rfl List.prefix_rfl fun r hlock => ?_
    simp only at hlock
    split at hlock <;> cases hlock
  | keep => exact .still rfl rfl List.prefix_rfl fun r h => by cases h
  | collect => exact .still rfl rfl List.prefix_rfl fun r h => h
  | await => exact .still rfl rfl List.prefix_rfl fun r h => by cases h
  | hangup => exact .still rfl rfl List.prefix_rfl fun r h => by cases h
  | readOn hr hp =>
    refine .still rfl rfl List.prefix_rfl fun r h => ?_
    simp only at h
    rw [h] at hp
    cases hp
  | @badLength w part hr hlen hbad =>
    refine ⟨List.prefix_rfl, fun v hv => Or.inr ⟨v, hv, rfl, rfl, rfl, rfl, .kept⟩, fun o ho => Or.inl ho, ?_⟩
    intro r' hr'
    have hr' : (if lengthComplaint.useBrk2 || s.writesEnabled then ReaderAt.lock lengthComplaint
      else goOn lengthComplaint.leave) = .lock r' := hr'
    split at hr'
    · cases hr'
      exact Or.inr (Or.inl ⟨rfl, w, part, rfl, hr, Nat.le_of_not_lt hlen, hbad⟩)
    · exact absurd hr' (goOn_ne_lock _ _)
  | frame => exact .still rfl rfl (List.prefix_append _ _) fun r h => by cases h
  | turnAway hr => exact absurd ⟨rfl, _, hr⟩ hreceived
  | spawn hr => exact absurd ⟨rfl, _, hr⟩ hreceived
  | mute => exact .still rfl rfl List.prefix_rfl fun r h => absurd h (goOn_ne_lock _ _)
  | throw => exact .still rfl rfl List.prefix_rfl fun r h => by cases h
  | @startRejection r body hr hfree hb =>
    refine ⟨List.prefix_rfl, fun v hv => Or.inr ⟨v, hv, rfl, rfl, rfl, rfl, .kept⟩, fun o ho => ?_, fun r' h => by cases h⟩
    rcases List.mem_append.mp ho with ho | ho
    · exact Or.inl ho
    · rw [List.mem_singleton.mp ho]
      exact Or.inr (Or.inl ⟨r, hr, rfl, hb⟩)
  | disable => exact .still rfl rfl List.prefix_rfl fun r h => by cases h
  | windDown hr hp =>
    refine .still rfl rfl List.prefix_rfl fun r h => ?_
    simp only at h
    rw [h] at hp
    cases hp
  | join => exact .still rfl rfl List.prefix_rfl fun r h => h
  | sendPart => exact .still rfl rfl List.prefix_rfl fun r h => h
  | sendLength => exact .still rfl rfl List.prefix_rfl fun r h => h
  | @sendLast w n hw =>
    have hout : Held { s with out := s.out ++ w.left } := ⟨hheld.byReader, hheld.byWorker⟩
    have h := origins_release cfg (.send (.accepted n)) hout hw true
    exact ⟨h.frames, h.workers, h.begun, h.lock⟩
  | skip => exact .still rfl rfl List.prefix_rfl fun r h => h
  | @giveUp w r hw =>
    have htorn : Held { s with torn := s.torn || w.tears } := ⟨hheld.byReader, hheld.byWorker⟩
    have h := origins_release cfg (.send r) htorn hw false
    exact ⟨h.frames, h.workers, h.begun, h.lock⟩
  | @advance i env w p hw hadv =>
    refine .advance (f := fun w => { w with progress := p }) hw rfl rfl rfl rfl ⟨rfl, rfl, rfl, rfl, ?_⟩
    cases hadv with
    | served hp hr => exact .served hr
    | encoded hp hb => exact .encoded hp hb
    | failed => exact .settled (fun _ h => by cases h) fun _ h => by cases h
    | lost => exact .settled (fun _ h => by cases h) fun _ h => by cases h
    | thrown => exact .settled (fun _ h => by cases h) fun _ h => by cases h
    | muted => exact .settled (fun _ h => by cases h) fun _ h => by cases h
    | finished => exact .settled (fun _ h => by cases h) fun _ h => by cases h
  | @startResponse i env w body hw hp =>
    have hmod : Origins cfg s (.worker i env) (setProgress s i .writing) :=
      .advance hw rfl rfl rfl rfl ⟨rfl, rfl, rfl, rfl, .settled (fun _ h => by cases h) fun _ h => by cases h⟩
    refine ⟨hmod.frames, hmod.workers, fun o ho => ?_, hmod.lock⟩
    rcases List.mem_append.mp ho with ho | ho
    · exact Or.inl ho
    · rw [List.mem_singleton.mp ho]
      exact Or.inr (Or.inr ⟨w, List.mem_of_getElem? hw, hp, rfl⟩)

end

/-! ## What an answer holds -/

/-- A BRK1 request in this frame is answered by this body. -/
def Meets (cfg : BrokerServerConfig) (frame body : Bytes) : Prop :=
  ∀ request, decodeIncoming cfg.limits frame = ⟨false, 0, .ok request⟩ →
    ∃ response, AnswerTo cfg request response ∧ encodeResponseFrame response cfg.limits = .ok body

structure Faithful (cfg : BrokerServerConfig) (s : St) : Prop where
  rejecting : ∀ r, s.reader = .lock r → ∀ k frame, r.answers = some k → s.frames[k]? = some frame →
    ∀ body, r.body cfg.limits = .ok body → Meets cfg frame body
  serving : ∀ w ∈ s.workers, ∀ response, w.progress = .encoding response → AnswerTo cfg w.request response
  waiting : ∀ w ∈ s.workers, ∀ body, w.progress = .waiting body →
    ∃ response, AnswerTo cfg w.request response ∧ encodeReply cfg.limits w.useBrk2 w.requestId response = .ok body
  answered : ∀ o ∈ s.begun, ∀ k frame, o.answers = some k → s.frames[k]? = some frame → Meets cfg frame o.body

section
variable {cfg : BrokerServerConfig} {s s' : St} {e : Ev}

/-- A frame that was read stays where it is. -/
theorem Origins.frame_eq (ho : Origins cfg s e s') {k : Nat} {frame frame' : Bytes} (h : s.frames[k]? = some frame)
    (h' : s'.frames[k]? = some frame') : frame' = frame := by
  obtain ⟨more, hmore⟩ := ho.frames
  rw [← hmore, List.getElem?_append_left (List.getElem?_eq_some_iff.mp h).1, h] at h'
  exact (Option.some.inj h').symm

theorem Faithful.rejecting_step (h : Faithful cfg s) (hgen : Genuine cfg s) (ho : Origins cfg s e s') (r : Rejection)
    (hr : s'.reader = .lock r) (k : Nat) (frame : Bytes) (hk : r.answers = some k) (hframe : s'.frames[k]? = some frame)
    (body : Bytes) (hb : r.body cfg.limits = .ok body) : Meets cfg frame body := by
  rcases ho.lock r hr with hlock | ⟨hnone, -⟩ | ⟨frame', hreceived, hans, hbusy⟩
  · obtain ⟨frame', hframe', -⟩ := hgen.rejecting r hlock k hk
    rw [ho.frame_eq hframe' hframe]
    exact h.rejecting r hlock k frame' hk hframe' body hb
  · rw [hnone] at hk
    cases hk
  · rw [hans] at hk
    cases hk
    rw [ho.frame_eq (hgen.current frame' hreceived) hframe]
    intro request hdec
    obtain ⟨hbrk1, hresponse⟩ := hbusy request hdec
    rw [Rejection.body, encodeReply, hbrk1, hresponse] at hb
    exact ⟨busy request, Or.inr rfl, hb⟩

theorem Faithful.worker_step (h : Faithful cfg s) (ho : Origins cfg s e s') (w : Worker) (hw : w ∈ s'.workers) :
    (∀ response, w.progress = .encoding response → AnswerTo cfg w.request response) ∧
      ∀ body, w.progress = .waiting body →
        ∃ response, AnswerTo cfg w.request response ∧ encodeReply cfg.limits w.useBrk2 w.requestId response = .ok body := by
  rcases ho.workers w hw with hp | ⟨v, hv, hrequest, hbrk2, hid, -, hmade⟩
  · rw [hp]
    exact ⟨fun _ h => (by cases h), fun _ h => by cases h⟩
  rw [hrequest, hbrk2, hid]
  generalize w.progress = p at hmade
  cases hmade with
  | kept => exact ⟨h.serving v hv, h.waiting v hv⟩
  | @served env response hr =>
    refine ⟨fun response' hp => ?_, fun body hp => by cases hp⟩
    cases hp
    exact Or.inl ⟨env, hr⟩
  | @encoded response body hp hb =>
    refine ⟨fun response' hp' => (by cases hp'), fun body' hp' => ?_⟩
    cases hp'
    exact ⟨response, h.serving v hv response hp, hb⟩
  | settled henc hwait => exact ⟨fun response hp => absurd hp (henc response), fun body hp => absurd hp (hwait body)⟩

theorem Faithful.answered_step (h : Faithful cfg s) (hgen : Genuine cfg s) (ho : Origins cfg s e s') (o : Outgoing)
    (hmem : o ∈ s'.begun) (k : Nat) (frame : Bytes) (hk : o.answers = some k) (hframe : s'.frames[k]? = some frame) :
    Meets cfg frame o.body := by
  rcases ho.begun o hmem with hmem | ⟨r, hr, hans, hb⟩ | ⟨w, hw, hp, hans⟩
  · obtain ⟨frame', hframe', -⟩ := hgen.answered o hmem k hk
    rw [ho.frame_eq hframe' hframe]
    exact h.answered o hmem k frame' hk hframe'
  · rw [hans] at hk
    obtain ⟨frame', hframe', -⟩ := hgen.rejecting r hr k hk
    rw [ho.frame_eq hframe' hframe]
    exact h.rejecting r hr k frame' hk hframe' o.body hb
  · rw [hans] at hk
    cases hk
    obtain ⟨frame', hframe', hserves, -, -⟩ := hgen.serving w hw
    rw [ho.frame_eq hframe' hframe]
    intro request hdec
    obtain ⟨response, hanswer, hb⟩ := h.waiting w hw o.body hp
    rw [hdec] at hserves
    obtain ⟨hbrk1, hid, hrequest⟩ := Incoming.mk.inj hserves
    cases hrequest
    rw [encodeReply, ← hbrk1] at hb
    exact ⟨response, hanswer, hb⟩

theorem faithful_step (h : Faithful cfg s) (hgen : Genuine cfg s) (ho : Origins cfg s e s') : Faithful cfg s' where
  rejecting := h.rejecting_step hgen ho
  serving w hw := (h.worker_step ho w hw).1
  waiting w hw := (h.worker_step ho w hw).2
  answered := h.answered_step hgen ho

end

/-! ## Whole runs -/

/-- Everything that is or will be written answers some frame. -/
structure Owed (s : St) : Prop where
  lock : ∀ r, s.reader = .lock r → r.answers ≠ none
  begun : ∀ o ∈ s.begun, o.answers ≠ none

theorem owed_step {cfg : BrokerServerConfig} {s s' : St} {e : Ev} (h : Owed s) (ho : Origins cfg s e s')
    (hlength : ¬ BadLength cfg s e) : Owed s' where
  lock r hr := by
    rcases ho.lock r hr with hlock | ⟨-, hbad⟩ | ⟨frame, -, hans, -⟩
    · exact h.lock r hlock
    · exact absurd hbad hlength
    · rw [hans]
      exact Option.some_ne_none _
  begun o hmem := by
    rcases ho.begun o hmem with hmem | ⟨r, hr, hans, -⟩ | ⟨w, -, -, hans⟩
    · exact h.begun o hmem
    · rw [hans]
      exact h.lock r hr
    · rw [hans]
      exact Option.some_ne_none _

section
variable (cfg : BrokerServerConfig)

theorem session_exec (c : Connection) (es : List Ev) :
    (exec (Connection.step cfg) c es).session = exec (step cfg) c.session es := by
  induction es generalizing c with
  | nil => rfl
  | cons e es ih => exact ih (c.step cfg e)

theorem delivered_grows (c : Connection) (es : List Ev) : c.delivered <+: (exec (Connection.step cfg) c es).delivered := by
  induction es generalizing c with
  | nil => exact List.prefix_rfl
  | cons e es ih => exact (List.prefix_append _ _).trans (ih (c.step cfg e))

variable {cfg}

/-- In a row of legal frames there is no illegal length. -/
theorem no_badLength {c : Connection} {e : Ev} {bodies : List Bytes} (h : Consumed c)
    (hbodies : ∀ b ∈ bodies, b.length < 2 ^ 32 ∧ legalLength cfg b.length = true)
    (hin : (c.step cfg e).delivered <+: allFrames bodies) : ¬ BadLength cfg c.session e := by
  rintro ⟨w, part, rfl, hr, hge, hbad⟩
  have hlt := h.length part hr
  have hd : (c.step cfg (.recv (.data w))).delivered =
      allFrames c.session.frames ++ (part ++ w.take (4 - part.length)) := by
    show c.delivered ++ w.take c.session.reader.asked = _
    rw [h.delivered (by rw [hr]; rfl), hr, List.append_assoc]
    rfl
  rw [hd] at hin
  have hfour : (part ++ w.take (4 - part.length)).length = 4 := by
    rw [List.length_append, List.length_take] at hge ⊢
    omega
  obtain ⟨b, hb, hlen⟩ := next_length h.small (fun b hb => (hbodies b hb).1) hfour hin
  rw [hlen, (hbodies b hb).2] at hbad
  cases hbad

/-- What holds of a connection whose client sends a row of legal frames. -/
theorem connection_run {bodies : List Bytes} (hbodies : ∀ b ∈ bodies, b.length < 2 ^ 32 ∧ legalLength cfg b.length = true)
    {es : List Ev} (hin : (exec (Connection.step cfg) {} es).delivered <+: allFrames bodies) :
    Consumed (exec (Connection.step cfg) {} es) ∧ Faithful cfg (exec (Connection.step cfg) {} es).session ∧
      Owed (exec (Connection.step cfg) {} es).session := by
  refine exec_induct (I := fun c : Connection => Consumed c ∧ Faithful cfg c.session ∧ Owed c.session) ?_ ?_
  · refine ⟨⟨fun _ => rfl, List.prefix_rfl, ?_, ?_, ?_⟩, ⟨?_, ?_, ?_, ?_⟩, ⟨?_, ?_⟩⟩
    · exact fun f hf => absurd hf List.not_mem_nil
    · exact fun part hp => by cases hp
    · exact fun len part hp => by cases hp
    · exact fun r hr => by cases hr
    · exact fun w hw => absurd hw List.not_mem_nil
    · exact fun w hw => absurd hw List.not_mem_nil
    · exact fun o ho => absurd ho List.not_mem_nil
    · exact fun r hr => by cases hr
    · exact fun o ho => absurd ho List.not_mem_nil
  · rintro pre e ⟨more, rfl⟩ ⟨hconsumed, hfaithful, howed⟩
    have hsession := session_exec cfg {} pre
    have hheld : Held (exec (Connection.step cfg) {} pre).session := by
      rw [hsession]
      exact held_run cfg pre
    have hgenuine : Genuine cfg (exec (Connection.step cfg) {} pre).session := by
      rw [hsession]
      exact (owned_genuine_run cfg pre).2
    have hnext : ((exec (Connection.step cfg) {} pre).step cfg e).delivered <+: allFrames bodies := by
      have hgrows := delivered_grows cfg (exec (Connection.step cfg) {} (pre ++ [e])) more
      rw [← exec_append, exec_concat] at hgrows
      exact hgrows.trans hin
    have ho : Origins cfg _ e (step cfg _ e) := origins hheld e
    exact ⟨consumed_step hconsumed hheld cfg e, faithful_step hfaithful hgenuine ho,
      owed_step howed ho (no_badLength hconsumed hbodies hnext)⟩

end

/-! ## What the client sends, and what it gets -/

section
variable {limits : ProtocolLimits}

theorem sendRequests_ok {sent : List BrokerRequest} {stream : Bytes} (h : sendRequests limits sent = .ok stream) :
    ∃ bodies, stream = allFrames bodies ∧
      List.Forall₂ (fun request body => encodeRequestFrame request limits = .ok body) sent bodies := by
  induction sent generalizing stream with
  | nil =>
    cases h
    exact ⟨[], rfl, .nil⟩
  | cons request sent ih =>
    rw [sendRequests, except_bind_ok] at h
    obtain ⟨body, hbody, h⟩ := h
    rw [except_bind_ok] at h
    obtain ⟨more, hmore, h⟩ := h
    cases except_pure_ok.mp h
    obtain ⟨bodies, rfl, hbodies⟩ := ih hmore
    exact ⟨body :: bodies, rfl, .cons hbody hbodies⟩

theorem encoded_at {sent : List BrokerRequest} {bodies : List Bytes}
    (h : List.Forall₂ (fun request body => encodeRequestFrame request limits = .ok body) sent bodies) {k : Nat}
    {body : Bytes} (hk : bodies[k]? = some body) :
    ∃ request, sent[k]? = some request ∧ encodeRequestFrame request limits = .ok body := by
  induction h generalizing k with
  | nil => cases hk
  | @cons request first sent bodies hfirst _ ih =>
    cases k with
    | zero =>
      cases hk
      exact ⟨request, rfl, hfirst⟩
    | succ k => exact ih hk

theorem requestBytes_magic (request : BrokerRequest) : ∃ rest, requestBytes request = be 4 brokerMagic.toNat ++ rest := by
  simp only [requestBytes, appendCommonHeader, List.append_assoc, List.nil_append]
  exact ⟨_, rfl⟩

/-- The server takes the frame of a request for what it is. -/
theorem incoming_of_request {request : BrokerRequest} {body : Bytes} (h : encodeRequestFrame request limits = .ok body) :
    decodeIncoming limits body = ⟨false, 0, .ok (wireRequest request)⟩ := by
  have hdecode := decode_encodeRequest h
  obtain ⟨-, rfl⟩ := encodeRequestFrame_ok.mp h
  have hbrk1 : usesBrk2 (requestBytes request) = false := by
    obtain ⟨rest, hrest⟩ := requestBytes_magic request
    rw [usesBrk2, hrest, List.take_left' (length_be 4 _)]
    decide
  rw [decodeIncoming, hbrk1]
  simp [hdecode]

theorem legal_of_request {cfg : BrokerServerConfig} {request : BrokerRequest} {body : Bytes}
    (hlimit : cfg.limits.maxFrameBytes < 2 ^ 32) (h : encodeRequestFrame request cfg.limits = .ok body) :
    body.length < 2 ^ 32 ∧ legalLength cfg body.length = true := by
  obtain ⟨hfits, rfl⟩ := encodeRequestFrame_ok.mp h
  obtain ⟨rest, hrest⟩ := requestBytes_magic request
  have hle := hfits.frame
  have hpos : 4 ≤ (requestBytes request).length := by
    rw [hrest, List.length_append, length_be]
    omega
  refine ⟨lt_of_le_of_lt hle hlimit, decide_eq_true ?_⟩
  omega

end

/-- A frame the server wrote is an answer to a request the client sent. -/
theorem answer_of_begun {cfg : BrokerServerConfig} {sent : List BrokerRequest} {bodies : List Bytes} {es : List Ev}
    (hlimit : cfg.limits.maxFrameBytes < 2 ^ 32)
    (hsent : List.Forall₂ (fun request body => encodeRequestFrame request cfg.limits = .ok body) sent bodies)
    (hin : (exec (Connection.step cfg) {} es).delivered <+: allFrames bodies) {o : Outgoing}
    (ho : o ∈ (exec (step cfg) {} es).begun) :
    ∃ k response, o.answers = some k ∧ encodeResponseFrame response cfg.limits = .ok o.body ∧
      ∃ request, sent[k]? = some request ∧ AnswerTo cfg (wireRequest request) response := by
  have hlegal : ∀ b ∈ bodies, b.length < 2 ^ 32 ∧ legalLength cfg b.length = true := by
    intro b hb
    obtain ⟨k, hk⟩ := List.mem_iff_getElem?.mp hb
    obtain ⟨request, -, henc⟩ := encoded_at hsent hk
    exact legal_of_request hlimit henc
  obtain ⟨hconsumed, hfaithful, howed⟩ := connection_run hlegal hin
  rw [session_exec] at hfaithful howed
  obtain ⟨k, hk⟩ := Option.ne_none_iff_exists'.mp (howed.begun o ho)
  obtain ⟨frame, hframe, -⟩ := (owned_genuine_run cfg es).2.answered o ho k hk
  have hbody : bodies[k]? = some frame := by
    have hwhole := hconsumed.whole.trans hin
    rw [← List.append_nil (allFrames _)] at hwhole
    obtain ⟨rest, hrest, -⟩ := exists_rest hconsumed.small (fun b hb => (hlegal b hb).1) hwhole
    rw [session_exec] at hrest
    rw [hrest, List.getElem?_append_left (List.getElem?_eq_some_iff.mp hframe).1]
    exact hframe
  obtain ⟨request, hrequest, henc⟩ := encoded_at hsent hbody
  obtain ⟨response, hanswer, hresponse⟩ := hfaithful.answered o ho k frame hk hframe _ (incoming_of_request henc)
  exact ⟨k, response, hk, hresponse, request, hrequest, hanswer⟩

/-- Whatever reader, workers and socket do, in whatever order: the responses the client reads
    are, in the fields BRK1 carries, answers to requests it sent, each to another one. -/
theorem client_is_answered (cfg : BrokerServerConfig) (hlimit : cfg.limits.maxFrameBytes < 2 ^ 32)
    (sent : List BrokerRequest) (stream : Bytes) (hsent : sendRequests cfg.limits sent = .ok stream) (es : List Ev)
    (hin : (exec (Connection.step cfg) {} es).delivered <+: stream)
    (hout : EachStep (step cfg) (fun s e => appendsToTorn s e = false) {} es) :
    ∃ answered : List (Nat × BrokerResponse),
      readResponses cfg.limits (exec (step cfg) {} es).out = answered.map (fun a => wireResponse a.2) ∧
        (answered.map (fun a => a.1)).Nodup ∧
        ∀ a ∈ answered, ∃ request, sent[a.1]? = some request ∧ AnswerTo cfg (wireRequest request) a.2 := by
  obtain ⟨bodies, rfl, hbodies⟩ := sendRequests_ok hsent
  have hstream : Streaming (exec (step cfg) {} es) := by
    refine exec_each (I := fun s : St => Streaming s) hout ?_ fun s e h hok => streaming_step h (step_effect cfg s e) hok
    exact ⟨⟨[], List.Sublist.refl _, List.prefix_refl _⟩, fun _ => ⟨[], List.Sublist.refl _, rfl⟩⟩
  obtain ⟨written, hsub, hprefix⟩ := hstream.begins
  obtain ⟨os, hos, rfl⟩ := List.sublist_map_iff.mp hsub
  have hall := fun o (ho : o ∈ os) => answer_of_begun hlimit hbodies hin (hos.subset ho)
  have : Nonempty BrokerResponse := ⟨{}⟩
  choose! key given hkey henc hanswer using hall
  have hsmall : ∀ b ∈ os.map (·.body), b.length < 2 ^ 32 ∧ b.length ≤ cfg.limits.maxFrameBytes := by
    intro b hb
    obtain ⟨o, ho, rfl⟩ := List.mem_map.mp hb
    obtain ⟨hfits, hbytes⟩ := encodeResponseFrame_ok.mp (henc o ho)
    rw [hbytes]
    exact ⟨lt_of_le_of_lt hfits.frame hlimit, hfits.frame⟩
  have hdecode : List.Forall₂ (fun b response => decodeResponseFrame b cfg.limits = .ok response) (os.map (·.body))
      (os.map fun o => wireResponse (given o)) := by
    rw [List.forall₂_map_left_iff, List.forall₂_map_right_iff, List.forall₂_same]
    exact fun o ho => decode_encodeResponse (henc o ho)
  obtain ⟨n, hread⟩ := readResponses_of_prefix hsmall hdecode hprefix
  refine ⟨(os.take n).map fun o => (key o, given o), ?_, ?_, ?_⟩
  · rw [hread, ← List.map_take, List.map_map]
    rfl
  · -- the frames answered, in the order of the writing, are all different
    have hkeys : ((os.take n).map fun o => (key o, given o)).map (fun a => a.1) = (os.take n).filterMap (·.answers) := by
      have hans : ∀ o ∈ os.take n, o.answers = (some ∘ key) o := fun o ho => hkey o (List.mem_of_mem_take ho)
      rw [List.map_map, List.filterMap_congr hans, List.filterMap_eq_map]
      rfl
    rw [hkeys]
    exact (owned_genuine_run cfg es).1.once.sublist (((List.take_sublist n os).trans hos).filterMap _)
  · intro a ha
    obtain ⟨o, ho, rfl⟩ := List.mem_map.mp ha
    exact hanswer o (List.mem_of_mem_take ho)

/-- Two requests where one at a time is allowed: the second is turned away before the first is
    answered. -/
def twoPings : List Ev :=
  awaits 0 ++ arrives pingFrame ++ [.reader] ++ awaits 1 ++ arrives pingFrame ++ [.reader, .reader] ++
    [.send (.accepted 4), .send (.accepted 1000)] ++ answers 0

theorem client_is_answered_twoPings :
    (exec (step oneAtATime) {} twoPings).begunFrames = [1, 0] ∧
      ∃ answered : List (Nat × BrokerResponse),
        readResponses oneAtATime.limits (exec (step oneAtATime) {} twoPings).out =
            answered.map (fun a => wireResponse a.2) ∧
          (answered.map (fun a => a.1)).Nodup ∧
          ∀ a ∈ answered, ∃ request, [pingRequest, pingRequest][a.1]? = some request ∧
            AnswerTo oneAtATime (wireRequest request) a.2 :=
  ⟨by decide +kernel, client_is_answered oneAtATime (by decide) [pingRequest, pingRequest] (allFrames [pingFrame, pingFrame])
    (by decide +kernel) twoPings (by decide +kernel) (by decide +kernel)⟩

end Overhauled.Server.Exchange
