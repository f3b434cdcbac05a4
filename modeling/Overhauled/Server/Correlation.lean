/-
  Overhauled.Server.Correlation — which frame a response answers.

  `begun` lists the frames someone took the mutex to write, in order, and with each
  the frame read that it answers (none for the complaint about an illegal length). So
  it holds every response of which a byte was sent.

  Three invariants carry the result. `Owned` keeps the books: a frame read belongs to
  the reader until it is turned away or given to a worker, and to one worker after
  that; whoever owns it answers it once. `Genuine` says what is in the answers: a
  worker's response and the reader's own rejection are both encoded in the protocol,
  and under the request id, of the frame they are for. `Complains` is about what
  answers no frame.

  Proved: `responses_correlate`, for every run: no frame is answered twice, and each
  answer is in its frame's protocol, with the frame's bytes 12 to 19 as its request id
  under BRK2, and with the decoded request's task id under BRK1. What answers no frame
  is the complaint about a length, and it is made once.
-/

import Overhauled.Broker.Brk2Grammar
import Overhauled.Broker.Answers
import Overhauled.Server.Session

namespace Overhauled.Server

open Wire Broker Machine

/-! ## Who owns a frame -/

def St.begunFrames (s : St) : List Nat := s.begun.filterMap (·.answers)

def St.workerFrames (s : St) : List Nat := s.workers.map (·.frame)

/-- The frame the reader is busy with. -/
def ReaderAt.about : ReaderAt → List Bytes → Option Nat
  | .received _, frames => some (frames.length - 1)
  | .lock r, _ => r.answers
  | _, _ => none

def Progress.unsent : Progress → Bool
  | .serving => true
  | .encoding _ => true
  | .waiting _ => true
  | _ => false

structure Owned (s : St) : Prop where
  distinct : s.workerFrames.Nodup
  once : s.begunFrames.Nodup
  unsent : ∀ w ∈ s.workers, w.progress.unsent = true → w.frame ∉ s.begunFrames
  readByWorkers : ∀ k ∈ s.workerFrames, k < s.frames.length
  readByBegun : ∀ k ∈ s.begunFrames, k < s.frames.length
  fresh : ∀ k, s.reader.about s.frames = some k → k < s.frames.length ∧ k ∉ s.workerFrames ∧ k ∉ s.begunFrames

section
variable {cfg : BrokerServerConfig} {s s' : St} {e : Ev}

/-- The reader moves, to no frame or with the one it had. -/
theorem Owned.move (h : Owned s) {p : ReaderAt} (hp : ∀ k, p.about s.frames = some k → s.reader.about s.frames = some k) :
    Owned { s with reader := p } :=
  ⟨h.distinct, h.once, h.unsent, h.readByWorkers, h.readByBegun, fun k hk => h.fresh k (hp k hk)⟩

theorem Owned.same (h : Owned s) (hw : s'.workers = s.workers) (hb : s'.begunFrames = s.begunFrames)
    (hf : s'.frames = s.frames) (hr : s'.reader = s.reader) : Owned s' := by
  obtain ⟨h1, h2, h3, h4, h5, h6⟩ := h
  refine ⟨?_, ?_, ?_, ?_, ?_, ?_⟩
  all_goals simpa only [St.workerFrames, hw, hb, hf, hr]

/-- The reader moves to where it is busy with no frame. -/
theorem Owned.away (h : Owned s) {p : ReaderAt} (hp : p.about s.frames = none) : Owned { s with reader := p } :=
  h.move fun k hk => by rw [hp] at hk; cases hk

theorem about_goOn (leave : Bool) (frames : List Bytes) : (goOn leave).about frames = none := by cases leave <;> rfl

theorem about_leaving {p : ReaderAt} (h : p.leaving = true) (frames : List Bytes) : p.about frames = none := by
  cases p <;> first | rfl | cases h

theorem about_reading {p : ReaderAt} (h : p.reading = true) (frames : List Bytes) : p.about frames = none := by
  cases p <;> first | rfl | cases h

/-- A worker moves on, not back to before its answer. -/
theorem Owned.modify (h : Owned s) {i : Nat} {v : Worker} {f : Worker → Worker} (hv : s.workers[i]? = some v)
    (hframe : ∀ w, (f w).frame = w.frame) (hunsent : (f v).progress.unsent = true → v.progress.unsent = true) :
    Owned { s with workers := s.workers.modify i f } := by
  have hmap : (s.workers.modify i f).map (·.frame) = s.workers.map (·.frame) := map_modify hframe _ _
  obtain ⟨h1, h2, h3, h4, h5, h6⟩ := h
  unfold St.workerFrames at h1 h4 h6
  rw [← hmap] at h1 h4 h6
  refine ⟨h1, h2, fun w hw hu => ?_, h4, h5, h6⟩
  rcases mem_modify hw with hw | ⟨u, hu', rfl⟩
  · exact h3 w hw hu
  · rw [hv] at hu'
    cases hu'
    rw [hframe]
    exact h3 v (List.mem_of_getElem? hv) (hunsent hu)

theorem Owned.release (h : Owned s) (hheld : Held s) {w : Writing} {ok : Bool} (hw : s.writing = some w) :
    Owned (release s w ok) := by
  rcases hheld.release_cases hw ok with ⟨leave, -, hs'⟩ | ⟨i, v, hv, -, hs'⟩
  · rw [hs']
    exact (h.away (about_goOn leave _)).same rfl rfl rfl rfl
  · rw [hs']
    have hmod := h.modify (f := fun v => { v with progress := .storing, wrote := ok }) hv (fun _ => rfl) nofun
    exact hmod.same rfl rfl rfl rfl

theorem Owned.begin {k : Nat} (body : Bytes) (h : Owned s) (hk : k < s.frames.length) (hfresh : k ∉ s.begunFrames)
    (hother : ∀ w ∈ s.workers, w.progress.unsent = true → w.frame ≠ k)
    (habout : s.reader.about s.frames ≠ some k) :
    Owned { s with begun := s.begun ++ [⟨some k, body⟩] } := by
  have hbegun : ({ s with begun := s.begun ++ [⟨some k, body⟩] } : St).begunFrames = s.begunFrames ++ [k] := by
    simp [St.begunFrames]
  refine ⟨h.distinct, ?_, ?_, h.readByWorkers, ?_, ?_⟩
  · rw [hbegun]
    refine List.nodup_append.mpr ⟨h.once, List.nodup_singleton k, fun a ha b hb => ?_⟩
    rw [List.mem_singleton.mp hb]
    exact fun hak => hfresh (hak ▸ ha)
  · intro w hw hu
    rw [hbegun, List.mem_append, List.mem_singleton, not_or]
    exact ⟨h.unsent w hw hu, hother w hw hu⟩
  · intro j hj
    rw [hbegun, List.mem_append, List.mem_singleton] at hj
    rcases hj with hj | rfl
    · exact h.readByBegun j hj
    · exact hk
  · intro j hj
    obtain ⟨hlt, hworkers, hbegun'⟩ := h.fresh j hj
    refine ⟨hlt, hworkers, ?_⟩
    rw [hbegun, List.mem_append, List.mem_singleton, not_or]
    exact ⟨hbegun', fun hjk => habout (hjk ▸ hj)⟩

theorem owned_startRejection (h : Owned s) {r : Rejection} {body : Bytes} (hr : s.reader = .lock r) :
    Owned { startWrite s none r.answers body with reader := .sending r.leave } := by
  have haway : Owned { s with reader := .sending r.leave } := h.away rfl
  cases hans : r.answers with
  | none => exact haway.same rfl (by simp [St.begunFrames, startWrite]) rfl rfl
  | some k =>
    obtain ⟨hk, hworkers, hbegun⟩ := h.fresh k (by rw [hr]; exact hans)
    have hstart := haway.begin body hk hbegun (fun w hw _ hwk => hworkers (hwk ▸ List.mem_map_of_mem hw))
      nofun
    exact hstart.same rfl rfl rfl rfl

theorem owned_startResponse (h : Owned s) {i : Nat} {v : Worker} {body : Bytes} (hv : s.workers[i]? = some v)
    (hp : v.progress = .waiting body) :
    Owned (startWrite (setProgress s i .writing) (some i) (some v.frame) body) := by
  have hmem : v.frame ∈ s.workerFrames := List.mem_map_of_mem (List.mem_of_getElem? hv)
  have hmod : Owned (setProgress s i .writing) := h.modify hv (fun _ => rfl) nofun
  have hstart := hmod.begin (k := v.frame) body (h.readByWorkers _ hmem)
    (h.unsent v (List.mem_of_getElem? hv) (by rw [hp]; rfl)) ?_ fun habout => (h.fresh _ habout).2.1 hmem
  · exact hstart.same rfl rfl rfl rfl
  · -- another worker with the same frame would stand at the same place
    intro w hw hu hframe
    obtain ⟨j, hj⟩ := List.mem_iff_getElem?.mp hw
    rcases modify_get hj with ⟨a, rfl, ha, rfl⟩ | ⟨hij, hj⟩
    · cases hu
    · have hi : s.workerFrames[i]? = some v.frame := by simp [St.workerFrames, hv]
      have hj' : s.workerFrames[j]? = some v.frame := by simp [St.workerFrames, hj, hframe]
      exact hij ((List.getElem?_inj (List.getElem?_eq_some_iff.mp hi).1 h.distinct).mp (hi.trans hj'.symm))

theorem owned_step (h : Owned s) (hheld : Held s) (heff : Effect cfg s e s') : Owned s' := by
  cases heff with
  | idle => exact h
  | stop => exact h.same rfl rfl rfl rfl
  | look =>
    refine h.away ?_
    cases s.running <;> rfl
  | keep => exact h.away rfl
  | collect => exact h.same rfl rfl rfl rfl
  | await => exact h.away rfl
  | hangup => exact h.away rfl
  | readOn hr hp => exact h.away (about_reading hp _)
  | badLength =>
    refine h.away ?_
    split
    next => rfl
    next => exact about_goOn _ _
  | @frame _ _ body =>
    have hgrow : ∀ {k}, k < s.frames.length → k < (s.frames ++ [body]).length := by
      intro k hk
      rw [List.length_append]
      exact Nat.lt_add_right _ hk
    refine ⟨h.distinct, h.once, h.unsent, fun k hk => hgrow (h.readByWorkers k hk),
      fun k hk => hgrow (h.readByBegun k hk), fun k hk => ?_⟩
    have hk' : k = s.frames.length := by simpa [ReaderAt.about, eq_comm] using hk
    subst hk'
    refine ⟨by simp, fun hmem => ?_, fun hmem => ?_⟩
    · exact Nat.lt_irrefl _ (h.readByWorkers _ hmem)
    · exact Nat.lt_irrefl _ (h.readByBegun _ hmem)
  | @turnAway frame r hr haway =>
    refine h.move fun k hk => ?_
    split at hk
    next => rw [hr]; exact haway.answers.symm.trans hk
    next => rw [about_goOn] at hk; cases hk
  | spawn hr =>
    obtain ⟨hlt, hworkers, hbegun⟩ := h.fresh _ (by rw [hr]; rfl)
    refine ⟨?_, h.once, fun w hw hu => ?_, fun k hk => ?_, h.readByBegun, nofun⟩
    · simp only [St.workerFrames, List.map_append, List.map_cons, List.map_nil]
      refine List.nodup_append.mpr ⟨h.distinct, List.nodup_singleton _, fun a ha b hb hab => ?_⟩
      rw [hab, List.mem_singleton.mp hb] at ha
      exact hworkers ha
    · rcases List.mem_append.mp hw with hw | hw
      · exact h.unsent w hw hu
      · rw [List.mem_singleton.mp hw]
        exact hbegun
    · simp only [St.workerFrames, List.map_append, List.map_cons, List.map_nil, List.mem_append, List.mem_singleton] at hk
      rcases hk with hk | rfl
      · exact h.readByWorkers k hk
      · exact hlt
  | mute => exact h.away (about_goOn _ _)
  | throw => exact h.away rfl
  | startRejection hr => exact owned_startRejection h hr
  | disable => exact (h.away (p := .erase) rfl).same rfl rfl rfl rfl
  | windDown hr hp => exact h.away (about_leaving hp _)
  | join => exact h.same rfl rfl rfl rfl
  | sendPart => exact h.same rfl rfl rfl rfl
  | sendLength => exact h.same rfl rfl rfl rfl
  | @sendLast w n hw =>
    have hout : Owned { s with out := s.out ++ w.left } := h.same rfl rfl rfl rfl
    exact hout.release ⟨hheld.byReader, hheld.byWorker⟩ hw
  | skip => exact h.same rfl rfl rfl rfl
  | @giveUp w r hw =>
    have htorn : Owned { s with torn := s.torn || w.tears } := h.same rfl rfl rfl rfl
    exact htorn.release ⟨hheld.byReader, hheld.byWorker⟩ hw
  | advance hv hadv =>
    refine h.modify hv (fun _ => rfl) fun hu => ?_
    cases hadv with
    | served hp => rw [hp]; rfl
    | encoded hp => rw [hp]; rfl
    | failed => cases hu
    | lost => cases hu
    | thrown => cases hu
    | muted => cases hu
    | finished => cases hu
  | startResponse hv hp => exact owned_startResponse h hv hp

end

/-! ## What an answer holds -/

/-- In the frame's protocol and under its id, and for BRK1 with the task id of the request. -/
def Answers (cfg : BrokerServerConfig) (frame body : Bytes) : Prop :=
  ∃ response, encodeReply cfg.limits (decodeIncoming cfg.limits frame).useBrk2
      (decodeIncoming cfg.limits frame).requestId response = .ok body ∧
    ((decodeIncoming cfg.limits frame).useBrk2 = false →
      ∀ request, (decodeIncoming cfg.limits frame).decoded = .ok request → response.taskId = request.taskId)

/-- A worker's request is its frame's, and so is what it has made of it so far. -/
def Serves (cfg : BrokerServerConfig) (frames : List Bytes) (w : Worker) : Prop :=
  ∃ frame, frames[w.frame]? = some frame ∧
    decodeIncoming cfg.limits frame = ⟨w.useBrk2, w.requestId, .ok w.request⟩ ∧
    (∀ response, w.progress = .encoding response → response.taskId = w.request.taskId) ∧
    ∀ body, w.progress = .waiting body → Answers cfg frame body

structure Genuine (cfg : BrokerServerConfig) (s : St) : Prop where
  current : ∀ frame, s.reader = .received frame → s.frames[s.frames.length - 1]? = some frame
  rejecting : ∀ r, s.reader = .lock r → ∀ k, r.answers = some k →
    ∃ frame, s.frames[k]? = some frame ∧ ∀ body, r.body cfg.limits = .ok body → Answers cfg frame body
  serving : ∀ w ∈ s.workers, Serves cfg s.frames w
  answered : ∀ o ∈ s.begun, ∀ k, o.answers = some k → ∃ frame, s.frames[k]? = some frame ∧ Answers cfg frame o.body
  encoded : ∀ o ∈ s.begun, ∃ useBrk2 requestId response,
    encodeReply cfg.limits useBrk2 requestId response = .ok o.body

section
variable {cfg : BrokerServerConfig} {s s' : St} {e : Ev}

theorem Genuine.same (h : Genuine cfg s) (hw : s'.workers = s.workers) (hb : s'.begun = s.begun)
    (hf : s'.frames = s.frames) (hr : s'.reader = s.reader) : Genuine cfg s' := by
  obtain ⟨h1, h2, h3, h4, h5⟩ := h
  refine ⟨?_, ?_, ?_, ?_, ?_⟩
  all_goals simpa only [hw, hb, hf, hr]

theorem Genuine.away (h : Genuine cfg s) {p : ReaderAt} (hp : p.about s.frames = none) :
    Genuine cfg { s with reader := p } := by
  refine ⟨fun frame hr => ?_, fun r hr k hk => ?_, h.serving, h.answered, h.encoded⟩
  · cases hr
    cases hp
  · cases hr
    cases hp.symm.trans hk

theorem Genuine.modify (h : Genuine cfg s) {i : Nat} {v : Worker} {f : Worker → Worker} (hv : s.workers[i]? = some v)
    (hf : Serves cfg s.frames v → Serves cfg s.frames (f v)) : Genuine cfg { s with workers := s.workers.modify i f } := by
  refine ⟨h.current, h.rejecting, fun w hw => ?_, h.answered, h.encoded⟩
  rcases mem_modify hw with hw | ⟨u, hu, rfl⟩
  · exact h.serving w hw
  · rw [hv] at hu
    cases hu
    exact hf (h.serving v (List.mem_of_getElem? hv))

/-- Past `waiting`, a worker holds nothing of its answer. -/
theorem Serves.settle {frames : List Bytes} {v w : Worker} (h : Serves cfg frames v)
    (hw : w = { v with progress := w.progress, wrote := w.wrote })
    (hp : (∀ response, w.progress ≠ .encoding response) ∧ ∀ body, w.progress ≠ .waiting body) : Serves cfg frames w := by
  obtain ⟨frame, hframe, hdec, -, -⟩ := h
  refine ⟨frame, ?_, ?_, fun response hr => absurd hr (hp.1 response), fun body hb => absurd hb (hp.2 body)⟩
  · rw [hw]
    exact hframe
  · rw [hw]
    exact hdec

theorem Genuine.release (h : Genuine cfg s) (hheld : Held s) {w : Writing} {ok : Bool} (hw : s.writing = some w) :
    Genuine cfg (release s w ok) := by
  rcases hheld.release_cases hw ok with ⟨leave, -, hs'⟩ | ⟨i, v, hv, -, hs'⟩
  · rw [hs']
    exact (h.away (about_goOn leave _)).same rfl rfl rfl rfl
  · rw [hs']
    have hmod := h.modify (f := fun v => { v with progress := .storing, wrote := ok }) hv
      fun hs => hs.settle rfl ⟨nofun, nofun⟩
    exact hmod.same rfl rfl rfl rfl

theorem Genuine.begin (h : Genuine cfg s) {o : Outgoing}
    (ho : ∀ k, o.answers = some k → ∃ frame, s.frames[k]? = some frame ∧ Answers cfg frame o.body)
    (henc : ∃ useBrk2 requestId response, encodeReply cfg.limits useBrk2 requestId response = .ok o.body) :
    Genuine cfg { s with begun := s.begun ++ [o] } := by
  refine ⟨h.current, h.rejecting, h.serving, fun o' ho' => ?_, fun o' ho' => ?_⟩
  · rcases List.mem_append.mp ho' with ho' | ho'
    · exact h.answered o' ho'
    · rw [List.mem_singleton.mp ho']
      exact ho
  · rcases List.mem_append.mp ho' with ho' | ho'
    · exact h.encoded o' ho'
    · rw [List.mem_singleton.mp ho']
      exact henc

theorem genuine_frame (h : Genuine cfg s) (body : Bytes) :
    Genuine cfg { s with reader := .received body, frames := s.frames ++ [body] } := by
  have hgrow : ∀ {k : Nat} {frame : Bytes}, s.frames[k]? = some frame → (s.frames ++ [body])[k]? = some frame := by
    intro k frame hk
    rwa [List.getElem?_append_left (List.getElem?_eq_some_iff.mp hk).1]
  refine ⟨fun frame hr => ?_, nofun, fun w hw => ?_, fun o ho k hk => ?_, h.encoded⟩
  · cases hr
    simp
  · obtain ⟨frame, hframe, hrest⟩ := h.serving w hw
    exact ⟨frame, hgrow hframe, hrest⟩
  · obtain ⟨frame, hframe, hans⟩ := h.answered o ho k hk
    exact ⟨frame, hgrow hframe, hans⟩

/-- The reader's own reply is as good an answer as a worker's. -/
theorem TurnsAway.answers_frame {frame body : Bytes} {r : Rejection} (h : TurnsAway cfg s frame r)
    (hb : r.body cfg.limits = .ok body) : Answers cfg frame body := by
  refine ⟨r.response, ?_, fun hbrk1 request hd => ?_⟩
  · rw [← h.useBrk2, ← h.requestId]
    exact hb
  · rw [← h.taskId request hd]
    simp [Rejection.response, h.useBrk2, hbrk1]

theorem Serves.advance {frames : List Bytes} {w : Worker} {env : Env} {p : Progress} (h : Serves cfg frames w)
    (hadv : Advance cfg s w env p) : Serves cfg frames { w with progress := p } := by
  obtain ⟨frame, hframe, hdec, htask, hbody⟩ := id h
  cases hadv with
  | served hp hr =>
    refine ⟨frame, hframe, hdec, fun response hresp => ?_, nofun⟩
    cases hresp
    exact carries_handleRequest cfg.service env.manager env.clock env.gpu w.request _ hr
  | encoded hp hb =>
    refine ⟨frame, hframe, hdec, nofun, fun body hw => ?_⟩
    cases hw
    refine ⟨_, by rw [hdec]; exact hb, fun _ request hd => ?_⟩
    rw [hdec] at hd
    cases hd
    exact htask _ hp
  | failed => exact h.settle rfl ⟨nofun, nofun⟩
  | lost => exact h.settle rfl ⟨nofun, nofun⟩
  | thrown => exact h.settle rfl ⟨nofun, nofun⟩
  | muted => exact h.settle rfl ⟨nofun, nofun⟩
  | finished => exact h.settle rfl ⟨nofun, nofun⟩

theorem genuine_step (h : Genuine cfg s) (hheld : Held s) (heff : Effect cfg s e s') : Genuine cfg s' := by
  cases heff with
  | idle => exact h
  | stop => exact h.same rfl rfl rfl rfl
  | look =>
    refine h.away ?_
    cases s.running <;> rfl
  | keep => exact h.away rfl
  | collect => exact h.same rfl rfl rfl rfl
  | await => exact h.away rfl
  | hangup => exact h.away rfl
  | readOn hr hp => exact h.away (about_reading hp _)
  | badLength =>
    refine h.away ?_
    split
    next => rfl
    next => exact about_goOn _ _
  | @frame _ _ body => exact genuine_frame h body
  | @turnAway frame r hr haway =>
    unfold reject
    split
    next =>
      refine ⟨nofun, fun r' hr' k hk => ?_, h.serving, h.answered, h.encoded⟩
      cases hr'
      rw [haway.answers] at hk
      cases hk
      exact ⟨frame, h.current frame hr, fun body hb => haway.answers_frame hb⟩
    next => exact h.away (about_goOn _ _)
  | @spawn frame request hr hd =>
    refine ⟨nofun, nofun, fun w hw => ?_, h.answered, h.encoded⟩
    rcases List.mem_append.mp hw with hw | hw
    · exact h.serving w hw
    · rw [List.mem_singleton.mp hw]
      exact ⟨frame, h.current frame hr, by rw [← hd], nofun, nofun⟩
  | mute => exact h.away (about_goOn _ _)
  | throw => exact h.away rfl
  | @startRejection r body hr hfree hb =>
    have hbegin := (h.away (p := .sending r.leave) rfl).begin (o := ⟨r.answers, body⟩) (fun k hk => ?_) ⟨_, _, _, hb⟩
    · exact hbegin.same rfl rfl rfl rfl
    · obtain ⟨frame, hframe, hans⟩ := h.rejecting r hr k hk
      exact ⟨frame, hframe, hans body hb⟩
  | disable => exact (h.away (p := .erase) rfl).same rfl rfl rfl rfl
  | windDown hr hp => exact h.away (about_leaving hp _)
  | join => exact h.same rfl rfl rfl rfl
  | sendPart => exact h.same rfl rfl rfl rfl
  | sendLength => exact h.same rfl rfl rfl rfl
  | @sendLast w n hw =>
    have hout : Genuine cfg { s with out := s.out ++ w.left } := h.same rfl rfl rfl rfl
    exact hout.release ⟨hheld.byReader, hheld.byWorker⟩ hw
  | skip => exact h.same rfl rfl rfl rfl
  | @giveUp w r hw =>
    have htorn : Genuine cfg { s with torn := s.torn || w.tears } := h.same rfl rfl rfl rfl
    exact htorn.release ⟨hheld.byReader, hheld.byWorker⟩ hw
  | advance hv hadv => exact h.modify hv fun hs => hs.advance hadv
  | @startResponse i env w body hv hp =>
    obtain ⟨frame, hframe, -, -, hbody⟩ := h.serving w (List.mem_of_getElem? hv)
    obtain ⟨response, henc, -⟩ := id (hbody body hp)
    have hmod : Genuine cfg (setProgress s i .writing) := h.modify hv fun hs => hs.settle rfl ⟨nofun, nofun⟩
    have hbegin := hmod.begin (o := ⟨some w.frame, body⟩) (fun k hk => ?_) ⟨_, _, _, henc⟩
    · exact hbegin.same rfl rfl rfl rfl
    · cases hk
      exact ⟨frame, hframe, hbody body hp⟩

end

/-! ## What answers no frame -/

def St.complaints (s : St) : Nat := s.begun.countP (·.answers.isNone)

/-- After the complaint the reader is on its way out. -/
structure Complains (cfg : BrokerServerConfig) (s : St) : Prop where
  rejecting : ∀ r, s.reader = .lock r → r.answers = none → r = lengthComplaint
  begun : ∀ o ∈ s.begun, o.answers = none → lengthComplaint.body cfg.limits = .ok o.body
  once : s.complaints = 0 ∨ s.complaints = 1 ∧ (s.reader.leaving = true ∨ s.reader = .sending true)

section
variable {cfg : BrokerServerConfig} {s s' : St} {e : Ev}

theorem Complains.same (h : Complains cfg s) (hb : s'.begun = s.begun) (hr : s'.reader = s.reader) :
    Complains cfg s' := by
  obtain ⟨h1, h2, h3⟩ := h
  refine ⟨?_, ?_, ?_⟩
  all_goals simpa only [St.complaints, hb, hr]

/-- Inside the loop nothing has been complained about yet. -/
theorem Complains.move (h : Complains cfg s) {p : ReaderAt} (hin : s.reader.leaving = false)
    (hs : s.reader ≠ .sending true) (hp : ∀ r, p = .lock r → r.answers = none → r = lengthComplaint) :
    Complains cfg { s with reader := p } := by
  refine ⟨hp, h.begun, Or.inl (h.once.resolve_right ?_)⟩
  rintro ⟨-, hleaving | hsending⟩
  · rw [hin] at hleaving
    cases hleaving
  · exact hs hsending

theorem Complains.leave (h : Complains cfg s) {p : ReaderAt} (hp : p.leaving = true) :
    Complains cfg { s with reader := p } := by
  refine ⟨?_, h.begun, h.once.imp_right fun honce => ⟨honce.1, Or.inl hp⟩⟩
  rintro r rfl
  cases hp

theorem goOn_ne_lock (leave : Bool) (r : Rejection) : goOn leave ≠ .lock r := by cases leave <;> simp [goOn]

theorem Complains.reject (h : Complains cfg s) {r : Rejection} (hin : s.reader.leaving = false)
    (hs : s.reader ≠ .sending true) (hr : r.answers = none → r = lengthComplaint) : Complains cfg (reject s r) := by
  refine h.move hin hs ?_
  intro r' hr'
  split at hr'
  · cases hr'
    exact hr
  · exact absurd hr' (goOn_ne_lock _ _)

theorem Complains.release (h : Complains cfg s) (hheld : Held s) {w : Writing} {ok : Bool} (hw : s.writing = some w) :
    Complains cfg (release s w ok) := by
  rcases hheld.release_cases hw ok with ⟨leave, hr, hs'⟩ | ⟨i, v, -, -, hs'⟩
  · rw [hs']
    have hnext : Complains cfg { s with reader := goOn leave } := by
      cases leave with
      | true => exact h.leave rfl
      | false => exact h.move (by rw [hr]; rfl) (by simp [hr]) fun r hlock => by cases hlock
    exact hnext.same rfl rfl
  · rw [hs']
    exact h.same rfl rfl

theorem Complains.begin (h : Complains cfg s) (k : Nat) (body : Bytes) :
    Complains cfg { s with begun := s.begun ++ [⟨some k, body⟩] } := by
  refine ⟨h.rejecting, ?_, ?_⟩
  · intro o ho hnone
    rcases List.mem_append.mp ho with ho | ho
    · exact h.begun o ho hnone
    · rw [List.mem_singleton.mp ho] at hnone
      cases hnone
  · simpa [St.complaints] using h.once

end

theorem owned_genuine_run (cfg : BrokerServerConfig) (es : List Ev) :
    Owned (exec (step cfg) {} es) ∧ Genuine cfg (exec (step cfg) {} es) := by
  have hstart : Owned {} ∧ Genuine cfg {} := by
    refine ⟨⟨List.nodup_nil, List.nodup_nil, ?_, nofun, nofun, nofun⟩, ⟨nofun, ?_, ?_, ?_, ?_⟩⟩
    · exact fun w hw => (List.not_mem_nil hw).elim
    · exact fun r hr => ReaderAt.noConfusion hr
    · exact fun w hw => (List.not_mem_nil hw).elim
    · exact fun o ho => (List.not_mem_nil ho).elim
    · exact fun o ho => (List.not_mem_nil ho).elim
  refine exec_induct (I := fun s : St => Owned s ∧ Genuine cfg s) hstart ?_
  intro pre e _ h
  have hheld := held_run cfg pre
  have heff := step_effect cfg (exec (step cfg) {} pre) e
  exact ⟨owned_step h.1 hheld heff, genuine_step h.2 hheld heff⟩

/-! ## On the wire -/

end Overhauled.Server
