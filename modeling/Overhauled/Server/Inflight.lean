/-
  Overhauled.Server.Inflight — the requests a session has taken on: when it turns one
  away for being too many, and whether all are answered by the time it closes.

  (1) The cap is checked against the list of pending workers, and the list is pruned
      only before the reader waits for the next frame. A worker that answers while the
      reader waits is still counted: `an_answered_request_is_counted` is a client that
      never has more than one request open and is turned away with a cap of one. What
      the source needs for its rejections to be true is that no listed worker
      completes its response after the reader has looked at its record
      (`backpressure_justified`).
  (2) A receive timeout ends the session, and the first thing the end does is to
      forbid writing. `a_slow_request_loses_its_answer` is a request whose answer
      comes after the timeout. When the timeout finds every worker finished, no
      `handle_request` is left by an exception and every reply fits its frame, each
      request taken on was answered (`closed_after_answers`).
-/

import Overhauled.Server.Session

namespace Overhauled.Server

open Wire Broker Machine
open Wasm (Computed)

/-! ## (1) Back-pressure -/

def St.wroteAt (s : St) (i : Nat) : Bool := (s.workers[i]?).any (·.wrote)

/-- How many requests taken on have not had their response written. -/
def St.unanswered (s : St) : Nat := s.workers.countP fun w => !w.wrote

/-- The records the reader has looked at in this turn, while the check is still to come. -/
def ReaderAt.looked : ReaderAt → List Nat → List Nat
  | .reap k, pending => pending.take k
  | .readLen _, pending => pending
  | .readBody _ _, pending => pending
  | .received _, pending => pending
  | _, _ => []

def St.passed (s : St) : List Nat := s.reader.looked s.pending

/-- The step completes the response of a worker already looked at, or looks at a worker
    between the last byte of its response and the store of its flag. -/
def late (s : St) : Ev → Bool
  | .send (.accepted n) =>
    s.writing.any fun w => w.next.isNone && w.left.length ≤ n && w.holder.any fun i => i ∈ s.passed
  | .reader =>
    match s.reader with
    | .reap k => (s.pending[k]?).any fun i => s.wroteAt i && !s.isDone i
    | _ => false
  | _ => false

/-- The reader's next step turns a well-formed request away for being too many. -/
def Refuses (cfg : BrokerServerConfig) (s : St) : Prop :=
  ∃ frame request r, s.reader = .received frame ∧ (decodeIncoming cfg.limits frame).decoded = .ok request ∧
    (step cfg s .reader).reader = .lock r ∧ r.error = ascii "too many inflight requests for client"

/-- The listed workers are different ones, and those looked at have not written. -/
structure Listed (s : St) : Prop where
  nodup : s.pending.Nodup
  bound : ∀ i ∈ s.pending, i < s.workers.length
  unwritten : ∀ i ∈ s.passed, s.wroteAt i = false

section
variable {cfg : BrokerServerConfig} {s s' : St} {e : Ev}

theorem wroteAt_setProgress (i j : Nat) (p : Progress) : (setProgress s i p).wroteAt j = s.wroteAt j := by
  unfold St.wroteAt setProgress
  by_cases hij : i = j
  · subst hij
    simp only [List.getElem?_modify]
    cases s.workers[i]? <;> simp
  · simp only [modify_other _ hij]

theorem looked_reading {p : ReaderAt} (h : p.reading = true) (l : List Nat) : p.looked l = l := by
  cases p <;> first | rfl | cases h

theorem looked_leaving {p : ReaderAt} (h : p.leaving = true) (l : List Nat) : p.looked l = [] := by
  cases p <;> first | rfl | cases h

theorem looked_goOn (leave : Bool) (l : List Nat) : (goOn leave).looked l = [] := by cases leave <;> rfl

/-- A step that completes no response. -/
theorem Listed.keep (h : Listed s) (hp : s'.pending.Sublist s.pending)
    (hlen : s'.workers.length = s.workers.length) (hwrote : ∀ i, s'.wroteAt i = true → s.wroteAt i = true)
    (hpass : ∀ i ∈ s'.passed, i ∈ s.passed ∨ s.wroteAt i = false) : Listed s' where
  nodup := hp.nodup h.nodup
  bound i hi := hlen ▸ h.bound i (hp.subset hi)
  unwritten i hi := by
    have hs : s.wroteAt i = false := (hpass i hi).elim (h.unwritten i) id
    cases hw : s'.wroteAt i with
    | false => rfl
    | true => rw [hwrote i hw] at hs; cases hs

/-- Only the reader moves. -/
theorem Listed.move (h : Listed s) {p : ReaderAt}
    (hpass : ∀ i ∈ p.looked s.pending, i ∈ s.passed ∨ s.wroteAt i = false) : Listed { s with reader := p } :=
  h.keep (List.Sublist.refl _) rfl (fun _ hw => hw) hpass

/-- The reader moves to where it has looked at nothing. -/
theorem Listed.away (h : Listed s) {p : ReaderAt} (hp : p.looked s.pending = []) : Listed { s with reader := p } :=
  h.move fun i hi => by rw [hp] at hi; cases hi

theorem Listed.reject (h : Listed s) (r : Rejection) : Listed (reject s r) := by
  refine h.away ?_
  split
  next => rfl
  next => exact looked_goOn _ _

theorem Listed.release (h : Listed s) {w : Writing} {ok : Bool}
    (hfresh : ∀ i, w.holder = some i → ok = true → i ∉ s.passed) : Listed (release s w ok) := by
  unfold Server.release
  split
  next =>
    refine h.keep (List.Sublist.refl _) rfl (fun _ hw => hw) fun i hi => Or.inl ?_
    unfold St.passed at hi ⊢
    dsimp only at hi
    split at hi
    next => rw [looked_goOn] at hi; cases hi
    next => exact hi
  next i hi =>
    refine ⟨h.nodup, fun j hj => ?_, fun j hj => ?_⟩
    · simpa using h.bound j hj
    · have hold := h.unwritten j hj
      unfold St.wroteAt at hold ⊢
      dsimp only
      by_cases hij : i = j
      · subst hij
        cases ok with
        | true => exact absurd hj (hfresh i hi rfl)
        | false =>
          simp only [List.getElem?_modify]
          cases s.workers[i]? <;> simp
      · rwa [modify_other _ hij]

theorem listed_step (h : Listed s) (heff : Effect cfg s e s') (htimely : late s e = false) : Listed s' := by
  have same : ∀ {s' : St}, s'.pending = s.pending → s'.workers = s.workers → s'.reader = s.reader → Listed s' := by
    intro s' hp hw hr
    refine h.keep (hp ▸ List.Sublist.refl _) (by rw [hw]) (fun i => by simp [St.wroteAt, hw]) fun i hi => Or.inl ?_
    simpa only [St.passed, hr, hp] using hi
  cases heff with
  | idle => exact h
  | stop => exact same rfl rfl rfl
  | look =>
    refine h.away ?_
    cases s.running <;> rfl
  | @keep k j hr hj hd =>
    refine h.move fun i hi => ?_
    simp only [ReaderAt.looked, List.take_add_one, hj, Option.toList_some, List.mem_append, List.mem_singleton] at hi
    rcases hi with hi | hi
    · left
      simpa only [St.passed, hr, ReaderAt.looked] using hi
    · right
      subst hi
      simpa [late, hr, hj, hd] using htimely
  | @collect k j hr hj hd =>
    refine h.keep (List.eraseIdx_sublist _ _) rfl (fun _ hw => hw) fun i hi => Or.inl ?_
    simp only [St.passed, hr, ReaderAt.looked] at hi ⊢
    rwa [List.take_eraseIdx_eq_take_of_le _ _ _ (Nat.le_refl _)] at hi
  | @await k hr hk =>
    refine h.move fun i hi => Or.inl ?_
    simp only [St.passed, hr, ReaderAt.looked] at hi ⊢
    rwa [List.take_of_length_le (List.getElem?_eq_none_iff.mp hk)]
  | hangup => exact h.away rfl
  | readOn hr hp =>
    refine h.move fun i hi => Or.inl ?_
    rw [looked_reading hp] at hi
    rwa [St.passed, looked_reading hr]
  | badLength => exact h.reject _
  | frame hr =>
    refine h.keep (List.Sublist.refl _) rfl (fun _ hw => hw) fun i hi => Or.inl ?_
    simpa only [St.passed, hr, ReaderAt.looked] using hi
  | turnAway => exact h.reject _
  | spawn =>
    refine ⟨?_, fun i hi => ?_, fun i hi => by cases hi⟩
    · refine List.nodup_append.mpr ⟨h.nodup, List.nodup_singleton _, fun i hi j hj => ?_⟩
      rw [List.mem_singleton.mp hj]
      exact Nat.ne_of_lt (h.bound i hi)
    · rw [List.length_append, List.length_singleton]
      rcases List.mem_append.mp hi with hi | hi
      · exact Nat.lt_succ_of_lt (h.bound i hi)
      · rw [List.mem_singleton.mp hi]
        exact Nat.lt_succ_self _
  | mute => exact h.away (looked_goOn _ _)
  | throw => exact h.away rfl
  | startRejection => exact h.keep (List.Sublist.refl _) rfl (fun _ hw => hw) fun i hi => by cases hi
  | disable => exact h.keep (List.Sublist.refl _) rfl (fun _ hw => hw) fun i hi => by cases hi
  | windDown hr hp => exact h.away (looked_leaving hp _)
  | join hr hp =>
    refine h.keep (hp ▸ List.sublist_cons_self _ _) rfl (fun _ hw => hw) fun i hi => ?_
    simp only [St.passed, hr] at hi
    cases hi
  | sendPart => exact same rfl rfl rfl
  | sendLength => exact same rfl rfl rfl
  | @sendLast w n hw h0 hn hnext =>
    have hout : Listed { s with out := s.out ++ w.left } := same rfl rfl rfl
    refine hout.release fun i hi _ hpass => ?_
    have hlooked : i ∈ s.passed := hpass
    have hlate : late s (.send (.accepted n)) = true := by simp [late, hw, hnext, hn, hi, hlooked]
    rw [hlate] at htimely
    cases htimely
  | skip => exact same rfl rfl rfl
  | @giveUp w r hw hends =>
    have htorn : Listed { s with torn := s.torn || w.tears } := same rfl rfl rfl
    exact htorn.release fun i hi hok => nomatch hok
  | advance =>
    refine h.keep (List.Sublist.refl _) (by simp [setProgress]) (fun i hw => ?_) fun i hi => Or.inl hi
    rwa [wroteAt_setProgress] at hw
  | startResponse =>
    refine h.keep (List.Sublist.refl _) (by simp [startWrite, setProgress]) (fun i hw => ?_) fun i hi => Or.inl hi
    rwa [← wroteAt_setProgress]

/-- The check compares the cap with the number of listed workers. -/
theorem refuses_full (h : Refuses cfg s) : (∃ frame, s.reader = .received frame) ∧
    cfg.maxInflightPerClient ≤ s.pending.length := by
  obtain ⟨frame, request, r, hr, hd, hlock, -⟩ := h
  refine ⟨⟨frame, hr⟩, ?_⟩
  by_contra hroom
  have hstep : (step cfg s .reader).reader = .top := by
    simp only [step, readerStep, hr, receive, hd, ge_iff_le, if_neg hroom]
  rw [hstep] at hlock
  cases hlock

end

/-- While no listed worker completes its response after the reader has looked at its
    record, a request is turned away only when the cap's worth of requests is unanswered. -/
theorem backpressure_justified (cfg : BrokerServerConfig) (es : List Ev)
    (htimely : EachStep (step cfg) (fun s e => late s e = false) {} es)
    (hrefuses : Refuses cfg (exec (step cfg) {} es)) :
    cfg.maxInflightPerClient ≤ (exec (step cfg) {} es).unanswered := by
  have hlisted : Listed (exec (step cfg) {} es) := by
    refine exec_each (I := fun s : St => Listed s) htimely ⟨List.nodup_nil, nofun, nofun⟩ ?_
    intro s e h hlate
    exact listed_step h (step_effect cfg s e) hlate
  obtain ⟨⟨frame, hr⟩, hfull⟩ := refuses_full hrefuses
  refine hfull.trans (length_le_countP hlisted.nodup fun i hi => ?_)
  have hwrote : (exec (step cfg) {} es).wroteAt i = false := by
    refine hlisted.unwritten i ?_
    simpa only [St.passed, hr, ReaderAt.looked] using hi
  have hlt := hlisted.bound i hi
  simpa [St.wroteAt, List.getElem?_eq_getElem hlt] using hwrote

/-! A client that sends a small request over and over. -/

def pingRequest : BrokerRequest :=
  { taskId := ascii "t", source := ascii "a", destination := ascii "b", kind := ascii "k", timeoutMs := 1000 }

def pingFrame : Bytes := requestBytes pingRequest

/-- The reader passes over `listed` records and comes to wait for a frame. -/
def awaits (listed : Nat) : List Ev := List.replicate (listed + 2) .reader

def arrives (frame : Bytes) : List Ev := [.recv (.data (be 4 frame.length)), .recv (.data frame)]

/-- A worker serves its request and writes the response. -/
def answers (i : Nat) : List Ev :=
  [.worker i {}, .worker i {}, .worker i {}, .send (.accepted 4), .send (.accepted 1000), .worker i {}]

def oneAtATime : BrokerServerConfig := { maxInflightPerClient := 1 }

/-- A second request comes before the first is answered. -/
def twoOpen : List Ev := awaits 0 ++ arrives pingFrame ++ [.reader] ++ awaits 1 ++ arrives pingFrame

theorem backpressure_justified_two_open : 1 ≤ (exec (step oneAtATime) {} twoOpen).unanswered :=
  backpressure_justified oneAtATime twoOpen (by decide +kernel)
    ⟨pingFrame, pingRequest, { taskId := ascii "t", error := ascii "too many inflight requests for client", answers := some 1 },
      by decide +kernel, by decide +kernel, by decide +kernel, rfl⟩

/-- The first request is answered before the second comes. -/
def oneByOne : List Ev := awaits 0 ++ arrives pingFrame ++ [.reader] ++ awaits 1 ++ answers 0 ++ arrives pingFrame

theorem an_answered_request_is_counted :
    Refuses oneAtATime (exec (step oneAtATime) {} oneByOne) ∧ (exec (step oneAtATime) {} oneByOne).unanswered = 0 :=
  ⟨⟨pingFrame, pingRequest, { taskId := ascii "t", error := ascii "too many inflight requests for client", answers := some 1 },
      by decide +kernel, by decide +kernel, by decide +kernel, rfl⟩, by decide +kernel⟩

/-! ## (2) The end of a session -/

def St.allDone (s : St) : Bool := s.workers.all fun w => w.progress = .done

/-- The peer keeps the connection and sends legal lengths, no send fails, and nobody stops
    the server. -/
def undisturbed (cfg : BrokerServerConfig) (s : St) : Ev → Bool
  | .recv .failed => false
  | .recv (.data w) =>
    w ≠ [] && match s.reader with
      | .readLen got =>
        (got ++ w.take (4 - got.length)).length < 4 || legalLength cfg (ofBe (got ++ w.take (4 - got.length)))
      | _ => true
  | .send r => !r.ends
  | .stop => false
  | _ => true

def returns (answer : Computed BrokerResponse) : Bool := answer.result.isSome

def encodes (body : Except Bytes Bytes) : Bool := body.toOption.isSome

/-- The receive timeout finds every worker finished, and so does a rejection that does not
    fit its frame; no worker's request is left by an exception, and its response fits. -/
def patient (cfg : BrokerServerConfig) (s : St) : Ev → Bool
  | .recv .timedOut => s.allDone
  | .reader =>
    match s.reader with
    | .lock r => encodes (r.body cfg.limits) || s.allDone
    | _ => true
  | .worker i env =>
    (s.workers[i]?).all fun w =>
      match w.progress with
      | .serving => returns (handleRequest cfg.service env.manager env.clock env.gpu w.request).2
      | .encoding response => encodes (encodeReply cfg.limits w.useBrk2 w.requestId response)
      | _ => true
  | _ => true

/-- At the rejection the session ends with. -/
def ReaderAt.ending : ReaderAt → Bool
  | .lock r => r.leave
  | .sending leave => leave
  | _ => false

/-- Whoever is through with its response has written it, and the reader leaves the loop
    only when all are through. -/
structure Answering (s : St) : Prop where
  running : s.running = true
  enabled : s.reader.leaving = false → s.writesEnabled = true
  settled : ∀ w ∈ s.workers, w.progress = .storing ∨ w.progress = .done → w.wrote = true
  finished : s.reader.leaving = true → ∀ w ∈ s.workers, w.progress = .done
  stays : s.reader.ending = false

section
variable {cfg : BrokerServerConfig} {s s' : St} {e : Ev}

theorem allDone_iff : s.allDone = true ↔ ∀ w ∈ s.workers, w.progress = .done := by
  simp [St.allDone]

/-- The fields it speaks of. -/
theorem Answering.same (h : Answering s) (hrun : s'.running = s.running) (hr : s'.reader = s.reader)
    (hon : s'.writesEnabled = s.writesEnabled) (hw : s'.workers = s.workers) : Answering s' := by
  refine ⟨hrun.trans h.running, ?_, ?_, ?_, ?_⟩
  · rw [hr, hon]
    exact h.enabled
  · rw [hw]
    exact h.settled
  · rw [hr, hw]
    exact h.finished
  · rw [hr]
    exact h.stays

/-- The reader moves inside the loop. -/
theorem Answering.move (h : Answering s) {p : ReaderAt} (hs : s.reader.leaving = false) (hp : p.leaving = false)
    (hstays : p.ending = false) : Answering { s with reader := p } where
  running := h.running
  enabled _ := h.enabled hs
  settled := h.settled
  finished hp' := by rw [hp] at hp'; cases hp'
  stays := hstays

/-- The reader leaves the loop, or goes on leaving. -/
theorem Answering.leave (h : Answering s) {p : ReaderAt} (hdone : ∀ w ∈ s.workers, w.progress = .done)
    (hp : p.leaving = true) : Answering { s with reader := p } where
  running := h.running
  enabled hp' := by rw [hp] at hp'; cases hp'
  settled := h.settled
  finished _ := hdone
  stays := by cases p <;> first | rfl | cases hp

theorem Answering.turnAway (h : Answering s) {r : Rejection} (hs : s.reader.leaving = false) (hr : r.leave = false) :
    Answering (reject s r) := by
  refine h.move hs ?_ ?_
  all_goals rw [h.enabled hs, Bool.or_true, if_pos rfl]
  · rfl
  · exact hr

theorem Answering.in_loop (h : Answering s) {i : Nat} {v : Worker} (hv : s.workers[i]? = some v)
    (hne : v.progress ≠ .done) : s.reader.leaving = false := by
  cases hl : s.reader.leaving with
  | false => rfl
  | true => exact absurd (h.finished hl v (List.mem_of_getElem? hv)) hne

theorem reading_stays {p : ReaderAt} (h : p.reading = true) :
    p.leaving = false ∧ p.ending = false := by
  cases p <;> first | exact ⟨rfl, rfl⟩ | cases h

/-- A worker that is not through moves on. -/
theorem Answering.modify (h : Answering s) {i : Nat} {v : Worker} {f : Worker → Worker} (hv : s.workers[i]? = some v)
    (hne : v.progress ≠ .done) (hf : (f v).progress = .storing ∨ (f v).progress = .done → (f v).wrote = true) :
    Answering { s with workers := s.workers.modify i f } where
  running := h.running
  enabled := h.enabled
  settled w hw := by
    rcases mem_modify hw with hw | ⟨u, hu, rfl⟩
    · exact h.settled w hw
    · rw [hv] at hu
      cases hu
      exact hf
  finished hl := by
    have hin := h.in_loop hv hne
    rw [hin] at hl
    cases hl
  stays := h.stays

theorem Answering.release (h : Answering s) (hheld : Held s) {w : Writing} (hw : s.writing = some w) :
    Answering (release s w true) := by
  rcases hheld.release_cases hw true with ⟨leave, hr, hs'⟩ | ⟨i, v, hv, hprog, hs'⟩
  · rw [hs']
    have hleave : leave = false := by simpa [hr, ReaderAt.ending] using h.stays
    subst hleave
    have hmove : Answering { s with reader := .top } := h.move (by rw [hr]; rfl) rfl rfl
    exact hmove.same rfl rfl rfl rfl
  · rw [hs']
    have hmod := h.modify (f := fun v => { v with progress := .storing, wrote := true }) hv (by simp [hprog]) fun _ => rfl
    exact hmod.same rfl rfl rfl rfl

theorem Answering.advance (h : Answering s) {i : Nat} {env : Env} {v : Worker} {p : Progress}
    (hv : s.workers[i]? = some v) (hadv : Advance cfg s v env p)
    (hfits : patient cfg s (.worker i env) = true) : Answering (setProgress s i p) := by
  have hne : v.progress ≠ .done := by
    cases hadv with
    | served hp => simp [hp]
    | failed hp => simp [hp]
    | lost hp => simp [hp]
    | encoded hp => simp [hp]
    | thrown hp => simp [hp]
    | muted hp => rcases hp with ⟨_, hp⟩ | ⟨_, hp⟩ <;> simp [hp]
    | finished hp => simp [hp]
  refine h.modify hv hne fun hsettled => ?_
  cases hadv with
  | served => simp at hsettled
  | failed hp hr => simp [patient, hv, hp, hr, returns, Computed.result] at hfits
  | lost => simp at hsettled
  | encoded => simp at hsettled
  | thrown hp hb => simp [patient, hv, hp, hb, encodes, Except.toOption] at hfits
  | muted hp hoff =>
    have hon := h.enabled (h.in_loop hv hne)
    rw [hoff] at hon
    cases hon
  | finished hp => exact h.settled v (List.mem_of_getElem? hv) (Or.inl hp)

theorem answering_step (h : Answering s) (hheld : Held s) (heff : Effect cfg s e s')
    (hcalm : undisturbed cfg s e = true) (hpatient : patient cfg s e = true) : Answering s' := by
  cases heff with
  | idle => exact h
  | stop => cases hcalm
  | look hr => exact h.move (by rw [hr]; rfl) (by rw [h.running]; rfl) (by rw [h.running]; rfl)
  | keep hr => exact h.move (by rw [hr]; rfl) rfl rfl
  | collect => exact h.same rfl rfl rfl rfl
  | await hr => exact h.move (by rw [hr]; rfl) rfl rfl
  | @hangup r hr hends =>
    have hdone : s.allDone = true := by
      cases r with
      | data w =>
        have hnil : w = [] := by simpa [RecvResult.ends] using hends
        simp [undisturbed, hnil] at hcalm
      | interrupted => cases hends
      | timedOut => exact hpatient
      | failed => cases hcalm
    exact h.leave (allDone_iff.mp hdone) rfl
  | @readOn w p hr hp =>
    exact h.move (reading_stays hr).1 (reading_stays hp).1 (reading_stays hp).2
  | badLength hr hlen hbad =>
    simp only [undisturbed, hr, hbad, Bool.or_false, Bool.and_eq_true, decide_eq_true_eq] at hcalm
    exact absurd hcalm.2 hlen
  | @frame w got body len hr =>
    have hmove : Answering { s with reader := .received body } := h.move (by rw [hr]; rfl) rfl rfl
    exact hmove.same rfl rfl rfl rfl
  | turnAway hr haway => exact h.turnAway (by rw [hr]; rfl) haway.leave
  | spawn hr =>
    refine ⟨h.running, fun _ => h.enabled (by rw [hr]; rfl), fun w hw hsettled => ?_, ?_, rfl⟩
    · rcases List.mem_append.mp hw with hw | hw
      · exact h.settled w hw hsettled
      · rw [List.mem_singleton.mp hw] at hsettled
        simp at hsettled
    · intro hl
      cases hl
  | mute hr hoff =>
    have hon := h.enabled (by rw [hr]; rfl)
    rw [hoff] at hon
    cases hon
  | throw hr hb =>
    have hdone : s.allDone = true := by simpa [patient, hr, hb, encodes, Except.toOption] using hpatient
    exact h.leave (allDone_iff.mp hdone) rfl
  | @startRejection r body hr =>
    have hleave : r.leave = false := by simpa [hr, ReaderAt.ending] using h.stays
    have hmove : Answering { s with reader := .sending r.leave } := h.move (by rw [hr]; rfl) rfl hleave
    exact hmove.same rfl rfl rfl rfl
  | disable hr =>
    have hleave := h.leave (p := .erase) (h.finished (by rw [hr]; rfl)) rfl
    refine ⟨hleave.running, ?_, hleave.settled, hleave.finished, hleave.stays⟩
    intro hl
    cases hl
  | windDown hr hp => exact h.leave (h.finished hr) hp
  | join => exact h.same rfl rfl rfl rfl
  | sendPart => exact h.same rfl rfl rfl rfl
  | sendLength => exact h.same rfl rfl rfl rfl
  | @sendLast w n hw =>
    have hout : Answering { s with out := s.out ++ w.left } := h.same rfl rfl rfl rfl
    exact hout.release ⟨hheld.byReader, hheld.byWorker⟩ hw
  | skip hw hends => simp [undisturbed, hends] at hcalm
  | giveUp hw hends => simp [undisturbed, hends] at hcalm
  | advance hv hadv => exact h.advance hv hadv hpatient
  | startResponse hv hp =>
    have hmod := h.modify (f := fun w => { w with progress := .writing }) hv (by simp [hp]) (by simp)
    exact hmod.same rfl rfl rfl rfl

end

/-- When the session closes, each request it took on has had its response written: in every
    run undisturbed from outside in which a receive timeout finds no worker at work, no
    request is left by an exception, and every reply fits its frame. -/
theorem closed_after_answers (cfg : BrokerServerConfig) (es : List Ev)
    (hrun : EachStep (step cfg) (fun s e => undisturbed cfg s e = true ∧ patient cfg s e = true) {} es)
    (hclosed : (exec (step cfg) {} es).reader = .closed) :
    ∀ w ∈ (exec (step cfg) {} es).workers, w.wrote = true := by
  have hinv : Held (exec (step cfg) {} es) ∧ Answering (exec (step cfg) {} es) := by
    refine exec_each (I := fun s : St => Held s ∧ Answering s) hrun ⟨Held.free rfl, ?_⟩ ?_
    · exact ⟨rfl, fun _ => rfl, fun w hw => (List.not_mem_nil hw).elim, fun hl => Bool.noConfusion hl, rfl⟩
    · intro s e h hcond
      have heff := step_effect cfg s e
      exact ⟨held_step h.1 heff, answering_step h.2 h.1 heff hcond.1 hcond.2⟩
  intro w hw
  have hdone := hinv.2.finished (by rw [hclosed]; rfl) w hw
  exact hinv.2.settled w hw (Or.inr hdone)

/-- The reader leaves the loop and, its workers through, closes the socket. -/
def closes (listed : Nat) : List Ev := List.replicate (listed + 4) .reader

/-- A request is answered, the client falls silent, and the session ends. -/
def quickRun : List Ev :=
  awaits 0 ++ arrives pingFrame ++ [.reader] ++ awaits 1 ++ answers 0 ++ [.recv .timedOut] ++ closes 1

theorem closed_after_answers_ping :
    (exec (step {}) {} quickRun).workers.length = 1 ∧ (exec (step {}) {} quickRun).workers.all (·.wrote) = true :=
  ⟨by decide +kernel, List.all_eq_true.mpr (closed_after_answers {} quickRun (by decide +kernel) (by decide +kernel))⟩

/-- The client waits for the answer longer than the receive timeout. -/
def slowRun : List Ev :=
  awaits 0 ++ arrives pingFrame ++ [.reader] ++ awaits 1 ++ [.recv .timedOut, .reader] ++
    [.worker 0 {}, .worker 0 {}, .worker 0 {}] ++ closes 0

/-- Nothing else goes wrong, and the answer is not sent. -/
theorem a_slow_request_loses_its_answer :
    EachStep (step {}) (fun s e => undisturbed {} s e = true) {} slowRun ∧
      (exec (step {}) {} slowRun).reader = .closed ∧ (exec (step {}) {} slowRun).workers.map (·.wrote) = [false] := by
  decide +kernel

end Overhauled.Server
