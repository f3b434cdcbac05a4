/-
  Overhauled.Server.Session — one client connection of the broker server
  (`BrokerServer::Impl::session_loop`, `read_exact`, `write_exact` and the two protocol
  error senders of `src/broker_server.cpp`).

  The reader reads frames, turns away what it cannot decode or has no room for, and
  starts one worker thread for each request it takes on. A worker serves its request
  and writes the response. Reader and workers share the socket, the flag
  `writes_enabled` and the mutex that guards writing; the list of pending workers is
  the reader's own.

  A step is one access to something shared: a load or store of a flag, taking the
  mutex, one `recv`, one `send`. An interleaving is a list of events, each naming who
  moves and what the operating system answered. A `recv` delivers at most what was
  asked for; an empty delivery is the end of the stream. A `send` accepts any number
  of the bytes offered, none included. Threads and buffers are always to be had. A
  worker whose service call is left by a `std::exception` writes nothing and is done; one
  left by any other stops for good (`lost`), where the process would end.

  `frames`, `begun`, `out` and `torn`, and a worker's `frame` and `wrote`, are history:
  no step looks at them.

  Proved here: what a step does to the state (`step_effect`), and that whoever holds
  the mutex is at its writing (`held_run`).
-/

import Overhauled.Broker.Brk2
import Overhauled.Broker.Service
import Overhauled.Machine.Run
import Overhauled.Machine.Threads

namespace Overhauled.Server

open Wire Broker Machine
open Wasm (Manager)

structure BrokerServerConfig where
  maxInflightPerClient : Nat := 32
  service : BrokerService := {}

def BrokerServerConfig.limits (cfg : BrokerServerConfig) : ProtocolLimits := cfg.service.config.protocolLimits

/-! ## What a frame is taken for -/

def usesBrk2 (frame : Bytes) : Bool := frame.take 4 = ascii "BRK2"

/-- The id the reader takes out of a BRK2 frame before it decodes it. -/
def requestIdOf (frame : Bytes) : UInt64 :=
  if frame.length ≥ 20 then UInt64.ofNat (ofBe ((frame.drop 12).take 8)) else 0

structure Incoming where
  useBrk2 : Bool
  requestId : UInt64
  decoded : Except Stop BrokerRequest

def decodeIncoming (limits : ProtocolLimits) (frame : Bytes) : Incoming :=
  if usesBrk2 frame then
    { useBrk2 := true, requestId := (decodeBrk2RequestBody frame (requestIdOf frame) limits).1
      decoded := (decodeBrk2RequestBody frame (requestIdOf frame) limits).2 }
  else { useBrk2 := false, requestId := 0, decoded := decodeRequestFrame frame limits }

/-- The body `write_response` sends. -/
def encodeReply (limits : ProtocolLimits) (useBrk2 : Bool) (requestId : UInt64) (response : BrokerResponse) :
    Except Bytes Bytes :=
  if useBrk2 then encodeBrk2ResponseBody response requestId limits else encodeResponseFrame response limits

/-- A reply of the reader itself. -/
structure Rejection where
  useBrk2 : Bool := false
  requestId : UInt64 := 0
  taskId : Bytes := []
  error : Bytes
  /-- The session ends after it. -/
  leave : Bool := false
  /-- Which of the frames read it answers. -/
  answers : Option Nat := none
  deriving DecidableEq

/-- `send_protocol_error` and `send_brk2_protocol_error`; the latter carries no task id. -/
def Rejection.response (r : Rejection) : BrokerResponse :=
  { taskId := if r.useBrk2 then [] else r.taskId, status := .rejected, error := r.error, selectedGpu := -1 }

def Rejection.body (limits : ProtocolLimits) (r : Rejection) : Except Bytes Bytes :=
  encodeReply limits r.useBrk2 r.requestId r.response

/-! ## The state -/

inductive Progress where
  | serving
  /-- In `write_response`, before the first look at `writes_enabled`. -/
  | encoding (response : BrokerResponse)
  | waiting (body : Bytes)
  | writing
  | storing
  | done
  | lost
  deriving DecidableEq

structure Worker where
  request : BrokerRequest
  useBrk2 : Bool
  requestId : UInt64
  progress : Progress := .serving
  /-- Which of the frames read its request came in. -/
  frame : Nat
  /-- The whole of its response was accepted by the socket. -/
  wrote : Bool := false
  deriving DecidableEq

inductive ReaderAt where
  | top
  /-- `reap_finished` looks at the record `k` next. -/
  | reap (k : Nat)
  | readLen (got : Bytes)
  | readBody (len : Nat) (got : Bytes)
  | received (frame : Bytes)
  | lock (r : Rejection)
  | sending (leave : Bool)
  | disable
  | erase
  | shutdown
  | joining
  | closed
  deriving DecidableEq

/-- A frame on its way out, by whoever holds the mutex. -/
structure Writing where
  /-- A worker, or the reader. -/
  holder : Option Nat
  /-- What the current `write_exact` has still to send. -/
  left : Bytes
  /-- The body, while the length is being sent. -/
  next : Option Bytes
  /-- How many bytes of the frame were accepted. -/
  sent : Nat := 0

structure Outgoing where
  answers : Option Nat
  body : Bytes

structure St where
  running : Bool := true
  reader : ReaderAt := .top
  pending : List Nat := []
  workers : List Worker := []
  writesEnabled : Bool := true
  writing : Option Writing := none
  /-- The frames read to their end. -/
  frames : List Bytes := []
  /-- The frames someone took the mutex to write. -/
  begun : List Outgoing := []
  /-- What the socket accepted. -/
  out : Bytes := []
  /-- A frame was left in part, or its body is sent without its length. -/
  torn : Bool := false

inductive RecvResult where
  | data (w : Bytes)
  | interrupted
  | timedOut
  | failed

inductive SendResult where
  | accepted (n : Nat)
  | interrupted
  | timedOut
  | failed

/-- What a call of `handle_request` meets outside the session. -/
structure Env where
  manager : Manager := {}
  clock : Clock := {}
  gpu : Placement := ⟨.escaped, 0⟩

inductive Ev where
  | reader
  | recv (r : RecvResult)
  | send (r : SendResult)
  | worker (i : Nat) (env : Env)
  | stop

def St.isDone (s : St) (i : Nat) : Bool := (s.workers[i]?).any fun w => w.progress = .done

/-! ## Writing -/

def frameBytes (body : Bytes) : Bytes := be 4 body.length ++ body

def startWrite (s : St) (holder answers : Option Nat) (body : Bytes) : St :=
  { s with
    writing := some { holder, left := be 4 body.length, next := some body }
    begun := s.begun ++ [{ answers, body }] }

/-- `continue` or `break`. -/
def goOn (leave : Bool) : ReaderAt := if leave then .disable else .top

def setProgress (s : St) (i : Nat) (p : Progress) : St :=
  { s with workers := s.workers.modify i fun w => { w with progress := p } }

/-- The last `write_exact` returned `ok`, and the mutex is given back. -/
def release (s : St) (w : Writing) (ok : Bool) : St :=
  match w.holder with
  | none => { s with writing := none, reader := match s.reader with | .sending leave => goOn leave | p => p }
  | some i =>
    { s with writing := none, workers := s.workers.modify i fun v => { v with progress := .storing, wrote := ok } }

/-- The frame stays unfinished with a part of it out, or goes on without its length. -/
def Writing.tears (w : Writing) : Bool := 0 < w.sent ∨ w.holder = none ∧ w.next.isSome = true

/-- The socket took `n` bytes. No encoder's output is empty, so neither is `left`. -/
def sendSome (s : St) (w : Writing) (n : Nat) : St :=
  let s := { s with out := s.out ++ w.left.take n }
  if n < w.left.length then { s with writing := some { w with left := w.left.drop n, sent := w.sent + n } }
  else
    match w.next with
    | some body =>
      { s with writing := some { w with left := body, next := none, sent := w.sent + w.left.length } }
    | none => release s w true

/-- `write_exact` returned false. A worker gives up; the reader's senders do not look. -/
def sendFailed (s : St) (w : Writing) : St :=
  let s := { s with torn := s.torn || w.tears }
  match w.holder, w.next with
  | none, some body => { s with writing := some { w with left := body, next := none } }
  | _, _ => release s w false

def sendStep (s : St) (r : SendResult) : St :=
  match s.writing with
  | none => s
  | some w =>
    match r with
    | .interrupted => s
    | .accepted n => if n = 0 then sendFailed s w else sendSome s w n
    | .timedOut => sendFailed s w
    | .failed => sendFailed s w

/-! ## The reader -/

/-- A rejection is written under the mutex; without BRK2 the flag is looked at before, too. -/
def reject (s : St) (r : Rejection) : St :=
  { s with reader := if r.useBrk2 || s.writesEnabled then .lock r else goOn r.leave }

def receive (cfg : BrokerServerConfig) (s : St) (frame : Bytes) : St :=
  let inc := decodeIncoming cfg.limits frame
  let index := s.frames.length - 1
  match inc.decoded with
  | .error e =>
    reject s { useBrk2 := inc.useBrk2, requestId := inc.requestId, error := e.text, answers := some index }
  | .ok request =>
    if s.pending.length ≥ cfg.maxInflightPerClient then
      reject s { useBrk2 := inc.useBrk2, requestId := inc.requestId, taskId := request.taskId
                 error := ascii "too many inflight requests for client", answers := some index }
    else
      { s with
        reader := .top
        pending := s.pending ++ [s.workers.length]
        workers := s.workers ++ [{ request, useBrk2 := inc.useBrk2, requestId := inc.requestId, frame := index }] }

def readerStep (cfg : BrokerServerConfig) (s : St) : St :=
  match s.reader with
  | .top => { s with reader := if s.running then .reap 0 else .disable }
  | .reap k =>
    match s.pending[k]? with
    | none => { s with reader := .readLen [] }
    | some i =>
      if s.isDone i then { s with pending := s.pending.eraseIdx k } else { s with reader := .reap (k + 1) }
  | .received frame => receive cfg s frame
  | .lock r =>
    if s.writing.isSome then s
    else if s.writesEnabled then
      match r.body cfg.limits with
      | .error _ => { s with reader := .disable }
      | .ok body => { startWrite s none r.answers body with reader := .sending r.leave }
    else { s with reader := goOn r.leave }
  | .disable => { s with writesEnabled := false, reader := .erase }
  | .erase => { s with reader := .shutdown }
  | .shutdown => { s with reader := .joining }
  | .joining =>
    match s.pending with
    | [] => { s with reader := .closed }
    | i :: rest => if s.isDone i then { s with pending := rest } else s
  | .readLen _ => s
  | .readBody _ _ => s
  | .sending _ => s
  | .closed => s

def legalLength (cfg : BrokerServerConfig) (len : Nat) : Bool := ¬ (len = 0 ∨ len > cfg.limits.maxFrameBytes)

/-- What the reader says to an illegal length, and then ends the session. -/
def lengthComplaint : Rejection := { error := ascii "frame length violates protocol limits", leave := true }

def gotLength (cfg : BrokerServerConfig) (s : St) (got : Bytes) : St :=
  if got.length < 4 then { s with reader := .readLen got }
  else if legalLength cfg (ofBe got) then { s with reader := .readBody (ofBe got) [] }
  else reject s lengthComplaint

def gotBody (s : St) (len : Nat) (got : Bytes) : St :=
  if got.length < len then { s with reader := .readBody len got }
  else { s with reader := .received got, frames := s.frames ++ [got] }

/-- One turn of the loop of `read_exact`, where `more` goes on with what was delivered. -/
def readExact (s : St) (r : RecvResult) (more : Bytes → St) : St :=
  match r with
  | .data w => if w = [] then { s with reader := .disable } else more w
  | .interrupted => s
  | .timedOut => { s with reader := .disable }
  | .failed => { s with reader := .disable }

def recvStep (cfg : BrokerServerConfig) (s : St) (r : RecvResult) : St :=
  match s.reader with
  | .readLen got => readExact s r fun w => gotLength cfg s (got ++ w.take (4 - got.length))
  | .readBody len got => readExact s r fun w => gotBody s len (got ++ w.take (len - got.length))
  | _ => s

/-! ## The workers -/

def workerStep (cfg : BrokerServerConfig) (s : St) (i : Nat) (env : Env) : St :=
  match s.workers[i]? with
  | none => s
  | some w =>
    match w.progress with
    | .serving =>
      match (handleRequest cfg.service env.manager env.clock env.gpu w.request).2 with
      | .returned response => setProgress s i (.encoding response)
      | .threw _ => setProgress s i .storing
      | .escaped => setProgress s i .lost
    | .encoding response =>
      if s.writesEnabled then
        match encodeReply cfg.limits w.useBrk2 w.requestId response with
        | .ok body => setProgress s i (.waiting body)
        | .error _ => setProgress s i .storing
      else setProgress s i .storing
    | .waiting body =>
      if s.writing.isSome then s
      else if s.writesEnabled then startWrite (setProgress s i .writing) (some i) (some w.frame) body
      else setProgress s i .storing
    | .writing => s
    | .storing => setProgress s i .done
    | .done => s
    | .lost => s

def step (cfg : BrokerServerConfig) (s : St) : Ev → St
  | .reader => readerStep cfg s
  | .recv r => recvStep cfg s r
  | .send r => sendStep s r
  | .worker i env => workerStep cfg s i env
  | .stop => { s with running := false }

/-! ## What a step does -/

def ReaderAt.reading : ReaderAt → Bool
  | .readLen _ => true
  | .readBody _ _ => true
  | _ => false

/-- Past the loop. -/
def ReaderAt.leaving : ReaderAt → Bool
  | .disable => true
  | .erase => true
  | .shutdown => true
  | .joining => true
  | .closed => true
  | _ => false

/-- `read_exact` returns false. -/
def RecvResult.ends : RecvResult → Bool
  | .data w => w = []
  | .interrupted => false
  | .timedOut => true
  | .failed => true

/-- `write_exact` returns false. -/
def SendResult.ends : SendResult → Bool
  | .accepted n => n = 0
  | .interrupted => false
  | .timedOut => true
  | .failed => true

/-- The reader answers the frame it has just read itself. -/
structure TurnsAway (cfg : BrokerServerConfig) (s : St) (frame : Bytes) (r : Rejection) : Prop where
  useBrk2 : r.useBrk2 = (decodeIncoming cfg.limits frame).useBrk2
  requestId : r.requestId = (decodeIncoming cfg.limits frame).requestId
  answers : r.answers = some (s.frames.length - 1)
  leave : r.leave = false
  taskId : ∀ request, (decodeIncoming cfg.limits frame).decoded = .ok request → r.taskId = request.taskId
  full : ∀ request, (decodeIncoming cfg.limits frame).decoded = .ok request →
    cfg.maxInflightPerClient ≤ s.pending.length

/-- A worker's own next step, the taking of the mutex apart. -/
inductive Advance (cfg : BrokerServerConfig) (s : St) (w : Worker) (env : Env) : Progress → Prop
  | served {response : BrokerResponse} (hp : w.progress = .serving)
      (hr : (handleRequest cfg.service env.manager env.clock env.gpu w.request).2 = .returned response) :
      Advance cfg s w env (.encoding response)
  | failed {what : Bytes} (hp : w.progress = .serving)
      (hr : (handleRequest cfg.service env.manager env.clock env.gpu w.request).2 = .threw what) :
      Advance cfg s w env .storing
  | lost (hp : w.progress = .serving) : Advance cfg s w env .lost
  | encoded {response : BrokerResponse} {body : Bytes} (hp : w.progress = .encoding response)
      (hb : encodeReply cfg.limits w.useBrk2 w.requestId response = .ok body) : Advance cfg s w env (.waiting body)
  | thrown {response : BrokerResponse} {e : Bytes} (hp : w.progress = .encoding response)
      (hb : encodeReply cfg.limits w.useBrk2 w.requestId response = .error e) : Advance cfg s w env .storing
  | muted (hp : (∃ response, w.progress = .encoding response) ∨ ∃ body, w.progress = .waiting body)
      (hoff : s.writesEnabled = false) : Advance cfg s w env .storing
  | finished (hp : w.progress = .storing) : Advance cfg s w env .done

inductive Effect (cfg : BrokerServerConfig) (s : St) : Ev → St → Prop
  | idle {e : Ev} : Effect cfg s e s
  | stop : Effect cfg s .stop { s with running := false }
  | look (hr : s.reader = .top) : Effect cfg s .reader { s with reader := if s.running then .reap 0 else .disable }
  | keep {k i : Nat} (hr : s.reader = .reap k) (hi : s.pending[k]? = some i) (hd : s.isDone i = false) :
      Effect cfg s .reader { s with reader := .reap (k + 1) }
  | collect {k i : Nat} (hr : s.reader = .reap k) (hi : s.pending[k]? = some i) (hd : s.isDone i = true) :
      Effect cfg s .reader { s with pending := s.pending.eraseIdx k }
  | await {k : Nat} (hr : s.reader = .reap k) (hk : s.pending[k]? = none) :
      Effect cfg s .reader { s with reader := .readLen [] }
  | hangup {r : RecvResult} (hr : s.reader.reading = true) (hends : r.ends = true) :
      Effect cfg s (.recv r) { s with reader := .disable }
  | readOn {w : Bytes} {p : ReaderAt} (hr : s.reader.reading = true) (hp : p.reading = true) :
      Effect cfg s (.recv (.data w)) { s with reader := p }
  | badLength {w got : Bytes} (hr : s.reader = .readLen got)
      (hlen : ¬ (got ++ w.take (4 - got.length)).length < 4)
      (hbad : legalLength cfg (ofBe (got ++ w.take (4 - got.length))) = false) :
      Effect cfg s (.recv (.data w)) (reject s lengthComplaint)
  | frame {w got body : Bytes} {len : Nat} (hr : s.reader = .readBody len got) :
      Effect cfg s (.recv (.data w)) { s with reader := .received body, frames := s.frames ++ [body] }
  | turnAway {frame : Bytes} {r : Rejection} (hr : s.reader = .received frame) (h : TurnsAway cfg s frame r) :
      Effect cfg s .reader (reject s r)
  | spawn {frame : Bytes} {request : BrokerRequest} (hr : s.reader = .received frame)
      (hd : (decodeIncoming cfg.limits frame).decoded = .ok request)
      (hroom : s.pending.length < cfg.maxInflightPerClient) :
      Effect cfg s .reader
        { s with
          reader := .top
          pending := s.pending ++ [s.workers.length]
          workers := s.workers ++
            [{ request, useBrk2 := (decodeIncoming cfg.limits frame).useBrk2
               requestId := (decodeIncoming cfg.limits frame).requestId, frame := s.frames.length - 1 }] }
  | mute {r : Rejection} (hr : s.reader = .lock r) (hoff : s.writesEnabled = false) :
      Effect cfg s .reader { s with reader := goOn r.leave }
  | throw {r : Rejection} {e : Bytes} (hr : s.reader = .lock r) (hb : r.body cfg.limits = .error e) :
      Effect cfg s .reader { s with reader := .disable }
  | startRejection {r : Rejection} {body : Bytes} (hr : s.reader = .lock r) (hfree : s.writing = none)
      (hb : r.body cfg.limits = .ok body) :
      Effect cfg s .reader { startWrite s none r.answers body with reader := .sending r.leave }
  | disable (hr : s.reader = .disable) : Effect cfg s .reader { s with writesEnabled := false, reader := .erase }
  | windDown {p : ReaderAt} (hr : s.reader.leaving = true) (hp : p.leaving = true) :
      Effect cfg s .reader { s with reader := p }
  | join {i : Nat} {rest : List Nat} (hr : s.reader = .joining) (hp : s.pending = i :: rest) :
      Effect cfg s .reader { s with pending := rest }
  | sendPart {w : Writing} {n : Nat} (hw : s.writing = some w) (h0 : 0 < n) (hn : n < w.left.length) :
      Effect cfg s (.send (.accepted n))
        { s with
          out := s.out ++ w.left.take n
          writing := some { w with left := w.left.drop n, sent := w.sent + n } }
  | sendLength {w : Writing} {n : Nat} {body : Bytes} (hw : s.writing = some w) (h0 : 0 < n)
      (hn : w.left.length ≤ n) (hnext : w.next = some body) :
      Effect cfg s (.send (.accepted n))
        { s with
          out := s.out ++ w.left
          writing := some { w with left := body, next := none, sent := w.sent + w.left.length } }
  | sendLast {w : Writing} {n : Nat} (hw : s.writing = some w) (h0 : 0 < n) (hn : w.left.length ≤ n)
      (hnext : w.next = none) :
      Effect cfg s (.send (.accepted n)) (release { s with out := s.out ++ w.left } w true)
  | skip {w : Writing} {r : SendResult} {body : Bytes} (hw : s.writing = some w) (hends : r.ends = true)
      (hh : w.holder = none) (hnext : w.next = some body) :
      Effect cfg s (.send r)
        { s with torn := s.torn || w.tears, writing := some { w with left := body, next := none } }
  | giveUp {w : Writing} {r : SendResult} (hw : s.writing = some w) (hends : r.ends = true) :
      Effect cfg s (.send r) (release { s with torn := s.torn || w.tears } w false)
  | advance {i : Nat} {env : Env} {w : Worker} {p : Progress} (hw : s.workers[i]? = some w)
      (h : Advance cfg s w env p) : Effect cfg s (.worker i env) (setProgress s i p)
  | startResponse {i : Nat} {env : Env} {w : Worker} {body : Bytes} (hw : s.workers[i]? = some w)
      (hp : w.progress = .waiting body) (hfree : s.writing = none) :
      Effect cfg s (.worker i env) (startWrite (setProgress s i .writing) (some i) (some w.frame) body)

section
variable (cfg : BrokerServerConfig) (s : St)

theorem effect_receive {frame : Bytes} (hr : s.reader = .received frame) :
    Effect cfg s .reader (receive cfg s frame) := by
  unfold receive
  dsimp only
  split
  next e hd =>
    refine .turnAway hr ⟨rfl, rfl, rfl, rfl, fun request h => ?_, fun request h => ?_⟩
    all_goals
      rw [hd] at h
      cases h
  next request hd =>
    split
    next hfull =>
      refine .turnAway hr ⟨rfl, rfl, rfl, rfl, fun request' h => ?_, fun _ _ => hfull⟩
      rw [hd] at h
      cases h
      rfl
    next hroom => exact .spawn hr hd (Nat.lt_of_not_le hroom)

theorem effect_reader : Effect cfg s .reader (readerStep cfg s) := by
  unfold readerStep
  split
  next hr => exact .look hr
  next k hr =>
    split
    next hk => exact .await hr hk
    next i hi =>
      split
      next hd => exact .collect hr hi hd
      next hd => exact .keep hr hi (Bool.eq_false_iff.mpr hd)
  next frame hr => exact effect_receive cfg s hr
  next r hr =>
    split
    next => exact .idle
    next hfree =>
      split
      next hon =>
        split
        next hb => exact .throw hr hb
        next body hb => exact .startRejection hr (Option.not_isSome_iff_eq_none.mp hfree) hb
      next hoff => exact .mute hr (Bool.eq_false_iff.mpr hoff)
  next hr => exact .disable hr
  next hr => exact .windDown (by rw [hr]; rfl) rfl
  next hr => exact .windDown (by rw [hr]; rfl) rfl
  next hr =>
    split
    next hp => exact .windDown (p := .closed) (by rw [hr]; rfl) rfl
    next i rest hp =>
      split
      next => exact .join hr hp
      next => exact .idle
  all_goals exact .idle

theorem effect_gotLength {got w : Bytes} (hr : s.reader = .readLen got) :
    Effect cfg s (.recv (.data w)) (gotLength cfg s (got ++ w.take (4 - got.length))) := by
  unfold gotLength
  have hreading : s.reader.reading = true := by rw [hr]; rfl
  split
  next => exact .readOn hreading rfl
  next hlen =>
    split
    next => exact .readOn hreading rfl
    next hbad => exact .badLength hr hlen (Bool.eq_false_iff.mpr hbad)

theorem effect_readExact (r : RecvResult) {more : Bytes → St} (hr : s.reader.reading = true)
    (hmore : ∀ w, Effect cfg s (.recv (.data w)) (more w)) : Effect cfg s (.recv r) (readExact s r more) := by
  unfold readExact
  split
  next w =>
    split
    next hnil => exact .hangup hr (by simp [RecvResult.ends, hnil])
    next => exact hmore w
  next => exact .idle
  next => exact .hangup hr rfl
  next => exact .hangup hr rfl

theorem effect_recv (r : RecvResult) : Effect cfg s (.recv r) (recvStep cfg s r) := by
  unfold recvStep
  split
  next got hr => exact effect_readExact cfg s r (by rw [hr]; rfl) fun w => effect_gotLength cfg s hr
  next len got hr =>
    refine effect_readExact cfg s r (by rw [hr]; rfl) fun w => ?_
    unfold gotBody
    split
    next => exact .readOn (by rw [hr]; rfl) rfl
    next => exact .frame hr
  next => exact .idle

theorem effect_sendSome {w : Writing} {n : Nat} (hw : s.writing = some w) (h0 : n ≠ 0) :
    Effect cfg s (.send (.accepted n)) (sendSome s w n) := by
  unfold sendSome
  dsimp only
  split
  next hn => exact .sendPart hw (Nat.pos_of_ne_zero h0) hn
  next hn =>
    rw [List.take_of_length_le (Nat.le_of_not_lt hn)]
    split
    next body hnext => exact .sendLength hw (Nat.pos_of_ne_zero h0) (Nat.le_of_not_lt hn) hnext
    next hnext => exact .sendLast hw (Nat.pos_of_ne_zero h0) (Nat.le_of_not_lt hn) hnext

theorem effect_sendFailed {w : Writing} {r : SendResult} (hw : s.writing = some w) (hends : r.ends = true) :
    Effect cfg s (.send r) (sendFailed s w) := by
  unfold sendFailed
  dsimp only
  split
  next body hh hnext => exact .skip hw hends hh hnext
  next => exact .giveUp hw hends

theorem effect_send (r : SendResult) : Effect cfg s (.send r) (sendStep s r) := by
  unfold sendStep
  split
  next => exact .idle
  next w hw =>
    split
    next => exact .idle
    next n =>
      split
      next h0 => exact effect_sendFailed cfg s hw (by simp [SendResult.ends, h0])
      next h0 => exact effect_sendSome cfg s hw h0
    next => exact effect_sendFailed cfg s hw rfl
    next => exact effect_sendFailed cfg s hw rfl

theorem effect_worker (i : Nat) (env : Env) : Effect cfg s (.worker i env) (workerStep cfg s i env) := by
  unfold workerStep
  split
  next => exact .idle
  next w hw =>
    split
    next hp =>
      split
      next response hr => exact .advance hw (.served hp hr)
      next what hr => exact .advance hw (.failed hp hr)
      next => exact .advance hw (.lost hp)
    next response hp =>
      split
      next =>
        split
        next body hb => exact .advance hw (.encoded hp hb)
        next hb => exact .advance hw (.thrown hp hb)
      next hoff => exact .advance hw (.muted (Or.inl ⟨response, hp⟩) (Bool.eq_false_iff.mpr hoff))
    next body hp =>
      split
      next => exact .idle
      next hfree =>
        split
        next => exact .startResponse hw hp (Option.not_isSome_iff_eq_none.mp hfree)
        next hoff => exact .advance hw (.muted (Or.inr ⟨body, hp⟩) (Bool.eq_false_iff.mpr hoff))
    next => exact .idle
    next hp => exact .advance hw (.finished hp)
    next => exact .idle
    next => exact .idle

theorem step_effect (e : Ev) : Effect cfg s e (step cfg s e) := by
  cases e with
  | reader => exact effect_reader cfg s
  | recv r => exact effect_recv cfg s r
  | send r => exact effect_send cfg s r
  | worker i env => exact effect_worker cfg s i env
  | stop => exact .stop

end

/-! ## The mutex -/

/-- Whoever holds the mutex is at its writing. -/
structure Held (s : St) : Prop where
  byReader : ∀ {w}, s.writing = some w → w.holder = none → ∃ leave, s.reader = .sending leave
  byWorker : ∀ {w i}, s.writing = some w → w.holder = some i → ∃ v, s.workers[i]? = some v ∧ v.progress = .writing

section
variable {cfg : BrokerServerConfig} {s s' : St} {e : Ev}

theorem Held.move (h : Held s) (p : ReaderAt) (hr : ∀ leave, s.reader ≠ .sending leave) :
    Held { s with reader := p } where
  byReader hw hh := by
    obtain ⟨leave, hs⟩ := h.byReader hw hh
    exact absurd hs (hr leave)
  byWorker := h.byWorker

theorem Held.free (h : s.writing = none) : Held s where
  byReader hw _ := by simp [h] at hw
  byWorker hw _ := by simp [h] at hw

theorem Held.next (h : Held s) {w w' : Writing} {out : Bytes} {torn : Bool} (hw : s.writing = some w)
    (hh : w'.holder = w.holder) : Held { s with out, torn, writing := some w' } where
  byReader hw' hn := by
    cases hw'
    exact h.byReader hw (hh ▸ hn)
  byWorker hw' hi := by
    cases hw'
    exact h.byWorker hw (hh ▸ hi)

theorem Held.advance (h : Held s) {i : Nat} {v : Worker} (hv : s.workers[i]? = some v) (hne : v.progress ≠ .writing)
    (p : Progress) : Held (setProgress s i p) where
  byReader := h.byReader
  byWorker := by
    intro w j hw hj
    obtain ⟨u, hu, hprog⟩ := h.byWorker hw hj
    have hij : i ≠ j := by
      intro hij
      subst hij
      rw [hv] at hu
      cases hu
      exact hne hprog
    exact ⟨u, (modify_other _ hij).trans hu, hprog⟩

/-- A worker advances from where it neither writes nor is through. -/
theorem Advance.underway {w : Worker} {env : Env} {p : Progress} (h : Advance cfg s w env p) :
    w.progress ≠ .writing ∧ w.progress ≠ .done := by
  cases h with
  | served hp => simp [hp]
  | failed hp => simp [hp]
  | lost hp => simp [hp]
  | encoded hp => simp [hp]
  | thrown hp => simp [hp]
  | muted hp => rcases hp with ⟨_, hp⟩ | ⟨_, hp⟩ <;> simp [hp]
  | finished hp => simp [hp]

theorem writing_release (w : Writing) (ok : Bool) : (release s w ok).writing = none := by
  unfold release
  split <;> rfl

/-- The mutex is given back by the reader, which goes on, or by a worker, which stores its
    outcome. -/
theorem Held.release_cases (h : Held s) {w : Writing} (hw : s.writing = some w) (ok : Bool) :
    (∃ leave, s.reader = .sending leave ∧ release s w ok = { s with writing := none, reader := goOn leave }) ∨
      ∃ i v, s.workers[i]? = some v ∧ v.progress = .writing ∧
        release s w ok =
          { s with writing := none, workers := s.workers.modify i fun v => { v with progress := .storing, wrote := ok } } := by
  unfold release
  split
  next hh =>
    obtain ⟨leave, hr⟩ := h.byReader hw hh
    exact Or.inl ⟨leave, hr, by simp only [hr]⟩
  next i hi =>
    obtain ⟨v, hv, hprog⟩ := h.byWorker hw hi
    exact Or.inr ⟨i, v, hv, hprog, rfl⟩

theorem held_step (h : Held s) (heff : Effect cfg s e s') : Held s' := by
  cases heff with
  | idle => exact h
  | stop => exact ⟨h.byReader, h.byWorker⟩
  | look hr => exact h.move _ (by simp [hr])
  | keep hr => exact h.move _ (by simp [hr])
  | collect => exact ⟨h.byReader, h.byWorker⟩
  | await hr => exact h.move _ (by simp [hr])
  | hangup hr => exact h.move _ (by rintro leave hs; simp [hs, ReaderAt.reading] at hr)
  | readOn hr => exact h.move _ (by rintro leave hs; simp [hs, ReaderAt.reading] at hr)
  | badLength hr => exact h.move _ (by simp [hr])
  | @frame _ _ body _ hr =>
    have hmove := h.move (.received body) (by simp [hr])
    exact ⟨hmove.byReader, hmove.byWorker⟩
  | turnAway hr => exact h.move _ (by simp [hr])
  | spawn hr =>
    have hmove := h.move .top (by simp [hr])
    refine ⟨hmove.byReader, fun hw hi => ?_⟩
    obtain ⟨v, hv, hprog⟩ := h.byWorker hw hi
    exact ⟨v, by simp [List.getElem?_append_left (List.getElem?_eq_some_iff.mp hv).1, hv], hprog⟩
  | mute hr => exact h.move _ (by simp [hr])
  | throw hr => exact h.move _ (by simp [hr])
  | startRejection =>
    refine ⟨fun _ _ => ⟨_, rfl⟩, fun hw hi => ?_⟩
    cases hw
    cases hi
  | disable hr =>
    have hmove := h.move .erase (by simp [hr])
    exact ⟨hmove.byReader, hmove.byWorker⟩
  | windDown hr => exact h.move _ (by rintro leave hs; simp [hs, ReaderAt.leaving] at hr)
  | join => exact ⟨h.byReader, h.byWorker⟩
  | sendPart hw => exact h.next hw rfl
  | sendLength hw => exact h.next hw rfl
  | sendLast => exact Held.free (writing_release _ _)
  | skip hw => exact h.next hw rfl
  | giveUp => exact Held.free (writing_release _ _)
  | advance hv hadv => exact h.advance hv hadv.underway.1 _
  | startResponse hv =>
    refine ⟨fun hw hn => ?_, fun hw hi => ?_⟩
    · cases hw
      cases hn
    · cases hw
      cases hi
      exact ⟨_, modify_same _ hv, rfl⟩

theorem held_run (cfg : BrokerServerConfig) (es : List Ev) : Held (exec (step cfg) {} es) := by
  refine exec_induct (I := fun s : St => Held s) (Held.free rfl) ?_
  intro pre e _ h
  exact held_step h (step_effect cfg _ e)

/-! ## The reader's place in the steps of others -/

theorem reader_workerStep (i : Nat) (env : Env) : (workerStep cfg s i env).reader = s.reader := by
  unfold workerStep
  repeat' split
  all_goals rfl

/-- The reader moves on when the mutex it held is given back. -/
theorem reader_release (w : Writing) (ok : Bool) :
    (release s w ok).reader = s.reader ∨ ∃ leave, s.reader = .sending leave ∧ (release s w ok).reader = goOn leave := by
  unfold release
  split
  next =>
    dsimp only
    split
    next leave hr => exact Or.inr ⟨leave, hr, rfl⟩
    next => exact Or.inl rfl
  next => exact Or.inl rfl

theorem reader_sendStep (r : SendResult) :
    (sendStep s r).reader = s.reader ∨ ∃ leave, s.reader = .sending leave ∧ (sendStep s r).reader = goOn leave := by
  have hfailed : ∀ w, (sendFailed s w).reader = s.reader ∨
      ∃ leave, s.reader = .sending leave ∧ (sendFailed s w).reader = goOn leave := by
    intro w
    unfold sendFailed
    dsimp only
    split
    next => exact Or.inl rfl
    next => exact reader_release (s := { s with torn := _ }) w false
  unfold sendStep
  split
  next => exact Or.inl rfl
  next w hw =>
    split
    next => exact Or.inl rfl
    next n =>
      split
      next => exact hfailed w
      next =>
        unfold sendSome
        dsimp only
        split
        next => exact Or.inl rfl
        next =>
          split
          next => exact Or.inl rfl
          next => exact reader_release (s := { s with out := _ }) w true
    next => exact hfailed w
    next => exact hfailed w

end

end Overhauled.Server
