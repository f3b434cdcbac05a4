/-
  Overhauled.Adi.Sessions — `AdiServer` (`src/adi_server.cpp`) with the numbers it computes
  and sends: `accept_loop`, `session_loop` with `read_exact` and `write_exact`,
  `gpu_worker_loop` and `stop()`.

  The accepting thread, the sessions, one worker for each GPU and whoever stops the server
  take steps in any order. A step is one access to something shared or to a socket. A
  session's `recv` delivers at most what it asked for, nothing at the end or on an error; a
  `send` accepts some of what is offered, or nothing on an error. How deep the queues are is
  read one at a time, so that the readings of one `place` are any numbers. The client
  sockets are kept with their mutex held, `affinity_` likewise; the round-robin counter is
  an atomic. A promise is a number, `kept` says which are fulfilled. How a call of the
  compute function is left is part of the event (`Ev.fulfil`); an exception that is no
  `std::exception` leaves the session's thread, which ends the process: the session is
  `lost`.

  A session's `received`, `out` and `exchanges`, the request and the GPU of an exchange, and
  `posted` are history: no step looks at them. The server is run once.

  Whatever the interleaving, and however the two streams are cut into pieces, a client is
  told what its own requests come to and nothing else (`conversation`): the bytes it is sent
  are the beginning of `talk` of the requests it sent, and all of it whenever its session is
  ready for the next request. `previous_payload` is never read beyond its end.
-/

import Overhauled.Adi.Packets
import Overhauled.Adi.Shutdown

namespace Overhauled.Adi.Sessions

open Wire Machine
open Gpu (GpuTopology)
open Wasm (Computed)

/-! ## The server -/

structure GpuTask where
  promise : Nat
  input : GpuPayload
  deriving DecidableEq, Repr

inductive WorkerAt where
  | idle
  | computing (task : GpuTask)
  | exited
  deriving DecidableEq, Repr

structure WorkerState where
  queue : List GpuTask := []
  stopping : Bool := false
  worker : WorkerAt := .idle
  deriving DecidableEq, Repr

/-- Where a session's thread is in `session_loop`. -/
inductive Phase where
  | starting
  /-- In `assign_home`, with a home drawn. -/
  | storing
  /-- About to look at `running_`. -/
  | top
  | readLen (got : Bytes)
  | readBody (got : Bytes)
  | received (request : GpuPayload)
  | placed (request : GpuPayload) (gpu : Nat)
  | waiting (request : GpuPayload) (gpu promise : Nat)
  /-- In `write_exact`, with `left` to send of the header or the words, and after the
      header the words. -/
  | sending (x : Exchange) (type : PacketType) (left words : Bytes)
  | sent (x : Exchange) (type : PacketType)
  /-- Read beyond the end of `previous_payload`. -/
  | outside
  | lost
  /-- Out of the loop, to release the client, to erase its socket and to close it. -/
  | leaving
  | erasing
  | closing
  | closed
  deriving DecidableEq, Repr

structure Session where
  socket : Nat
  clientId : Nat
  phase : Phase := .starting
  previous : GpuPayload := []
  firstExchange : Bool := true
  sequenceId : UInt32 := 0
  /-- `stop()` has shut the socket down. -/
  shut : Bool := false
  home : Nat := 0
  received : Bytes := []
  out : Bytes := []
  exchanges : List Exchange := []
  deriving DecidableEq, Repr

structure St where
  running : Bool := true
  /-- The accepting thread is in its loop. -/
  accepting : Bool := true
  nextClientId : Nat := 1
  clientSockets : List Nat := []
  rrCounter : UInt64 := 0
  /-- The entries of `affinity_`. -/
  affinity : List (Nat × Nat) := []
  gpus : List WorkerState
  kept : Nat → Option (Computed GpuPayload) := fun _ => none
  posted : List (GpuPayload × Nat) := []
  sessions : List Session := []

/-- What a session does by itself. -/
inductive Turn where
  | check
  | recv (w : Bytes)
  | get (now : UInt64)
  | send (n : Nat)
  | next (now : UInt64)

inductive Act where
  | turn (t : Turn)
  | draw
  | store
  | place (depth : Nat → Nat → Nat)
  | enqueue
  | release
  | erase
  | close

inductive Ev where
  | accept (socket : Nat)
  | session (i : Nat) (act : Act)
  /-- The worker's locked section. -/
  | work (gpu : Nat)
  /-- The compute function is left this way, and the promise gets what it came to. -/
  | fulfil (gpu : Nat) (outcome : Computed GpuPayload)
  | stop
  /-- The loop of `stop()` over the client sockets. -/
  | shutAll
  | flag (gpu : Nat)

/-! ## The placer -/

def findHome (affinity : List (Nat × Nat)) (clientId : Nat) : Option Nat :=
  (affinity.find? fun entry => entry.1 = clientId).map (·.2)

def eraseHome (affinity : List (Nat × Nat)) (clientId : Nat) : List (Nat × Nat) :=
  affinity.filter fun entry => entry.1 ≠ clientId

/-- `affinity_[client_id] = home`. -/
def storeHome (affinity : List (Nat × Nat)) (clientId home : Nat) : List (Nat × Nat) :=
  eraseHome affinity clientId ++ [(clientId, home)]

/-! ## A session by itself -/

section
variable (host : Host) (sub : UInt64 → UInt64 → UInt64)

def gotLength (x : Session) (got : Bytes) : Session :=
  if got.length < 4 then { x with phase := .readLen got }
  else if ofBe got ≠ kExpectedLength then { x with phase := .leaving }
  else { x with phase := .readBody [] }

def gotBody (x : Session) (got : Bytes) : Session :=
  if got.length < kPayloadBytes then { x with phase := .readBody got }
  else { x with phase := .received (requestOf host got) }

/-- One turn of the loop of `read_exact`, which asked for `asked` bytes. -/
def readExact (x : Session) (w : Bytes) (asked : Nat) (more : Session → Bytes → Session) : Session :=
  if w = [] then { x with phase := .leaving }
  else more { x with received := x.received ++ w.take asked } (w.take asked)

def recvTurn (x : Session) (w : Bytes) : Session :=
  match x.phase with
  | .readLen got => readExact x w (4 - got.length) fun x w => gotLength x (got ++ w)
  | .readBody got => readExact x w (kPayloadBytes - got.length) fun x w => gotBody host x (got ++ w)
  | _ => x

def startPacket (x : Session) (y : Exchange) (type : PacketType) (now : UInt64) (payload : GpuPayload) : Session :=
  match sendPacket host now x.sequenceId type payload with
  | none => { x with phase := .leaving }
  | some (header, words) => { x with phase := .sending y type header words }

def getTurn (x : Session) (request : GpuPayload) (gpu : Nat) (now : UInt64) : Computed GpuPayload → Session
  | .returned current => startPacket host x { request, gpu, current, primaryAt := now } .primary now current
  | .threw _ => { x with phase := .leaving }
  | .escaped => { x with phase := .lost }

def sendTurn (x : Session) (y : Exchange) (type : PacketType) (left words : Bytes) (n : Nat) : Session :=
  if n = 0 then { x with phase := .leaving }
  else
    let x := { x with out := x.out ++ left.take n }
    if n < left.length then { x with phase := .sending y type (left.drop n) words }
    else if words = [] then { x with phase := .sent y type }
    else { x with phase := .sending y type words [] }

/-- The end of an exchange. -/
def finish (x : Session) (y : Exchange) : Session :=
  { x with
    phase := .top, previous := y.current, firstExchange := false, sequenceId := x.sequenceId + 1
    exchanges := x.exchanges ++ [y] }

def nextTurn (x : Session) (y : Exchange) (now : UInt64) : PacketType → Session
  | .primary =>
    if x.firstExchange then finish x y
    else
      match deltaOf sub y.current x.previous with
      | none => { x with phase := .outside }
      | some delta => startPacket host x { y with deltaAt := now } .delta now delta
  | .delta => finish x y

def turn (running : Bool) (kept : Nat → Option (Computed GpuPayload)) (x : Session) : Turn → Session
  | .check => if x.phase = .top then { x with phase := if running then .readLen [] else .leaving } else x
  | .recv w => recvTurn host x w
  | .get now =>
    match x.phase with
    | .waiting request gpu promise =>
      match kept promise with
      | none => x
      | some outcome => getTurn host x request gpu now outcome
    | _ => x
  | .send n =>
    match x.phase with
    | .sending y type left words => sendTurn x y type left words n
    | _ => x
  | .next now =>
    match x.phase with
    | .sent y type => nextTurn host sub x y now type
    | _ => x

end

/-! ## The steps -/

def St.put (s : St) (i : Nat) (x : Session) : St := { s with sessions := s.sessions.modify i fun _ => x }

def St.gpu (s : St) (gpu : Nat) (w : WorkerState) : St := { s with gpus := s.gpus.modify gpu fun _ => w }

/-- The socket belongs to a session that has not closed it. -/
def St.isOpen (s : St) (socket : Nat) : Bool := s.sessions.any fun x => x.socket = socket ∧ x.phase ≠ .closed

/-- `std::numeric_limits<int>::max()` -/
def kIntMax : Nat := 2 ^ 31 - 1

/-- `accept` delivers a socket that is not open. After the last client id the loop is left
    by an exception, and `run` stops the server. -/
def acceptStep (s : St) (socket : Nat) : St :=
  if s.accepting = false ∨ s.isOpen socket then s
  else if s.nextClientId > kIntMax then { s with nextClientId := s.nextClientId + 1, accepting := false }
  else
    { s with
      nextClientId := s.nextClientId + 1
      clientSockets := s.clientSockets.insert socket
      sessions := s.sessions ++ [{ socket, clientId := s.nextClientId }] }

def workStep (s : St) (gpu : Nat) (w : WorkerState) : St :=
  match w.queue with
  | [] => if w.stopping then s.gpu gpu { w with worker := .exited } else s
  | task :: queue => s.gpu gpu { w with queue, worker := .computing task }

section
variable (host : Host) (sub : UInt64 → UInt64 → UInt64) (topo : GpuTopology) (backlogThreshold : Nat)

/-- `place` draws a home of its own for a client without one. -/
def placeStep (s : St) (i : Nat) (x : Session) (request : GpuPayload) (depth : Nat → Nat → Nat) : St :=
  let home := findHome s.affinity x.clientId
  let gpu := Gpu.place topo backlogThreshold ⟨home.map Int.ofNat, s.rrCounter, depth⟩
  { s.put i { x with phase := .placed request gpu } with
    rrCounter := if home.any (· < topo.numGpus) then s.rrCounter else s.rrCounter + 1 }

def enqueueStep (s : St) (i : Nat) (x : Session) (request : GpuPayload) (gpu : Nat) (w : WorkerState) : St :=
  { (s.gpu gpu { w with queue := w.queue ++ [⟨s.posted.length, request⟩] }).put i
      { x with phase := .waiting request gpu s.posted.length } with
    posted := s.posted ++ [(request, gpu)] }

def drawStep (s : St) (i : Nat) (x : Session) : St :=
  let home := s.rrCounter.toNat % topo.numGpus
  { s.put i { x with phase := .storing, home } with rrCounter := s.rrCounter + 1 }

def storeStep (s : St) (i : Nat) (x : Session) : St :=
  { s.put i { x with phase := .top } with affinity := storeHome s.affinity x.clientId x.home }

def releaseStep (s : St) (i : Nat) (x : Session) : St :=
  { s.put i { x with phase := .erasing } with affinity := eraseHome s.affinity x.clientId }

def eraseStep (s : St) (i : Nat) (x : Session) : St :=
  { s.put i { x with phase := .closing } with clientSockets := s.clientSockets.erase x.socket }

def sessionStep (s : St) (i : Nat) (x : Session) : Act → St
  | .turn t => s.put i (turn host sub s.running s.kept x t)
  | .draw => if x.phase = .starting then drawStep topo s i x else s
  | .store => if x.phase = .storing then storeStep s i x else s
  | .place depth =>
    match x.phase with
    | .received request => placeStep topo backlogThreshold s i x request depth
    | _ => s
  | .enqueue =>
    match x.phase with
    | .placed request gpu =>
      match s.gpus[gpu]? with
      | some w => enqueueStep s i x request gpu w
      | none => s
    | _ => s
  | .release => if x.phase = .leaving then releaseStep s i x else s
  | .erase => if x.phase = .erasing then eraseStep s i x else s
  | .close => if x.phase = .closing then s.put i { x with phase := .closed } else s

/-- An event whose thread is elsewhere changes nothing. -/
def step (s : St) : Ev → St
  | .accept socket => acceptStep s socket
  | .session i act =>
    match s.sessions[i]? with
    | some x => sessionStep host sub topo backlogThreshold s i x act
    | none => s
  | .work gpu =>
    match s.gpus[gpu]? with
    | some w => if w.worker = .idle then workStep s gpu w else s
    | none => s
  | .fulfil gpu outcome =>
    match s.gpus[gpu]? with
    | some w =>
      match w.worker with
      | .computing task =>
        { s.gpu gpu { w with worker := .idle } with kept := Function.update s.kept task.promise (some outcome) }
      | _ => s
    | none => s
  | .stop => { s with running := false }
  | .shutAll =>
    if s.running then s
    else
      { s with sessions := s.sessions.map fun x =>
          if x.socket ∈ s.clientSockets ∧ x.phase ≠ .closed then { x with shut := true } else x }
  | .flag gpu =>
    match s.gpus[gpu]? with
    | some w => if s.running then s else s.gpu gpu { w with stopping := true }
    | none => s

def init : St := { gpus := List.replicate topo.numGpus {} }

def run (es : List Ev) : St := exec (step host sub topo backlogThreshold) (init topo) es

end

/-! ## What one step does -/

section
variable (host : Host) (sub : UInt64 → UInt64 → UInt64) (topo : GpuTopology) (backlogThreshold : Nat)

inductive Effect (s : St) : Ev → St → Prop
  | idle {e : Ev} : Effect s e s
  | accepts {socket : Nat} : s.accepting = true → s.isOpen socket = false → s.nextClientId ≤ kIntMax →
      Effect s (.accept socket)
        { s with
          nextClientId := s.nextClientId + 1
          clientSockets := s.clientSockets.insert socket
          sessions := s.sessions ++ [{ socket, clientId := s.nextClientId }] }
  | exhausts {socket : Nat} :
      Effect s (.accept socket) { s with nextClientId := s.nextClientId + 1, accepting := false }
  | turns {i : Nat} {x : Session} {t : Turn} : s.sessions[i]? = some x →
      Effect s (.session i (.turn t)) (s.put i (turn host sub s.running s.kept x t))
  | draws {i : Nat} {x : Session} : s.sessions[i]? = some x → x.phase = .starting →
      Effect s (.session i .draw) (drawStep topo s i x)
  | stores {i : Nat} {x : Session} : s.sessions[i]? = some x → x.phase = .storing →
      Effect s (.session i .store) (storeStep s i x)
  | places {i : Nat} {x : Session} {request : GpuPayload} {depth : Nat → Nat → Nat} : s.sessions[i]? = some x →
      x.phase = .received request →
      Effect s (.session i (.place depth)) (placeStep topo backlogThreshold s i x request depth)
  | posts {i gpu : Nat} {x : Session} {request : GpuPayload} {w : WorkerState} : s.sessions[i]? = some x →
      x.phase = .placed request gpu → s.gpus[gpu]? = some w →
      Effect s (.session i .enqueue) (enqueueStep s i x request gpu w)
  | releases {i : Nat} {x : Session} : s.sessions[i]? = some x → x.phase = .leaving →
      Effect s (.session i .release) (releaseStep s i x)
  | erases {i : Nat} {x : Session} : s.sessions[i]? = some x → x.phase = .erasing →
      Effect s (.session i .erase) (eraseStep s i x)
  | closes {i : Nat} {x : Session} : s.sessions[i]? = some x → x.phase = .closing →
      Effect s (.session i .close) (s.put i { x with phase := .closed })
  | exits {gpu : Nat} {w : WorkerState} : s.gpus[gpu]? = some w → w.worker = .idle → w.queue = [] →
      w.stopping = true → Effect s (.work gpu) (s.gpu gpu { w with worker := .exited })
  | takes {gpu : Nat} {task : GpuTask} {queue : List GpuTask} {w : WorkerState} : s.gpus[gpu]? = some w →
      w.worker = .idle → w.queue = task :: queue →
      Effect s (.work gpu) (s.gpu gpu { w with queue, worker := .computing task })
  | fulfils {gpu : Nat} {task : GpuTask} {w : WorkerState} {outcome : Computed GpuPayload} :
      s.gpus[gpu]? = some w → w.worker = .computing task →
      Effect s (.fulfil gpu outcome)
        { s.gpu gpu { w with worker := .idle } with kept := Function.update s.kept task.promise (some outcome) }
  | stops : Effect s .stop { s with running := false }
  | shuts : s.running = false →
      Effect s .shutAll
        { s with sessions := s.sessions.map fun x =>
            if x.socket ∈ s.clientSockets ∧ x.phase ≠ .closed then { x with shut := true } else x }
  | flags {gpu : Nat} {w : WorkerState} : s.gpus[gpu]? = some w → s.running = false →
      Effect s (.flag gpu) (s.gpu gpu { w with stopping := true })

variable {host sub topo backlogThreshold} {s : St}

theorem effect_session {i : Nat} {x : Session} (hx : s.sessions[i]? = some x) (act : Act) :
    Effect host sub topo backlogThreshold s (.session i act)
      (sessionStep host sub topo backlogThreshold s i x act) := by
  cases act with
  | turn t => exact .turns hx
  | draw =>
    simp only [sessionStep]
    split
    next hp => exact .draws hx hp
    next => exact .idle
  | store =>
    simp only [sessionStep]
    split
    next hp => exact .stores hx hp
    next => exact .idle
  | place depth =>
    simp only [sessionStep]
    split
    next request hp => exact .places hx hp
    next => exact .idle
  | enqueue =>
    simp only [sessionStep]
    split
    next request gpu hp =>
      split
      next w hw => exact .posts hx hp hw
      next => exact .idle
    next => exact .idle
  | release =>
    simp only [sessionStep]
    split
    next hp => exact .releases hx hp
    next => exact .idle
  | erase =>
    simp only [sessionStep]
    split
    next hp => exact .erases hx hp
    next => exact .idle
  | close =>
    simp only [sessionStep]
    split
    next hp => exact .closes hx hp
    next => exact .idle

theorem effect_accept (socket : Nat) :
    Effect host sub topo backlogThreshold s (.accept socket) (acceptStep s socket) := by
  unfold acceptStep
  split
  next => exact .idle
  next h =>
    split
    next => exact .exhausts
    next hid =>
      refine .accepts (Bool.of_not_eq_false fun hleft => h (Or.inl hleft)) ?_ (Nat.le_of_not_lt hid)
      exact Bool.eq_false_iff.mpr fun hopen => h (Or.inr hopen)

theorem effect_work {gpu : Nat} {w : WorkerState} (hw : s.gpus[gpu]? = some w) (hidle : w.worker = .idle) :
    Effect host sub topo backlogThreshold s (.work gpu) (workStep s gpu w) := by
  unfold workStep
  split
  next hq =>
    split
    next hstopping => exact .exits hw hidle hq hstopping
    next => exact .idle
  next task queue hq => exact .takes hw hidle hq

theorem step_effect (s : St) (e : Ev) :
    Effect host sub topo backlogThreshold s e (step host sub topo backlogThreshold s e) := by
  cases e with
  | accept socket => exact effect_accept socket
  | session i act =>
    simp only [step]
    split
    next x hx => exact effect_session hx act
    next => exact .idle
  | work gpu =>
    simp only [step]
    split
    next w hw =>
      split
      next hidle => exact effect_work hw hidle
      next => exact .idle
    next => exact .idle
  | fulfil gpu outcome =>
    simp only [step]
    split
    next w hw =>
      split
      next task htask => exact .fulfils hw htask
      next => exact .idle
    next => exact .idle
  | stop => exact .stops
  | shutAll =>
    simp only [step]
    split
    next => exact .idle
    next h => exact .shuts (Bool.eq_false_iff.mpr h)
  | flag gpu =>
    simp only [step]
    split
    next w hw =>
      split
      next => exact .idle
      next h => exact .flags hw (Bool.eq_false_iff.mpr h)
    next => exact .idle

end

/-! ## What a client is told -/

/-- The bytes of the requests of the exchanges. -/
def spelled (xs : List Exchange) : Bytes := xs.flatMap fun x => spell x.request

namespace Session

/-- The last result, once there is one. -/
def last (x : Session) : Option GpuPayload := if x.firstExchange then none else some x.previous

/-- What was received after the exchanges that are finished. -/
def Heard (x : Session) (more : Bytes) : Prop := x.received = spelled x.exchanges ++ more

variable (sub : UInt64 → UInt64 → UInt64) (compute : GpuComputeFn) (numGpus : Nat)

/-- What was sent after the answers that are finished. -/
def Told (x : Session) (more : Bytes) : Prop := x.out = talk sub x.exchanges ++ more

/-- What an answer is up to the end of a packet. -/
def upTo (x : Session) (y : Exchange) : PacketType → Bytes
  | .primary => packet y.primaryAt x.sequenceId .primary y.current
  | .delta => answer sub x.sequenceId x.last y

/-- Wherever the session stopped, it had sent no more than it should. -/
def Started (x : Session) : Prop :=
  ∃ xs : List Exchange, (∀ y ∈ xs, y.Genuine compute numGpus) ∧ spelled xs <+: x.received ∧ x.out <+: talk sub xs

/-- The session's variables are those of its finished exchanges. -/
structure Kept (x : Session) : Prop where
  genuine : ∀ y ∈ x.exchanges, y.Genuine compute numGpus
  sequenceId : x.sequenceId = UInt32.ofNat x.exchanges.length
  last : x.last = x.exchanges.getLast?.map (·.current)

/-- Where the session stands, what it has received and sent. -/
def Follows (posted : List (GpuPayload × Nat)) (x : Session) : Prop :=
  match x.phase with
  | .starting | .storing | .top => x.Heard [] ∧ x.Told sub []
  | .readLen got => got.length < 4 ∧ x.Heard got ∧ x.Told sub []
  | .readBody got => got.length < kPayloadBytes ∧ x.Heard (be 4 kExpectedLength ++ got) ∧ x.Told sub []
  | .received request => x.Heard (spell request) ∧ x.Told sub []
  | .placed request gpu => gpu < numGpus ∧ x.Heard (spell request) ∧ x.Told sub []
  | .waiting request gpu promise =>
    gpu < numGpus ∧ posted[promise]? = some (request, gpu) ∧ x.Heard (spell request) ∧ x.Told sub []
  | .sending y type left words =>
    y.Genuine compute numGpus ∧ x.Heard (spell y.request) ∧
      x.out ++ (left ++ words) = talk sub x.exchanges ++ x.upTo sub y type
  | .sent y type => y.Genuine compute numGpus ∧ x.Heard (spell y.request) ∧ x.Told sub (x.upTo sub y type)
  | .outside => False
  | .lost | .leaving | .erasing | .closing | .closed => x.Started sub compute numGpus

end Session

theorem spelled_concat (xs : List Exchange) (x : Exchange) : spelled (xs ++ [x]) = spelled xs ++ spell x.request := by
  simp [spelled]

section
variable {host : Host} {sub : UInt64 → UInt64 → UInt64} {compute : GpuComputeFn} {numGpus : Nat}
  {posted : List (GpuPayload × Nat)} {x : Session} {y : Exchange} {type : PacketType} {more : Bytes}

namespace Session

theorem Kept.talk_next (h : x.Kept compute numGpus) (y : Exchange) :
    talk sub (x.exchanges ++ [y]) = talk sub x.exchanges ++ answer sub x.sequenceId x.last y := by
  rw [talk_concat, h.sequenceId, h.last]

theorem upTo_begins (x : Session) (y : Exchange) (type : PacketType) :
    x.upTo sub y type <+: answer sub x.sequenceId x.last y := by
  cases type with
  | primary => exact List.prefix_append _ _
  | delta => exact List.prefix_refl _

theorem Kept.started (h : x.Kept compute numGpus) (hheard : x.Heard more) (htold : x.Told sub []) :
    x.Started sub compute numGpus := by
  refine ⟨x.exchanges, h.genuine, ?_, ?_⟩
  · rw [hheard]
    exact List.prefix_append _ _
  · rw [htold, List.append_nil]

/-- A session that is at its answer to `y`. -/
theorem Kept.started_answer (h : x.Kept compute numGpus) (hy : y.Genuine compute numGpus)
    (hheard : x.Heard (spell y.request)) (hout : x.out <+: talk sub x.exchanges ++ x.upTo sub y type) :
    x.Started sub compute numGpus := by
  refine ⟨x.exchanges ++ [y], ?_, ?_, ?_⟩
  · intro z hz
    rcases List.mem_append.mp hz with hz | hz
    · exact h.genuine z hz
    · rw [List.mem_singleton.mp hz]
      exact hy
  · rw [spelled_concat, ← hheard]
  · rw [h.talk_next]
    exact hout.trans ((List.prefix_append_right_inj _).mpr (upTo_begins x y type))

theorem Follows.started (h : x.Follows sub compute numGpus posted) (hk : x.Kept compute numGpus) :
    x.Started sub compute numGpus := by
  unfold Follows at h
  split at h
  next => exact hk.started h.1 h.2
  next => exact hk.started h.1 h.2
  next => exact hk.started h.1 h.2
  next => exact hk.started h.2.1 h.2.2
  next => exact hk.started h.2.1 h.2.2
  next => exact hk.started h.1 h.2
  next => exact hk.started h.2.1 h.2.2
  next => exact hk.started h.2.2.1 h.2.2.2
  next => exact hk.started_answer h.1 h.2.1 (h.2.2 ▸ List.prefix_append _ _)
  next =>
    obtain ⟨hy, hheard, hout⟩ := h
    rw [Told] at hout
    exact hk.started_answer hy hheard (by rw [hout])
  next => exact h.elim
  all_goals exact h

/-- A new promise is none that a session waits for. -/
theorem Follows.post (h : x.Follows sub compute numGpus posted) (task : GpuPayload × Nat) :
    x.Follows sub compute numGpus (posted ++ [task]) := by
  cases hp : x.phase with
  | waiting request gpu promise =>
    simp only [Follows, hp] at h ⊢
    obtain ⟨hlt, -⟩ := List.getElem?_eq_some_iff.mp h.2.1
    rw [List.getElem?_append_left hlt]
    exact h
  | outside => simp only [Follows, hp] at h
  | _ =>
    simp only [Follows, hp] at h ⊢
    exact h

/-- The session leaves its loop. -/
theorem Follows.leave (h : x.Follows sub compute numGpus posted) (hk : x.Kept compute numGpus) :
    Follows sub compute numGpus posted { x with phase := .leaving } := h.started hk

/-! ### Reading -/

theorem follows_gotLength {got : Bytes} (hk : x.Kept compute numGpus) (hlen : got.length ≤ 4) (hheard : x.Heard got)
    (htold : x.Told sub []) : (gotLength x got).Follows sub compute numGpus posted := by
  unfold gotLength
  split
  next hshort => exact ⟨hshort, hheard, htold⟩
  next hfull =>
    split
    next => exact hk.started hheard htold
    next hexpected =>
      have hfour : got.length = 4 := by omega
      have hword : be 4 kExpectedLength = got := by
        rw [← not_not.mp hexpected, ← hfour, be_ofBe]
      refine ⟨Nat.succ_pos _, ?_, htold⟩
      rw [hword, List.append_nil]
      exact hheard

theorem follows_gotBody {got : Bytes} (hlen : got.length ≤ kPayloadBytes)
    (hheard : x.Heard (be 4 kExpectedLength ++ got)) (htold : x.Told sub []) :
    (gotBody host x got).Follows sub compute numGpus posted := by
  unfold gotBody
  split
  next hshort => exact ⟨hshort, hheard, htold⟩
  next hfull =>
    refine ⟨?_, htold⟩
    rw [spell, spellDoubles_requestOf host (by omega)]
    exact hheard

theorem Heard.deliver {got : Bytes} (h : x.Heard got) (w : Bytes) :
    Heard { x with received := x.received ++ w } (got ++ w) := by
  show x.received ++ w = spelled x.exchanges ++ (got ++ w)
  rw [h, List.append_assoc]

theorem length_deliver {got : Bytes} {size : Nat} (h : got.length < size) (w : Bytes) :
    (got ++ w.take (size - got.length)).length ≤ size := by
  rw [List.length_append, List.length_take]
  omega

theorem follows_recv (hk : x.Kept compute numGpus) (h : x.Follows sub compute numGpus posted) (w : Bytes) :
    (recvTurn host x w).Follows sub compute numGpus posted := by
  have hleave := h.leave hk
  unfold recvTurn
  split
  next got hp =>
    unfold readExact
    split
    next => exact hleave
    next =>
      simp only [Follows, hp] at h
      exact follows_gotLength ⟨hk.genuine, hk.sequenceId, hk.last⟩ (length_deliver h.1 w) (h.2.1.deliver _) h.2.2
  next got hp =>
    unfold readExact
    split
    next => exact hleave
    next =>
      simp only [Follows, hp] at h
      refine follows_gotBody (length_deliver h.1 w) ?_ h.2.2
      rw [← List.append_assoc]
      exact h.2.1.deliver _
  next => exact h

/-! ### Answering -/

theorem follows_startPacket {now : UInt64} {payload : GpuPayload} (hstart : x.Started sub compute numGpus)
    (hheard : x.Heard (spell y.request))
    (hy : payload.length = kPayloadDoubles → y.Genuine compute numGpus ∧
      x.out ++ packet now x.sequenceId type payload = talk sub x.exchanges ++ x.upTo sub y type) :
    (startPacket host x y type now payload).Follows sub compute numGpus posted := by
  unfold startPacket
  by_cases hfive : payload.length = kPayloadDoubles
  · obtain ⟨header, words, hsend, -, hpacket⟩ := sendPacket_of_length host now x.sequenceId type hfive
    obtain ⟨hgenuine, hout⟩ := hy hfive
    rw [hsend]
    refine ⟨hgenuine, hheard, ?_⟩
    rw [hpacket]
    exact hout
  · rw [sendPacket, if_pos hfive]
    exact hstart

theorem follows_get {request : GpuPayload} {gpu promise : Nat} {now : UInt64} {outcome : Computed GpuPayload}
    (hk : x.Kept compute numGpus) (hp : x.phase = .waiting request gpu promise)
    (h : x.Follows sub compute numGpus posted) (hcompute : compute request gpu outcome) :
    (getTurn host x request gpu now outcome).Follows sub compute numGpus posted := by
  have hleave := h.leave hk
  simp only [Follows, hp] at h
  obtain ⟨hgpu, -, hheard, htold⟩ := h
  cases outcome with
  | returned current =>
    refine follows_startPacket hleave hheard fun hfive => ⟨⟨hgpu, hcompute, hfive⟩, ?_⟩
    rw [htold, List.append_nil]
    rfl
  | threw what => exact hleave
  | escaped => exact hleave

theorem follows_send {left words : Bytes} (hk : x.Kept compute numGpus) (hp : x.phase = .sending y type left words)
    (h : x.Follows sub compute numGpus posted) (n : Nat) :
    (sendTurn x y type left words n).Follows sub compute numGpus posted := by
  have hleave := h.leave hk
  simp only [Follows, hp] at h
  obtain ⟨hy, hheard, hout⟩ := h
  unfold sendTurn
  split
  next => exact hleave
  next =>
    simp only
    split
    next =>
      refine ⟨hy, hheard, ?_⟩
      show x.out ++ left.take n ++ (left.drop n ++ words) = _
      rw [List.append_assoc, ← List.append_assoc (left.take n), List.take_append_drop]
      exact hout
    next hall =>
      have hleft : left.take n = left := List.take_of_length_le (Nat.le_of_not_lt hall)
      split
      next hwords =>
        refine ⟨hy, hheard, ?_⟩
        show x.out ++ left.take n = _
        rw [hwords, List.append_nil] at hout
        rw [hleft, hout]
        rfl
      next =>
        refine ⟨hy, hheard, ?_⟩
        show x.out ++ left.take n ++ (words ++ []) = _
        rw [hleft, List.append_nil, List.append_assoc]
        exact hout

/-- The exchange is finished with all of its answer sent. -/
theorem follows_finish (hk : x.Kept compute numGpus) (hheard : x.Heard (spell y.request))
    (htold : x.Told sub (answer sub x.sequenceId x.last y)) : (finish x y).Follows sub compute numGpus posted := by
  refine ⟨?_, ?_⟩
  · show x.received = spelled (x.exchanges ++ [y]) ++ []
    rw [spelled_concat, List.append_nil, hheard]
  · show x.out = talk sub (x.exchanges ++ [y]) ++ []
    rw [hk.talk_next, List.append_nil, htold]

theorem kept_finish (hk : x.Kept compute numGpus) (hy : y.Genuine compute numGpus) :
    (finish x y).Kept compute numGpus where
  genuine := by
    intro z hz
    rcases List.mem_append.mp hz with hz | hz
    · exact hk.genuine z hz
    · rw [List.mem_singleton.mp hz]
      exact hy
  sequenceId := by
    show x.sequenceId + 1 = UInt32.ofNat (x.exchanges ++ [y]).length
    rw [hk.sequenceId, List.length_append, UInt32.ofNat_add]
    rfl
  last := by
    show some y.current = (x.exchanges ++ [y]).getLast?.map (·.current)
    rw [List.getLast?_concat]
    rfl

/-- `previous_payload` is as long as the result it is taken from. -/
theorem Kept.length_previous (hk : x.Kept compute numGpus) (h : x.firstExchange = false) :
    x.previous.length = kPayloadDoubles := by
  have hlast := hk.last
  rw [Session.last, h, if_neg Bool.false_ne_true] at hlast
  obtain ⟨z, hz, hcurrent⟩ := Option.map_eq_some_iff.mp hlast.symm
  rw [← hcurrent]
  exact (hk.genuine z (List.mem_of_getLast? hz)).five

theorem follows_next {now : UInt64} (hk : x.Kept compute numGpus) (hp : x.phase = .sent y type)
    (h : x.Follows sub compute numGpus posted) :
    (nextTurn host sub x y now type).Follows sub compute numGpus posted := by
  have hstart := h.started hk
  simp only [Follows, hp] at h
  obtain ⟨hy, hheard, htold⟩ := h
  cases type with
  | delta => exact follows_finish hk hheard htold
  | primary =>
    cases hfirst : x.firstExchange with
    | true =>
      have hlast : x.last = none := by rw [last, hfirst, if_pos rfl]
      simp only [nextTurn, hfirst, if_true]
      refine follows_finish hk hheard ?_
      rw [hlast, answer, List.append_nil]
      exact htold
    | false =>
      have hlast : x.last = some x.previous := by rw [last, hfirst, if_neg Bool.false_ne_true]
      have hlen : y.current.length = x.previous.length := by rw [hy.five, hk.length_previous hfirst]
      simp only [nextTurn, hfirst, Bool.false_eq_true, if_false, deltaOf_of_length sub hlen]
      refine follows_startPacket hstart hheard fun _ => ⟨⟨hy.placed, hy.computed, hy.five⟩, ?_⟩
      rw [htold, upTo, upTo, hlast, answer, List.append_assoc]

/-- A turn leaves the session's variables as they are, or finishes the exchange. -/
theorem turn_cases (running : Bool) (kept : Nat → Option (Computed GpuPayload)) (x : Session) (t : Turn) :
    ((turn host sub running kept x t).exchanges = x.exchanges ∧ (turn host sub running kept x t).sequenceId = x.sequenceId ∧
        (turn host sub running kept x t).last = x.last) ∨
      ∃ y type, x.phase = .sent y type ∧ turn host sub running kept x t = finish x y := by
  have hpacket : ∀ (x : Session) (y : Exchange) (type : PacketType) (now : UInt64) (payload : GpuPayload),
      ∃ p, startPacket host x y type now payload = { x with phase := p } := by
    intro x y type now payload
    unfold startPacket
    split
    next => exact ⟨_, rfl⟩
    next => exact ⟨_, rfl⟩
  cases t with
  | check =>
    simp only [turn]
    split
    next => exact Or.inl ⟨rfl, rfl, rfl⟩
    next => exact Or.inl ⟨rfl, rfl, rfl⟩
  | recv w =>
    refine Or.inl ?_
    simp only [turn, recvTurn, readExact, gotLength, gotBody]
    repeat' split
    all_goals exact ⟨rfl, rfl, rfl⟩
  | get now =>
    refine Or.inl ?_
    simp only [turn, getTurn]
    split
    next request gpu promise hp =>
      split
      next => exact ⟨rfl, rfl, rfl⟩
      next =>
        split
        next current hkept =>
          obtain ⟨p, hp⟩ := hpacket x { request, gpu, current, primaryAt := now } .primary now current
          rw [hp]
          exact ⟨rfl, rfl, rfl⟩
        next => exact ⟨rfl, rfl, rfl⟩
        next => exact ⟨rfl, rfl, rfl⟩
    next => exact ⟨rfl, rfl, rfl⟩
  | send n =>
    refine Or.inl ?_
    simp only [turn, sendTurn]
    repeat' split
    all_goals exact ⟨rfl, rfl, rfl⟩
  | next now =>
    simp only [turn]
    split
    next y type hp =>
      cases type with
      | delta => exact Or.inr ⟨y, _, hp, rfl⟩
      | primary =>
        simp only [nextTurn]
        split
        next => exact Or.inr ⟨y, _, hp, rfl⟩
        next =>
          split
          next => exact Or.inl ⟨rfl, rfl, rfl⟩
          next delta hdelta =>
            obtain ⟨p, hp⟩ := hpacket x { y with deltaAt := now } .delta now delta
            rw [hp]
            exact Or.inl ⟨rfl, rfl, rfl⟩
    next => exact Or.inl ⟨rfl, rfl, rfl⟩

theorem kept_turn {running : Bool} {kept : Nat → Option (Computed GpuPayload)} (hk : x.Kept compute numGpus)
    (h : x.Follows sub compute numGpus posted) (t : Turn) : (turn host sub running kept x t).Kept compute numGpus := by
  rcases @turn_cases host sub running kept x t with ⟨hexchanges, hseq, hlast⟩ | ⟨y, type, hp, hfinish⟩
  · exact ⟨hexchanges ▸ hk.genuine, by rw [hseq, hexchanges, hk.sequenceId], by rw [hlast, hexchanges, hk.last]⟩
  · simp only [Follows, hp] at h
    rw [hfinish]
    exact kept_finish hk h.1

theorem follows_turn {running : Bool} {kept : Nat → Option (Computed GpuPayload)} (hk : x.Kept compute numGpus)
    (h : x.Follows sub compute numGpus posted)
    (hkept : ∀ promise outcome, kept promise = some outcome →
      ∃ input gpu, posted[promise]? = some (input, gpu) ∧ compute input gpu outcome) (t : Turn) :
    (turn host sub running kept x t).Follows sub compute numGpus posted := by
  cases t with
  | check =>
    simp only [turn]
    split
    next hp =>
      have hleave := h.leave hk
      cases running with
      | false => exact hleave
      | true =>
        simp only [Follows, hp] at h
        exact ⟨Nat.succ_pos _, h.1, h.2⟩
    next => exact h
  | recv w => exact follows_recv hk h w
  | get now =>
    simp only [turn]
    split
    next request gpu promise hp =>
      split
      next => exact h
      next outcome houtcome =>
        obtain ⟨input, gpu', hposted, hcompute⟩ := hkept promise outcome houtcome
        have hwaits := h
        simp only [Follows, hp] at hwaits
        -- the promise is the one this session put its request under
        cases hwaits.2.1.symm.trans hposted
        exact follows_get hk hp h hcompute
    next => exact h
  | send n =>
    simp only [turn]
    split
    next y type left words hp => exact follows_send hk hp h n
    next => exact h
  | next now =>
    simp only [turn]
    split
    next y type hp => exact follows_next hk hp h
    next => exact h

end Session

end

/-! ## Every interleaving -/

/-- A computation that ends is left in a way the compute function may be. -/
def Computes (compute : GpuComputeFn) (s : St) : Ev → Prop
  | .fulfil gpu outcome => ∀ (w : WorkerState) (task : GpuTask), s.gpus[gpu]? = some w → w.worker = .computing task →
      compute task.input gpu outcome
  | _ => True

/-- The tasks a worker is given, the one it computes first. -/
def WorkerState.tasks (w : WorkerState) : List GpuTask :=
  match w.worker with
  | .computing task => task :: w.queue
  | _ => w.queue

section
variable (sub : UInt64 → UInt64 → UInt64) (compute : GpuComputeFn) (numGpus : Nat)

structure Inv (s : St) : Prop where
  /-- A task has the request its promise was made for, and is with the GPU it was placed on. -/
  tasks : ∀ (gpu : Nat) (w : WorkerState), s.gpus[gpu]? = some w → ∀ t ∈ w.tasks,
    s.posted[t.promise]? = some (t.input, gpu)
  kept : ∀ promise outcome, s.kept promise = some outcome →
    ∃ input gpu, s.posted[promise]? = some (input, gpu) ∧ compute input gpu outcome
  sessions : ∀ x ∈ s.sessions, x.Kept compute numGpus ∧ x.Follows sub compute numGpus s.posted

variable {sub compute numGpus} {s : St} {i gpu : Nat} {x x' : Session} {w w' : WorkerState}

theorem Inv.at (h : Inv sub compute numGpus s) (hx : s.sessions[i]? = some x) :
    x.Kept compute numGpus ∧ x.Follows sub compute numGpus s.posted := h.sessions x (List.mem_of_getElem? hx)

/-- One session moves, and hands out no task. -/
theorem Inv.moves {s' : St} (h : Inv sub compute numGpus s) (hgpus : s'.gpus = s.gpus) (hkept : s'.kept = s.kept)
    (hposted : s'.posted = s.posted) (hsessions : s'.sessions = s.sessions.modify i fun _ => x')
    (hk : x'.Kept compute numGpus) (hf : x'.Follows sub compute numGpus s.posted) : Inv sub compute numGpus s' := by
  refine ⟨?_, ?_, ?_⟩
  · rw [hgpus, hposted]
    exact h.tasks
  · rw [hkept, hposted]
    exact h.kept
  · rw [hsessions, hposted]
    exact forall_mem_modify h.sessions fun _ _ => ⟨hk, hf⟩

/-- A worker moves, and is given nothing. -/
theorem Inv.worker (h : Inv sub compute numGpus s) (hw : s.gpus[gpu]? = some w) (htasks : ∀ t ∈ w'.tasks, t ∈ w.tasks) :
    Inv sub compute numGpus (s.gpu gpu w') := by
  refine ⟨?_, h.kept, h.sessions⟩
  intro g v hv t ht
  rcases modify_get hv with ⟨a, rfl, -, rfl⟩ | ⟨-, hold⟩
  · exact h.tasks gpu w hw t (htasks t ht)
  · exact h.tasks g v hold t ht

theorem posted_append {posted : List (GpuPayload × Nat)} {p : Nat} {task : GpuPayload × Nat} (h : posted[p]? = some task)
    (new : GpuPayload × Nat) : (posted ++ [new])[p]? = some task := by
  rw [List.getElem?_append_left (List.getElem?_eq_some_iff.mp h).1]
  exact h

theorem Inv.enqueue {request : GpuPayload} (h : Inv sub compute numGpus s) (hx : s.sessions[i]? = some x)
    (hp : x.phase = .placed request gpu) (hw : s.gpus[gpu]? = some w) :
    Inv sub compute numGpus (enqueueStep s i x request gpu w) where
  tasks := by
    intro g v hv t ht
    rcases modify_get hv with ⟨a, rfl, -, rfl⟩ | ⟨-, hold⟩
    · have hcases : t ∈ w.tasks ∨ t = ⟨s.posted.length, request⟩ := by
        cases hworker : w.worker <;> simp_all [WorkerState.tasks, or_assoc]
      rcases hcases with ht | rfl
      · exact posted_append (h.tasks gpu w hw t ht) _
      · exact List.getElem?_concat_length
    · exact posted_append (h.tasks g v hold t ht) _
  kept := by
    intro promise outcome hkept
    obtain ⟨input, g, hposted, houtcome⟩ := h.kept promise outcome hkept
    exact ⟨input, g, posted_append hposted _, houtcome⟩
  sessions := by
    refine forall_mem_modify (fun y hy => ⟨(h.sessions y hy).1, (h.sessions y hy).2.post _⟩) ?_
    intro _ _
    obtain ⟨hk, hf⟩ := h.at hx
    simp only [Session.Follows, hp] at hf
    exact ⟨⟨hk.genuine, hk.sequenceId, hk.last⟩, hf.1, List.getElem?_concat_length, hf.2⟩

theorem Inv.fulfil {task : GpuTask} {outcome : Computed GpuPayload} (h : Inv sub compute numGpus s)
    (hw : s.gpus[gpu]? = some w) (htask : w.worker = .computing task) (hcompute : compute task.input gpu outcome) :
    Inv sub compute numGpus
      { s.gpu gpu { w with worker := .idle } with kept := Function.update s.kept task.promise (some outcome) } := by
  have htasks : w.tasks = task :: w.queue := by simp only [WorkerState.tasks, htask]
  have hworker : Inv sub compute numGpus (s.gpu gpu { w with worker := .idle }) := by
    refine h.worker hw fun t ht => ?_
    rw [htasks]
    exact List.mem_cons_of_mem task ht
  refine ⟨hworker.tasks, ?_, h.sessions⟩
  · intro promise outcome' hkept
    by_cases hpromise : promise = task.promise
    · subst hpromise
      cases (Function.update_self task.promise (some outcome) s.kept).symm.trans hkept
      refine ⟨task.input, gpu, h.tasks gpu w hw task ?_, hcompute⟩
      rw [htasks]
      exact List.mem_cons_self
    · exact h.kept promise outcome' ((Function.update_of_ne hpromise _ _).symm.trans hkept)

end

section
variable {host : Host} {sub : UInt64 → UInt64 → UInt64} {compute : GpuComputeFn} {topo : GpuTopology}
  {backlogThreshold : Nat} {s s' : St} {e : Ev}

theorem inv_step (h : Inv sub compute topo.numGpus s) (heff : Effect host sub topo backlogThreshold s e s')
    (hcompute : Computes compute s e) : Inv sub compute topo.numGpus s' := by
  cases heff with
  | idle => exact h
  | accepts =>
    refine ⟨h.tasks, h.kept, ?_⟩
    intro x hx
    rcases List.mem_append.mp hx with hx | hx
    · exact h.sessions x hx
    · rw [List.mem_singleton.mp hx]
      exact ⟨⟨by simp, rfl, rfl⟩, rfl, rfl⟩
  | exhausts => exact ⟨h.tasks, h.kept, h.sessions⟩
  | @turns i x t hx =>
    obtain ⟨hk, hf⟩ := h.at hx
    exact h.moves rfl rfl rfl rfl (Session.kept_turn hk hf t) (Session.follows_turn hk hf h.kept t)
  | draws hx hp =>
    obtain ⟨hk, hf⟩ := h.at hx
    simp only [Session.Follows, hp] at hf
    exact h.moves rfl rfl rfl rfl ⟨hk.genuine, hk.sequenceId, hk.last⟩ hf
  | stores hx hp =>
    obtain ⟨hk, hf⟩ := h.at hx
    simp only [Session.Follows, hp] at hf
    exact h.moves rfl rfl rfl rfl ⟨hk.genuine, hk.sequenceId, hk.last⟩ hf
  | places hx hp =>
    obtain ⟨hk, hf⟩ := h.at hx
    simp only [Session.Follows, hp] at hf
    exact h.moves rfl rfl rfl rfl ⟨hk.genuine, hk.sequenceId, hk.last⟩ ⟨Gpu.place_lt topo backlogThreshold _, hf⟩
  | posts hx hp hw => exact h.enqueue hx hp hw
  | releases hx hp =>
    obtain ⟨hk, hf⟩ := h.at hx
    exact h.moves rfl rfl rfl rfl ⟨hk.genuine, hk.sequenceId, hk.last⟩ (hf.started hk)
  | erases hx hp =>
    obtain ⟨hk, hf⟩ := h.at hx
    exact h.moves rfl rfl rfl rfl ⟨hk.genuine, hk.sequenceId, hk.last⟩ (hf.started hk)
  | closes hx hp =>
    obtain ⟨hk, hf⟩ := h.at hx
    exact h.moves rfl rfl rfl rfl ⟨hk.genuine, hk.sequenceId, hk.last⟩ (hf.started hk)
  | exits hw hidle hq => exact h.worker hw fun t ht => by simpa [WorkerState.tasks, hidle] using ht
  | takes hw hidle hq => exact h.worker hw fun t ht => by simpa [WorkerState.tasks, hidle, hq] using ht
  | fulfils hw htask => exact h.fulfil hw htask (hcompute _ _ hw htask)
  | stops => exact ⟨h.tasks, h.kept, h.sessions⟩
  | shuts =>
    refine ⟨h.tasks, h.kept, ?_⟩
    intro y hy
    obtain ⟨x, hx, rfl⟩ := List.mem_map.mp hy
    obtain ⟨hk, hf⟩ := h.sessions x hx
    split
    next => exact ⟨⟨hk.genuine, hk.sequenceId, hk.last⟩, hf⟩
    next => exact ⟨hk, hf⟩
  | flags hw => exact h.worker hw fun t ht => ht

theorem inv_run {es : List Ev} (hrun : EachStep (step host sub topo backlogThreshold) (Computes compute) (init topo) es) :
    Inv sub compute topo.numGpus (run host sub topo backlogThreshold es) := by
  refine exec_each (I := fun s : St => Inv sub compute topo.numGpus s) hrun ⟨?_, ?_, ?_⟩ ?_
  · intro gpu w hw t ht
    rw [List.eq_of_mem_replicate (List.mem_of_getElem? hw)] at ht
    cases ht
  · intro promise outcome hkept
    cases hkept
  · intro x hx
    cases hx
  · exact fun s e h hcompute => inv_step h (step_effect s e) hcompute

end

/-- What the session has of the next request, while it is ready for one. -/
def Phase.ready : Phase → Option Bytes
  | .top => some []
  | .readLen got => some got
  | .readBody got => some (be 4 kExpectedLength ++ got)
  | _ => none

theorem Session.Follows.ready {sub : UInt64 → UInt64 → UInt64} {compute : GpuComputeFn} {numGpus : Nat}
    {posted : List (GpuPayload × Nat)} {x : Session} {got : Bytes} (h : x.Follows sub compute numGpus posted)
    (hready : x.phase.ready = some got) : x.Heard got ∧ x.Told sub [] := by
  unfold Phase.ready at hready
  split at hready
  next hp =>
    cases hready
    simpa only [Session.Follows, hp] using h
  next hp =>
    cases hready
    simp only [Session.Follows, hp] at h
    exact h.2
  next hp =>
    cases hready
    simp only [Session.Follows, hp] at h
    exact h.2
  next => cases hready

/-- Whatever the other clients, the workers and the stopping thread do in between, and
    however its two streams are cut: what a client is sent is the beginning of `talk` of
    requests it sent, all of it when its session is ready for another request, and then the
    requests are all it sent. No `previous_payload` is read beyond its end. -/
theorem conversation (host : Host) (sub : UInt64 → UInt64 → UInt64) (compute : GpuComputeFn) (topo : GpuTopology)
    (backlogThreshold : Nat) (es : List Ev)
    (hrun : EachStep (step host sub topo backlogThreshold) (Computes compute) (init topo) es) (x : Session)
    (hx : x ∈ (run host sub topo backlogThreshold es).sessions) :
    x.phase ≠ .outside ∧
      ∃ xs : List Exchange, (∀ y ∈ xs, y.Genuine compute topo.numGpus) ∧ spelled xs <+: x.received ∧
        x.out <+: talk sub xs ∧ ∀ got, x.phase.ready = some got → x.received = spelled xs ++ got ∧ x.out = talk sub xs := by
  obtain ⟨hk, hf⟩ := (inv_run hrun).sessions x hx
  refine ⟨?_, ?_⟩
  · intro houtside
    simp only [Session.Follows, houtside] at hf
  · cases hready : x.phase.ready with
    | none =>
      obtain ⟨xs, hgenuine, hreceived, hout⟩ := hf.started hk
      exact ⟨xs, hgenuine, hreceived, hout, fun got h => by cases h⟩
    | some got =>
      obtain ⟨hheard, htold⟩ := hf.ready hready
      rw [Session.Told, List.append_nil] at htold
      refine ⟨x.exchanges, hk.genuine, ?_, ?_, ?_⟩
      · rw [hheard]
        exact List.prefix_append _ _
      · rw [htold]
      · intro got' h
        cases h
        exact ⟨hheard, htold⟩

/-- One request from its length to the first packet of its answer, the length in two
    pieces. -/
def request (body : Bytes) (result : GpuPayload) : List Ev :=
  [.session 0 (.turn .check), .session 0 (.turn (.recv [0, 0, 0])), .session 0 (.turn (.recv [40])),
    .session 0 (.turn (.recv body)), .session 0 (.place fun _ _ => 0), .session 0 .enqueue, .work 0,
    .fulfil 0 (.returned result), .session 0 (.turn (.get 1)), .session 0 (.turn (.send 13)),
    .session 0 (.turn (.send 40)), .session 0 (.turn (.next 2))]

/-- A client that sends one request twice, to a function that is not the same each time. -/
def twoRequests : List Ev :=
  [.accept 4, .session 0 .draw, .session 0 .store] ++ request (List.replicate 40 1) (List.replicate 5 1) ++
    request (List.replicate 40 1) (List.replicate 5 2) ++
    [.session 0 (.turn (.send 13)), .session 0 (.turn (.send 40)), .session 0 (.turn (.next 3))]

/-- It may return any five doubles. -/
def AnyFive (_ : GpuPayload) (_ : Nat) (outcome : Computed GpuPayload) : Prop :=
  ∃ result, outcome = .returned result ∧ result.length = kPayloadDoubles

theorem computes_anyFive {es : List Ev} (h : ∀ gpu outcome, Ev.fulfil gpu outcome ∈ es → AnyFive [] 0 outcome)
    (s : St) : EachStep (step .little (fun a b => a - b) oneGpu 32) (Computes AnyFive) s es := by
  refine eachStep_iff.mpr fun pre e hpre => ?_
  have he : e ∈ es := hpre.subset (by simp)
  cases e with
  | fulfil gpu outcome => exact fun _ _ _ _ => h gpu outcome he
  | _ => trivial

theorem conversation_twoRequests :
    ∃ x ∈ (run .little (fun a b => a - b) oneGpu 32 twoRequests).sessions,
      (x.phase, x.exchanges.length, x.out.length) = (.top, 2, 159) ∧
      ∃ xs : List Exchange, x.received = spelled xs ∧ x.out = talk (fun a b => a - b) xs := by
  have hend : ((run .little (fun a b => a - b) oneGpu 32 twoRequests).sessions[0]?).map
      (fun x => (x.phase, x.exchanges.length, x.out.length)) = some (.top, 2, 159) := by
    decide +kernel
  have hrun : EachStep (step .little (fun a b => a - b) oneGpu 32) (Computes AnyFive) (init oneGpu) twoRequests := by
    refine computes_anyFive ?_ _
    intro gpu outcome hmem
    have hends : (gpu = 0 ∧ outcome = .returned (List.replicate 5 1)) ∨ (gpu = 0 ∧ outcome = .returned (List.replicate 5 2)) := by
      simpa [twoRequests, request] using hmem
    rcases hends with ⟨-, rfl⟩ | ⟨-, rfl⟩
    · exact ⟨_, rfl, rfl⟩
    · exact ⟨_, rfl, rfl⟩
  obtain ⟨x, hx, hdata⟩ := Option.map_eq_some_iff.mp hend
  have hmem := List.mem_of_getElem? hx
  obtain ⟨-, xs, -, -, -, hready⟩ := conversation _ _ _ _ _ _ hrun x hmem
  have htop : x.phase.ready = some [] := by rw [(Prod.mk.inj hdata).1]; rfl
  obtain ⟨hreceived, hout⟩ := hready [] htop
  exact ⟨x, hmem, hdata, xs, by rw [hreceived, List.append_nil], hout⟩

end Overhauled.Adi.Sessions
