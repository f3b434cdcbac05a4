/-
  Overhauled.Server.Listener — the broker server as a whole: the accepting thread
  (`accept_loop`, `admit_client`, `reap_finished_sessions` of `src/broker_server.cpp`)
  and any number of sessions, each a `Session` state with its workers.

  `client_sockets_` is what a new client is counted against. A session takes its socket
  out of it before it joins its workers, so the sessions that wind down are not counted
  (`lingering`). The mutex of the set is held within single steps only. `accept`
  delivers a socket that is not open; what the server writes to a client it turns away
  goes to that client alone, and is left out but for the exception of its encoder, which
  ends the server. The sessions of the past stay in `connections`.

  (1) One session: its unfinished workers are all in its list of pending ones
      (`Tracked`), and past the erasure it starts no more (`unfinished_erased`).
  (2) The server: `client_sockets_` has a socket for every session before its erasure
      (`Registered`).
  (3) The workers of all sessions that have not finished are at most
      `max_clients * max_inflight_per_client` as long as a client is let in only while
      the sessions in the set and those winding down leave room for it
      (`unfinished_bounded`). `a_second_client_doubles_the_workers` is a run where it is
      let in next to a session that winds down.
-/

import Overhauled.Server.Inflight

namespace Overhauled.Server

open Wire Broker Machine

structure ListenerConfig extends BrokerServerConfig where
  maxClients : Nat := 128

/-! ## The state -/

structure Connection where
  socket : Nat
  session : St := {}

inductive Acceptor where
  | top
  /-- `reap_finished_sessions` looks at the record `k` next. -/
  | reap (k : Nat)
  | accepting
  | admitting (socket : Nat)
  /-- Out of the loop, to join the sessions. -/
  | left
  deriving DecidableEq

structure Listener where
  running : Bool := true
  acceptor : Acceptor := .top
  clientSockets : List Nat := []
  /-- The sessions whose threads are not joined yet. -/
  threads : List Nat := []
  connections : List Connection := []

inductive AcceptResult where
  | accepted (socket : Nat)
  | interrupted
  | failed

inductive ListenerEv where
  | acceptor
  | accept (r : AcceptResult)
  /-- `admit_client`; the socket options are set or not. -/
  | admitClient (timeoutSet : Bool)
  | session (i : Nat) (e : Ev)
  | stop

namespace Listener

def isOpen (s : Listener) (socket : Nat) : Bool :=
  s.connections.any fun x => x.socket = socket ∧ x.session.reader ≠ .closed

def isClosed (s : Listener) (i : Nat) : Bool := (s.connections[i]?).any fun x => x.session.reader = .closed

/-! ## The accepting thread -/

def stopAll (cfg : ListenerConfig) (s : Listener) : Listener :=
  { s with
    running := false
    connections := s.connections.map fun x => { x with session := Server.step cfg.toBrokerServerConfig x.session .stop } }

def acceptorStep (s : Listener) : Listener :=
  match s.acceptor with
  | .top => { s with acceptor := if s.running then .reap 0 else .left }
  | .reap k =>
    match s.threads[k]? with
    | none => { s with acceptor := .accepting }
    | some i =>
      if s.isClosed i then { s with threads := s.threads.eraseIdx k } else { s with acceptor := .reap (k + 1) }
  | .accepting => s
  | .admitting _ => s
  | .left => s

def acceptStep (cfg : ListenerConfig) (s : Listener) (r : AcceptResult) : Listener :=
  if s.acceptor ≠ .accepting then s
  else
    match r with
    | .accepted socket => if s.isOpen socket then s else { s with acceptor := .admitting socket }
    | .interrupted => { s with acceptor := if s.running then .top else .left }
    | .failed => if s.running then { stopAll cfg s with acceptor := .left } else { s with acceptor := .left }

def tooMany : Rejection := { error := ascii "too many concurrent broker clients" }

def admitClient (cfg : ListenerConfig) (s : Listener) (socket : Nat) (timeoutSet : Bool) : Listener :=
  if s.clientSockets.length ≥ cfg.maxClients then
    match tooMany.body cfg.limits with
    | .error _ => { stopAll cfg s with acceptor := .left }
    | .ok _ => { s with acceptor := .top }
  else if timeoutSet then
    { s with
      acceptor := .top
      clientSockets := s.clientSockets.insert socket
      threads := s.threads ++ [s.connections.length]
      connections := s.connections ++ [{ socket, session := { running := s.running } }] }
  else { s with acceptor := .top }

def admitStep (cfg : ListenerConfig) (s : Listener) (timeoutSet : Bool) : Listener :=
  match s.acceptor with
  | .admitting socket => admitClient cfg s socket timeoutSet
  | _ => s

/-! ## The sessions -/

/-- `client_sockets_` after a session's step. -/
def socketsAfter (sockets : List Nat) (x : Connection) : Ev → List Nat
  | .reader => if x.session.reader = .erase then sockets.erase x.socket else sockets
  | _ => sockets

def advance (cfg : ListenerConfig) (s : Listener) (i : Nat) (x : Connection) (e : Ev) : Listener :=
  { s with
    clientSockets := socketsAfter s.clientSockets x e
    connections := s.connections.modify i fun x =>
      { x with session := Server.step cfg.toBrokerServerConfig x.session e } }

/-- The flag a session's `stop` stores is the server's: no session stores it by itself. -/
def sessionStep (cfg : ListenerConfig) (s : Listener) (i : Nat) (e : Ev) : Listener :=
  match s.connections[i]?, e with
  | none, _ => s
  | some _, .stop => s
  | some x, e => advance cfg s i x e

def step (cfg : ListenerConfig) (s : Listener) : ListenerEv → Listener
  | .acceptor => acceptorStep s
  | .accept r => acceptStep cfg s r
  | .admitClient timeoutSet => admitStep cfg s timeoutSet
  | .session i e => sessionStep cfg s i e
  | .stop => stopAll cfg s

end Listener

/-! ## (1) One session -/

def St.unfinished (s : St) : Nat := s.workers.countP fun w => w.progress ≠ .done

/-- The socket is out of `client_sockets_`. -/
def ReaderAt.erased : ReaderAt → Bool
  | .shutdown => true
  | .joining => true
  | .closed => true
  | _ => false

structure Tracked (cfg : BrokerServerConfig) (s : St) : Prop where
  held : Held s
  listed : ∀ (i : Nat) (w : Worker), s.workers[i]? = some w → w.progress ≠ .done → i ∈ s.pending
  bounded : s.pending.length ≤ cfg.maxInflightPerClient

section
variable {cfg : BrokerServerConfig} {s s' : St} {e : Ev}

/-- What a step does to the workers and to the list of pending ones. -/
inductive Staff (cfg : BrokerServerConfig) (s : St) : List Worker → List Nat → Prop
  | same : Staff cfg s s.workers s.pending
  | moved {i : Nat} {w : Worker} (f : Worker → Worker) (hw : s.workers[i]? = some w) (hbusy : w.progress ≠ .done) :
      Staff cfg s (s.workers.modify i f) s.pending
  | collected {k i : Nat} (hi : s.pending[k]? = some i) (hdone : s.isDone i = true) :
      Staff cfg s s.workers (s.pending.eraseIdx k)
  | started {frame : Bytes} {w : Worker} (hr : s.reader = .received frame)
      (hroom : s.pending.length < cfg.maxInflightPerClient) :
      Staff cfg s (s.workers ++ [w]) (s.pending ++ [s.workers.length])

theorem staff_release {w : Writing} {ok : Bool} {out : Bytes} {torn : Bool} (hheld : Held s) (hw : s.writing = some w) :
    Staff cfg s (release { s with out, torn } w ok).workers (release { s with out, torn } w ok).pending := by
  have hheld' : Held { s with out, torn } := ⟨hheld.byReader, hheld.byWorker⟩
  rcases hheld'.release_cases hw ok with ⟨leave, -, hs'⟩ | ⟨i, v, hv, hprog, hs'⟩
  · rw [hs']
    exact .same
  · rw [hs']
    exact .moved _ hv (by simp [hprog])

theorem step_staff (hheld : Held s) (e : Ev) : Staff cfg s (step cfg s e).workers (step cfg s e).pending := by
  have heff := step_effect cfg s e
  generalize hs' : step cfg s e = s' at heff ⊢
  cases heff with
  | collect hr hi hd => exact .collected hi hd
  | spawn hr hd hroom => exact .started hr hroom
  | @join i rest hr hp =>
    simp only [step, readerStep, hr, hp] at hs'
    split at hs'
    next hdone =>
      have hrest : s.pending.eraseIdx 0 = rest := by rw [hp]; rfl
      rw [← hrest]
      exact .collected (by rw [hp]; rfl) hdone
    next => exact absurd (hp.symm.trans (congrArg St.pending hs')) (List.cons_ne_self i rest)
  | sendLast hw => exact staff_release hheld hw
  | giveUp hw => exact staff_release hheld hw
  | advance hw h => exact .moved _ hw h.underway.2
  | startResponse hw hp => exact .moved _ hw (by simp [hp])
  | _ => exact .same

theorem tracked_step (h : Tracked cfg s) (e : Ev) : Tracked cfg (step cfg s e) := by
  have hstaff : Staff cfg s (step cfg s e).workers (step cfg s e).pending := step_staff h.held e
  refine ⟨held_step h.held (step_effect cfg s e), ?_, ?_⟩
  all_goals generalize (step cfg s e).workers = workers, (step cfg s e).pending = pending at hstaff ⊢
  · intro j v hv hbusy
    cases hstaff with
    | same => exact h.listed j v hv hbusy
    | moved f hw hold =>
      rcases modify_get hv with ⟨a, rfl, ha, -⟩ | ⟨-, ha⟩
      · rw [hw] at ha
        cases ha
        exact h.listed _ _ hw hold
      · exact h.listed j v ha hbusy
    | @collected k i hi hdone =>
      obtain ⟨n, hn⟩ := List.mem_iff_getElem?.mp (h.listed j v hv hbusy)
      refine List.mem_eraseIdx_iff_getElem?.mpr ⟨n, ?_, hn⟩
      rintro rfl
      rw [hi] at hn
      cases hn
      exact hbusy (by simpa [St.isDone, hv] using hdone)
    | started hr hroom =>
      by_cases hj : j < s.workers.length
      · rw [List.getElem?_append_left hj] at hv
        exact List.mem_append_left _ (h.listed j v hv hbusy)
      · have hlen := (List.getElem?_eq_some_iff.mp hv).1
        rw [List.length_append, List.length_singleton] at hlen
        exact List.mem_append_right _ (List.mem_singleton.mpr (by omega))
  · cases hstaff with
    | same => exact h.bounded
    | moved => exact h.bounded
    | collected => exact (List.length_eraseIdx_le ..).trans h.bounded
    | started hr hroom =>
      rw [List.length_append, List.length_singleton]
      exact hroom

theorem tracked_start (running : Bool) : Tracked cfg { running } where
  held := Held.free rfl
  listed i w hw := by simp at hw
  bounded := Nat.zero_le _

theorem Tracked.unfinished_le (h : Tracked cfg s) : s.unfinished ≤ cfg.maxInflightPerClient := by
  refine (countP_le_length fun i w hw hbusy => ?_).trans h.bounded
  exact h.listed i w hw (of_decide_eq_true hbusy)

theorem unfinished_erased (h : Held s) (hgone : s.reader.erased = true) (e : Ev) :
    (step cfg s e).unfinished ≤ s.unfinished := by
  have hstaff : Staff cfg s (step cfg s e).workers (step cfg s e).pending := step_staff h e
  unfold St.unfinished
  generalize (step cfg s e).workers = workers, (step cfg s e).pending = pending at hstaff
  cases hstaff with
  | same => exact Nat.le_refl _
  | collected => exact Nat.le_refl _
  | moved f hw hbusy =>
    have hcount := countP_modify (p := fun w : Worker => decide (w.progress ≠ .done)) f hw
    rw [if_pos (decide_eq_true hbusy)] at hcount
    split at hcount <;> omega
  | started hr =>
    rw [hr] at hgone
    cases hgone

theorem erased_iff (p : ReaderAt) : p.erased = true ↔ p = .shutdown ∨ p = .joining ∨ p = .closed := by
  cases p <;> simp [ReaderAt.erased]

/-- A session past the erasure stays there, and a closed one stays closed. -/
theorem erased_step (hgone : s.reader.erased = true) (e : Ev) :
    (step cfg s e).reader.erased = true ∧ (s.reader = .closed → (step cfg s e).reader = .closed) := by
  have hsame : (step cfg s e).reader = s.reader →
      (step cfg s e).reader.erased = true ∧ (s.reader = .closed → (step cfg s e).reader = .closed) := by
    intro h
    rw [h]
    exact ⟨hgone, id⟩
  cases e with
  | reader =>
    rcases (erased_iff _).mp hgone with hr | hr | hr
    · simp [step, readerStep, hr, ReaderAt.erased]
    · simp only [step, readerStep, hr]
      split
      next => simp [ReaderAt.erased]
      next => split <;> simp [hr, ReaderAt.erased]
    · simp [step, readerStep, hr, ReaderAt.erased]
  | recv r =>
    refine hsame ?_
    rcases (erased_iff _).mp hgone with hr | hr | hr <;> simp only [step, recvStep, hr]
  | send r =>
    rcases @reader_sendStep s r with h | ⟨leave, hr, -⟩
    · exact hsame h
    · rw [hr] at hgone
      cases hgone
  | worker i env => exact hsame (reader_workerStep i env)
  | stop => exact hsame rfl

end

/-! ## (2) The sockets -/

namespace Connection

/-- The session's socket is still in `client_sockets_`. -/
def connected (x : Connection) : Bool := !x.session.reader.erased

/-- The session is out of `client_sockets_` and has a worker to join. -/
def lingers (x : Connection) : Bool := x.session.reader.erased && decide (0 < x.session.unfinished)

def occupied (x : Connection) : Bool := x.connected || x.lingers

def after (cfg : ListenerConfig) (e : Ev) (x : Connection) : Connection :=
  { x with session := Server.step cfg.toBrokerServerConfig x.session e }

section
variable {cfg : ListenerConfig} {x : Connection} {e : Ev}

theorem connected_of_after (h : (x.after cfg e).connected = true) : x.connected = true := by
  cases hgone : x.session.reader.erased with
  | false => simp [connected, hgone]
  | true => simp [connected, after, (erased_step hgone e).1] at h

theorem not_closed_of_after (h : (x.after cfg e).session.reader ≠ .closed) : x.session.reader ≠ .closed := by
  intro hclosed
  have hgone : x.session.reader.erased = true := by rw [hclosed]; rfl
  exact h ((erased_step hgone e).2 hclosed)

theorem occupied_of_after (htrack : Tracked cfg.toBrokerServerConfig x.session) (h : (x.after cfg e).occupied = true) :
    x.occupied = true := by
  cases hgone : x.session.reader.erased with
  | false => simp [occupied, connected, hgone]
  | true =>
    have hle := @unfinished_erased cfg.toBrokerServerConfig _ htrack.held hgone e
    simp only [occupied, connected, lingers, after, (erased_step hgone e).1, hgone, Bool.not_true, Bool.false_or,
      Bool.true_and, decide_eq_true_eq] at h ⊢
    exact lt_of_lt_of_le (of_decide_eq_true h) hle

end

end Connection

namespace Listener

structure Registered (s : Listener) : Prop where
  listed : ∀ x ∈ s.connections, x.connected = true → x.socket ∈ s.clientSockets
  distinct : s.connections.Pairwise fun x y => x.connected = true → y.connected = true → x.socket ≠ y.socket
  fresh : ∀ socket, s.acceptor = .admitting socket →
    ∀ x ∈ s.connections, x.session.reader ≠ .closed → x.socket ≠ socket

inductive Effect (cfg : ListenerConfig) (s : Listener) : ListenerEv → Listener → Prop
  | idle {e : ListenerEv} : Effect cfg s e s
  | moved {e : ListenerEv} {a : Acceptor} {threads : List Nat} (ha : ∀ socket, a ≠ .admitting socket) :
      Effect cfg s e { s with acceptor := a, threads }
  | stopped {e : ListenerEv} {a : Acceptor} (ha : a = s.acceptor ∨ ∀ socket, a ≠ .admitting socket) :
      Effect cfg s e { stopAll cfg s with acceptor := a }
  | accepted {socket : Nat} (hfree : s.isOpen socket = false) :
      Effect cfg s (.accept (.accepted socket)) { s with acceptor := .admitting socket }
  | admitted {socket : Nat} (ha : s.acceptor = .admitting socket) (hroom : s.clientSockets.length < cfg.maxClients) :
      Effect cfg s (.admitClient true)
        { s with
          acceptor := .top
          clientSockets := s.clientSockets.insert socket
          threads := s.threads ++ [s.connections.length]
          connections := s.connections ++ [{ socket, session := { running := s.running } }] }
  | session {i : Nat} {x : Connection} {e : Ev} (hx : s.connections[i]? = some x) :
      Effect cfg s (.session i e) (advance cfg s i x e)

section
variable {cfg : ListenerConfig} {s s' : Listener} {e : ListenerEv}

theorem effect_admitStep (timeoutSet : Bool) : Effect cfg s (.admitClient timeoutSet) (admitStep cfg s timeoutSet) := by
  unfold admitStep
  split
  next socket ha =>
    unfold admitClient
    split
    next =>
      split
      next => exact .stopped (Or.inr nofun)
      next => exact .moved nofun
    next hroom =>
      cases timeoutSet with
      | false => exact .moved nofun
      | true => exact .admitted ha (Nat.lt_of_not_le hroom)
  next => exact .idle

theorem effect_accept (r : AcceptResult) : Effect cfg s (.accept r) (acceptStep cfg s r) := by
  unfold acceptStep
  split
  next => exact .idle
  next =>
    split
    next socket =>
      split
      next => exact .idle
      next hfree => exact .accepted (Bool.eq_false_iff.mpr hfree)
    next => exact .moved (by split <;> nofun)
    next =>
      split
      next => exact .stopped (Or.inr nofun)
      next => exact .moved nofun

theorem effect_acceptor : Effect cfg s .acceptor (acceptorStep s) := by
  unfold acceptorStep
  split
  next => exact .moved (by split <;> nofun)
  next k ha =>
    split
    next => exact .moved nofun
    next i hi =>
      split
      next => exact .moved (by rw [ha]; nofun)
      next => exact .moved nofun
  all_goals exact .idle

theorem effect_session (i : Nat) (e : Ev) : Effect cfg s (.session i e) (sessionStep cfg s i e) := by
  unfold sessionStep
  split
  next => exact .idle
  next => exact .idle
  next x e hx hne => exact .session hx

theorem step_effect (e : ListenerEv) : Effect cfg s e (step cfg s e) := by
  cases e with
  | acceptor => exact effect_acceptor
  | accept r => exact effect_accept r
  | admitClient timeoutSet => exact effect_admitStep timeoutSet
  | session i e => exact effect_session i e
  | stop => exact .stopped (Or.inl rfl)

theorem Registered.stopAll (h : Registered s) {a : Acceptor} (ha : a = s.acceptor ∨ ∀ socket, a ≠ .admitting socket) :
    Registered { stopAll cfg s with acceptor := a } where
  listed := by
    intro x hx hcon
    obtain ⟨y, hy, rfl⟩ := List.mem_map.mp hx
    exact h.listed y hy (Connection.connected_of_after hcon)
  distinct := by
    refine List.pairwise_map.mpr (h.distinct.imp ?_)
    intro x y hxy hx hy
    exact hxy (Connection.connected_of_after hx) (Connection.connected_of_after hy)
  fresh := by
    intro socket hsocket x hx hopen
    obtain ⟨y, hy, rfl⟩ := List.mem_map.mp hx
    rcases ha with rfl | ha
    · exact h.fresh socket hsocket y hy (Connection.not_closed_of_after hopen)
    · exact absurd hsocket (ha socket)

/-- The erasing step takes out the socket of no other session. -/
theorem mem_socketsAfter {sockets : List Nat} {x : Connection} {socket : Nat} (h : socket ∈ sockets)
    (hne : x.connected = true → socket ≠ x.socket) (e : Ev) : socket ∈ socketsAfter sockets x e := by
  unfold socketsAfter
  split
  next =>
    split
    next hr =>
      refine (List.mem_erase_of_ne (hne ?_)).mpr h
      simp [Connection.connected, hr, ReaderAt.erased]
    next => exact h
  next => exact h

theorem Registered.advance (h : Registered s) {i : Nat} {x : Connection} (hx : s.connections[i]? = some x) (e : Ev) :
    Registered (advance cfg s i x e) where
  listed := by
    intro y hy hcon
    obtain ⟨j, hj⟩ := List.mem_iff_getElem?.mp hy
    rcases modify_get hj with ⟨a, rfl, ha, rfl⟩ | ⟨hij, hold⟩
    · rw [hx] at ha
      cases ha
      have hmem := h.listed x (List.mem_of_getElem? hx) (Connection.connected_of_after hcon)
      show x.socket ∈ socketsAfter s.clientSockets x e
      unfold socketsAfter
      split
      next =>
        split
        next hr =>
          -- the session that erases its socket is not connected any more
          simp [Connection.connected, Server.step, readerStep, hr, ReaderAt.erased] at hcon
        next => exact hmem
      next => exact hmem
    · refine mem_socketsAfter (h.listed y (List.mem_of_getElem? hold) hcon) (fun hxcon => ?_) e
      exact (pairwise_get h.distinct (fun _ _ hR hb ha => (hR ha hb).symm) hx hold hij hxcon hcon).symm
  distinct := by
    refine pairwise_modify (f := Connection.after cfg e) h.distinct ?_ ?_ i
    · exact fun a b hR ha hb => hR (Connection.connected_of_after ha) hb
    · exact fun a b hR ha hb => hR ha (Connection.connected_of_after hb)
  fresh := by
    intro socket hsocket
    refine forall_mem_modify (h.fresh socket hsocket) ?_
    intro a ha hopen
    exact h.fresh socket hsocket a (List.mem_of_getElem? ha) (@Connection.not_closed_of_after cfg _ _ hopen)

theorem registered_step (h : Registered s) (heff : Effect cfg s e s') : Registered s' := by
  cases heff with
  | idle => exact h
  | moved ha => exact ⟨h.listed, h.distinct, fun socket hsocket => absurd hsocket (ha socket)⟩
  | stopped ha => exact h.stopAll ha
  | @accepted socket hfree =>
    refine ⟨h.listed, h.distinct, ?_⟩
    rintro _ ⟨⟩ x hx hopen rfl
    have hany : s.isOpen x.socket = true := List.any_eq_true.mpr ⟨x, hx, by simp [hopen]⟩
    rw [hfree] at hany
    cases hany
  | @admitted socket ha hroom =>
    refine ⟨?_, ?_, nofun⟩
    · intro x hx hcon
      rcases List.mem_append.mp hx with hx | hx
      · exact List.mem_insert_of_mem (h.listed x hx hcon)
      · cases List.mem_singleton.mp hx
        exact List.mem_insert_self
    · refine List.pairwise_append.mpr ⟨h.distinct, List.pairwise_singleton _ _, ?_⟩
      intro x hx y hy hxcon _
      cases List.mem_singleton.mp hy
      refine h.fresh socket ha x hx fun hclosed => ?_
      simp [Connection.connected, hclosed, ReaderAt.erased] at hxcon
  | session hx => exact h.advance hx _

/-- Every session before its erasure has its own socket in the set. -/
theorem Registered.connected_le (h : Registered s) : s.connections.countP (·.connected) ≤ s.clientSockets.length := by
  rw [List.countP_eq_length_filter, ← List.length_map (f := Connection.socket)]
  have hnodup : ((s.connections.filter (·.connected)).map (·.socket)).Nodup :=
    List.pairwise_map.mpr (List.pairwise_filter.mpr h.distinct)
  refine (hnodup.subperm ?_).length_le
  intro socket hsocket
  obtain ⟨x, hx, rfl⟩ := List.mem_map.mp hsocket
  exact h.listed x (List.mem_filter.mp hx).1 (List.mem_filter.mp hx).2

end

/-! ## (3) All the workers -/

def unfinished (s : Listener) : Nat := (s.connections.map (·.session.unfinished)).sum

/-- How many sessions are out of `client_sockets_` with workers to join. -/
def lingering (s : Listener) : Nat := s.connections.countP (·.lingers)

/-- A client that is let in finds room beside the sessions in the set and those that wind down. -/
def Roomy (cfg : ListenerConfig) (s : Listener) : ListenerEv → Prop
  | .admitClient true => (∃ socket, s.acceptor = .admitting socket) → s.clientSockets.length < cfg.maxClients →
      s.clientSockets.length + s.lingering < cfg.maxClients
  | _ => True

instance Roomy.decidable (cfg : ListenerConfig) (s : Listener) (e : ListenerEv) : Decidable (Roomy cfg s e) :=
  match e with
  | .admitClient true =>
    have : Decidable (∃ socket, s.acceptor = .admitting socket) :=
      match s.acceptor with
      | .admitting socket => isTrue ⟨socket, rfl⟩
      | .top | .reap _ | .accepting | .left => isFalse nofun
    inferInstanceAs (Decidable (_ → _ → _))
  | .admitClient false | .acceptor | .accept _ | .session .. | .stop => isTrue trivial

/-- The set keeps what it counts within the bound by itself where no session winds down. -/
theorem roomy_of_no_lingering (cfg : ListenerConfig) {s : Listener} (h : s.lingering = 0) (e : ListenerEv) :
    Roomy cfg s e := by
  unfold Roomy
  split
  next =>
    intro _ hroom
    rw [h]
    exact hroom
  next => trivial

structure Inv (cfg : ListenerConfig) (s : Listener) : Prop where
  registered : Registered s
  tracked : ∀ x ∈ s.connections, Tracked cfg.toBrokerServerConfig x.session
  occupied : s.connections.countP (·.occupied) ≤ cfg.maxClients

section
variable {cfg : ListenerConfig} {s s' : Listener} {e : ListenerEv}

theorem countP_occupied (l : List Connection) :
    l.countP (·.occupied) = l.countP (·.connected) + l.countP (·.lingers) := by
  induction l with
  | nil => rfl
  | cons x l ih =>
    rw [List.countP_cons, List.countP_cons, List.countP_cons, ih]
    cases hgone : x.session.reader.erased <;>
      simp only [Connection.occupied, Connection.connected, Connection.lingers, hgone, Bool.not_true, Bool.not_false,
        Bool.true_or, Bool.false_or, Bool.true_and, Bool.false_and, if_true, Bool.false_eq_true, if_false] <;> omega

theorem inv_step (h : Inv cfg s) (heff : Effect cfg s e s') (hroomy : Roomy cfg s e) : Inv cfg s' := by
  have hreg := registered_step h.registered heff
  cases heff with
  | idle => exact h
  | moved => exact ⟨hreg, h.tracked, h.occupied⟩
  | accepted => exact ⟨hreg, h.tracked, h.occupied⟩
  | stopped =>
    refine ⟨hreg, ?_, ?_⟩
    · intro x hx
      obtain ⟨y, hy, rfl⟩ := List.mem_map.mp hx
      exact tracked_step (h.tracked y hy) .stop
    · refine le_trans ?_ h.occupied
      show (s.connections.map (Connection.after cfg .stop)).countP _ ≤ _
      rw [List.countP_map]
      exact List.countP_mono_left fun x hx hocc => Connection.occupied_of_after (h.tracked x hx) hocc
  | @admitted socket ha hroom =>
    refine ⟨hreg, ?_, ?_⟩
    · intro x hx
      rcases List.mem_append.mp hx with hx | hx
      · exact h.tracked x hx
      · cases List.mem_singleton.mp hx
        exact tracked_start s.running
    · have hcon := h.registered.connected_le
      have hleft := hroomy ⟨socket, ha⟩ hroom
      have hnew : [({ socket, session := { running := s.running } } : Connection)].countP (·.occupied) ≤ 1 :=
        List.countP_le_length
      rw [lingering] at hleft
      rw [List.countP_append, countP_occupied]
      omega
  | @session i x e hx =>
    refine ⟨hreg, ?_, ?_⟩
    · exact forall_mem_modify h.tracked fun a ha => tracked_step (h.tracked a (List.mem_of_getElem? ha)) e
    · refine le_trans ?_ h.occupied
      have hcount := countP_modify (p := fun x : Connection => x.occupied) (Connection.after cfg e) hx
      have hle : (x.after cfg e).occupied = true → x.occupied = true :=
        Connection.occupied_of_after (h.tracked x (List.mem_of_getElem? hx))
      show (s.connections.modify i (Connection.after cfg e)).countP _ ≤ _
      cases hocc : (x.after cfg e).occupied with
      | false =>
        rw [hocc] at hcount
        simp only [Bool.false_eq_true, if_false] at hcount
        omega
      | true =>
        rw [hocc, hle hocc] at hcount
        simp only [if_true] at hcount
        omega

end

/-- In every run that lets a client in only where the sessions in `client_sockets_` and
    those that still join their workers leave room for one more, all sessions together
    never have more unfinished workers than `max_clients * max_inflight_per_client`. -/
theorem unfinished_bounded (cfg : ListenerConfig) (es : List ListenerEv)
    (hroomy : EachStep (step cfg) (Roomy cfg) {} es) :
    (exec (step cfg) {} es).unfinished ≤ cfg.maxClients * cfg.maxInflightPerClient := by
  have h : Inv cfg (exec (step cfg) {} es) := by
    refine exec_each (I := Inv cfg) hroomy ?_ fun s e h hr => inv_step h (step_effect e) hr
    refine ⟨⟨?_, List.Pairwise.nil, nofun⟩, ?_, Nat.zero_le _⟩
    · intro x hx
      cases hx
    · intro x hx
      cases hx
  refine (sum_map_le_countP_mul (p := fun x : Connection => x.occupied) ?_ ?_).trans
    (Nat.mul_le_mul_right _ h.occupied)
  · exact fun x hx => (h.tracked x hx).unfinished_le
  · intro x _ hfree
    simp only [Connection.occupied, Connection.connected, Connection.lingers, Bool.or_eq_false_iff,
      Bool.not_eq_false', Bool.and_eq_false_iff, decide_eq_false_iff_not] at hfree
    rcases hfree with ⟨hgone, h' | h'⟩
    · rw [hgone] at h'
      cases h'
    · omega

/-- One client at a time, with one request at a time. -/
def single : ListenerConfig := { maxInflightPerClient := 1, maxClients := 1 }

def inSession (i : Nat) (es : List Ev) : List ListenerEv := es.map (.session i)

/-- A client on the socket is let in, as the `i`-th session, and sends a request. -/
def visit (threads i socket : Nat) : List ListenerEv :=
  List.replicate (threads + 2) .acceptor ++ [.accept (.accepted socket), .admitClient true] ++
    inSession i (awaits 0 ++ arrives pingFrame ++ [.reader])

/-- The client of the `i`-th session hangs up, and the session gets as far as its workers. -/
def hangUp (i : Nat) : List ListenerEv :=
  inSession i (awaits 1 ++ [.recv (.data [])] ++ List.replicate 3 .reader)

/-- The worker of the first session has finished before the second client comes. -/
def oneAfterOther : List ListenerEv :=
  visit 0 0 5 ++ hangUp 0 ++ inSession 0 [.worker 0 {}, .worker 0 {}, .worker 0 {}] ++ visit 1 1 6

theorem unfinished_bounded_oneAfterOther :
    (exec (step single) {} oneAfterOther).connections.length = 2 ∧ (exec (step single) {} oneAfterOther).unfinished ≤ 1 :=
  ⟨by decide +kernel, unfinished_bounded single oneAfterOther (by decide +kernel)⟩

/-- The first client is gone and its request still served when the second is let in. -/
theorem a_second_client_doubles_the_workers :
    let s := exec (step single) {} (visit 0 0 5 ++ hangUp 0 ++ visit 1 1 6)
    s.clientSockets = [6] ∧ s.unfinished = 2 ∧ single.maxClients * single.maxInflightPerClient = 1 := by
  decide +kernel

end Listener

end Overhauled.Server
