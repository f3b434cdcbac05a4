/-
  Overhauled.Adi.Clients — what `AdiServer` keeps of its clients, over every run of
  `Sessions`: their ids, `affinity_`, `client_sockets_` and the queues.

  (1) Homes (`affinity_exact`): `affinity_` has one entry for each session between
      `assign_home` and `release_client` and no other, so that `num_clients()` counts
      these. `place` finds the client's own home and never draws one, and of all the homes
      ever drawn each GPU has its equal share.
  (2) Sockets (`sockets_exact`): `client_sockets_` has the sockets of the sessions that have
      not erased theirs, each once and open; `active_clients()` counts these, and no
      socket `stop()` shuts down is closed or somebody else's.
  (3) Stopping (`stop_reaches_readers`): after `stop()` has gone over the sockets, every
      session that still reads has had its socket shut down. A client that is accepted
      after `running_` was cleared never gets to read.
  (4) Tasks (`tasks_exact`): the tasks with the workers are those of the sessions that wait
      for a promise that is not kept, each once, so that there are never more of them than
      clients.
-/

import Overhauled.Adi.Sessions

namespace Overhauled.Adi.Sessions

open Wire Machine
open Gpu (GpuTopology)
open Wasm (Computed)

/-! ## What a session is to the tables -/

/-- Past the draw of `assign_home`. -/
def Phase.drawn : Phase → Bool
  | .starting => false
  | _ => true

/-- Between `assign_home` and `release_client`. -/
def Phase.homed : Phase → Bool
  | .starting | .storing | .erasing | .closing | .closed => false
  | _ => true

/-- Before the erasure from `client_sockets_`. -/
def Phase.listed : Phase → Bool
  | .closing | .closed => false
  | _ => true

structure Card where
  clientId : Nat
  socket : Nat
  home : Nat
  drawn : Bool
  homed : Bool
  listed : Bool
  closed : Bool
  deriving DecidableEq, Repr

def Session.card (x : Session) : Card :=
  { clientId := x.clientId, socket := x.socket, home := x.home, drawn := x.phase.drawn, homed := x.phase.homed
    listed := x.phase.listed, closed := x.phase = .closed }

/-- A session's entry in `affinity_`. -/
def Card.entry (c : Card) : List (Nat × Nat) := if c.homed then [(c.clientId, c.home)] else []

def Card.draws (c : Card) : List Nat := if c.drawn then [c.home] else []

/-- A session's socket in `client_sockets_`. -/
def Card.listing (c : Card) : List Nat := if c.listed then [c.socket] else []

def St.cards (s : St) : List Card := s.sessions.map Session.card

section
variable {host : Host} {sub : UInt64 → UInt64 → UInt64} {s : St} {i : Nat} {x x' : Session}

theorem cards_get (hx : s.sessions[i]? = some x) : s.cards[i]? = some x.card := by
  rw [St.cards, List.getElem?_map, hx]
  rfl

theorem cards_get_of {c : Card} (hx : s.sessions[i]? = some x) (hcard : x.card = c) : s.cards[i]? = some c := by
  rw [cards_get hx, hcard]

theorem cards_put (x' : Session) : (s.put i x').cards = s.cards.modify i fun _ => x'.card := map_modify_const x' s.sessions i

theorem card_of_homed {p : Phase} (h : x.phase.homed = true) (hp : p.homed = true) :
    Session.card { x with phase := p } = x.card := by
  cases hx : x.phase <;> cases p <;> simp_all [Session.card, Phase.homed, Phase.drawn, Phase.listed]

theorem card_startPacket {y : Exchange} {type : PacketType} {now : UInt64} {payload : GpuPayload}
    (h : x.phase.homed = true) : (startPacket host x y type now payload).card = x.card := by
  unfold startPacket
  split
  next => exact card_of_homed h rfl
  next => exact card_of_homed h rfl

/-- A turn is one of a session that has its home, and leaves it as it is to the tables. -/
theorem card_turn (running : Bool) (kept : Nat → Option (Computed GpuPayload)) (x : Session) (t : Turn) :
    (turn host sub running kept x t).card = x.card := by
  cases t with
  | check =>
    simp only [turn]
    split
    next hp => exact card_of_homed (by rw [hp]; rfl) (by cases running <;> rfl)
    next => rfl
  | recv w =>
    simp only [turn, recvTurn]
    split
    next got hp =>
      have hhomed : x.phase.homed = true := by rw [hp]; rfl
      simp only [readExact, gotLength]
      repeat' split
      all_goals exact card_of_homed hhomed rfl
    next got hp =>
      have hhomed : x.phase.homed = true := by rw [hp]; rfl
      simp only [readExact, gotBody]
      repeat' split
      all_goals exact card_of_homed hhomed rfl
    next => rfl
  | get now =>
    simp only [turn]
    split
    next request gpu promise hp =>
      have hhomed : x.phase.homed = true := by rw [hp]; rfl
      split
      next => rfl
      next outcome _ =>
        cases outcome with
        | returned current => exact card_startPacket hhomed
        | threw what => exact card_of_homed hhomed rfl
        | escaped => exact card_of_homed hhomed rfl
    next => rfl
  | send n =>
    simp only [turn]
    split
    next y type left words hp =>
      have hhomed : x.phase.homed = true := by rw [hp]; rfl
      simp only [sendTurn]
      repeat' split
      all_goals exact card_of_homed hhomed rfl
    next => rfl
  | next now =>
    simp only [turn]
    split
    next y type hp =>
      have hhomed : x.phase.homed = true := by rw [hp]; rfl
      cases type with
      | delta => exact card_of_homed hhomed rfl
      | primary =>
        simp only [nextTurn]
        split
        next => exact card_of_homed hhomed rfl
        next =>
          split
          next => exact card_of_homed hhomed rfl
          next => exact card_startPacket hhomed
    next => rfl

end

/-! ## The tables -/

structure Booked (numGpus : Nat) (s : St) : Prop where
  ids : ∀ (i : Nat) (c : Card), s.cards[i]? = some c → c.clientId = i + 1
  next : s.accepting = true → s.nextClientId = s.cards.length + 1
  few : s.cards.length ≤ kIntMax
  affinity : s.affinity.Perm (s.cards.flatMap Card.entry)
  draws : (s.cards.flatMap Card.draws).Perm ((List.range (s.cards.flatMap Card.draws).length).map (· % numGpus))
  rr : s.rrCounter = UInt64.ofNat (s.cards.flatMap Card.draws).length
  order : ∀ c ∈ s.cards, (c.homed = true → c.drawn = true) ∧ (c.listed = true → c.closed = false)
  sockets : s.clientSockets.Perm (s.cards.flatMap Card.listing)
  distinct : s.cards.Pairwise fun c d => c.closed = false → d.closed = false → c.socket ≠ d.socket

section
variable {numGpus : Nat} {s s' : St} {i : Nat} {c c' : Card}

theorem Booked.same (h : Booked numGpus s) (hcards : s'.cards = s.cards) (haccepting : s'.accepting = s.accepting)
    (hnext : s'.nextClientId = s.nextClientId) (haffinity : s'.affinity = s.affinity) (hrr : s'.rrCounter = s.rrCounter)
    (hsockets : s'.clientSockets = s.clientSockets) : Booked numGpus s' := by
  refine ⟨?_, ?_, ?_, ?_, ?_, ?_, ?_, ?_, ?_⟩ <;> rw [hcards]
  · exact h.ids
  · rw [haccepting, hnext]
    exact h.next
  · exact h.few
  · rw [haffinity]
    exact h.affinity
  · exact h.draws
  · rw [hrr]
    exact h.rr
  · exact h.order
  · rw [hsockets]
    exact h.sockets
  · exact h.distinct

theorem length_draws_le (cs : List Card) : (cs.flatMap Card.draws).length ≤ cs.length := by
  induction cs with
  | nil => exact Nat.le_refl _
  | cons c cs ih =>
    have hone : c.draws.length ≤ 1 := by
      unfold Card.draws
      split
      next => exact Nat.le_refl _
      next => exact Nat.zero_le _
    rw [List.flatMap_cons, List.length_append, List.length_cons]
    omega

/-- What the cards hold together changes as what one of them holds. -/
theorem perm_change {β : Type} {g : Card → List β} {table table' : List β} (hc : s.cards[i]? = some c)
    (h : table.Perm (s.cards.flatMap g)) (hchange : (g c ++ table').Perm (g c' ++ table)) :
    table'.Perm ((s.cards.modify i fun _ => c').flatMap g) := by
  refine (List.perm_append_left_iff (g c)).mp ?_
  calc (g c ++ table').Perm (g c' ++ table) := hchange
    List.Perm _ (g c' ++ s.cards.flatMap g) := h.append_left (g c')
    List.Perm _ (g c ++ (s.cards.modify i fun _ => c').flatMap g) := (flatMap_modify_perm (fun _ => c') hc).symm

/-- A home is drawn: the next one in turn, as there are no more clients than ids and the
    counter has not come round. -/
theorem Booked.draws_next (h : Booked numGpus s) (hc : s.cards[i]? = some c) (hnone : c.draws = [])
    (hone : c'.draws = [s.rrCounter.toNat % numGpus]) :
    let draws := (s.cards.modify i fun _ => c').flatMap Card.draws
    draws.Perm ((List.range draws.length).map (· % numGpus)) ∧ s.rrCounter + 1 = UInt64.ofNat draws.length := by
  have hperm : ((s.cards.modify i fun _ => c').flatMap Card.draws).Perm
      (s.rrCounter.toNat % numGpus :: s.cards.flatMap Card.draws) := by
    have h := flatMap_modify_perm (g := Card.draws) (fun _ => c') hc
    rw [hnone, hone] at h
    exact h
  have hcounter : s.rrCounter.toNat = (s.cards.flatMap Card.draws).length := by
    have hle := (length_draws_le s.cards).trans h.few
    rw [h.rr, UInt64.toNat_ofNat_of_lt' (lt_of_le_of_lt hle (by decide))]
  refine ⟨?_, ?_⟩
  · rw [hperm.length_eq, List.length_cons, List.range_succ, List.map_append]
    refine hperm.trans ((h.draws.cons _).trans ?_)
    rw [hcounter]
    exact (List.perm_append_singleton _ _).symm
  · rw [hperm.length_eq, List.length_cons, UInt64.ofNat_add, ← h.rr]
    rfl

/-- One card changes, other than in its id and its socket, and the tables follow. -/
theorem Booked.change (h : Booked numGpus s) (hc : s.cards[i]? = some c)
    (hcards : s'.cards = s.cards.modify i fun _ => c') (hid : c'.clientId = c.clientId) (hsocket : c'.socket = c.socket)
    (hclosed : c.closed = true → c'.closed = true)
    (horder : (c'.homed = true → c'.drawn = true) ∧ (c'.listed = true → c'.closed = false))
    (haccepting : s'.accepting = s.accepting) (hnext : s'.nextClientId = s.nextClientId)
    (hentry : (c.entry ++ s'.affinity).Perm (c'.entry ++ s.affinity))
    (hdraws : c'.draws = c.draws ∧ s'.rrCounter = s.rrCounter ∨
      c.draws = [] ∧ c'.draws = [s.rrCounter.toNat % numGpus] ∧ s'.rrCounter = s.rrCounter + 1)
    (hlisting : (c.listing ++ s'.clientSockets).Perm (c'.listing ++ s.clientSockets)) : Booked numGpus s' := by
  have hdrawn : (s'.cards.flatMap Card.draws).Perm ((List.range (s'.cards.flatMap Card.draws).length).map (· % numGpus)) ∧
      s'.rrCounter = UInt64.ofNat (s'.cards.flatMap Card.draws).length := by
    rw [hcards]
    rcases hdraws with ⟨hsame, hrr⟩ | ⟨hnone, hone, hrr⟩
    · rw [flatMap_modify_const hc hsame, hrr]
      exact ⟨h.draws, h.rr⟩
    · rw [hrr]
      exact h.draws_next hc hnone hone
  refine ⟨?_, ?_, ?_, ?_, hdrawn.1, hdrawn.2, ?_, ?_, ?_⟩ <;> rw [hcards]
  · intro j d hd
    rcases modify_get hd with ⟨a, rfl, -, rfl⟩ | ⟨-, hold⟩
    · rw [hid]
      exact h.ids i c hc
    · exact h.ids j d hold
  · rw [haccepting, hnext, List.length_modify]
    exact h.next
  · rw [List.length_modify]
    exact h.few
  · exact perm_change hc h.affinity hentry
  · exact forall_mem_modify h.order fun _ _ => horder
  · exact perm_change hc h.sockets hlisting
  · have hopen : c'.closed = false → c.closed = false := by
      intro hopen
      exact Bool.eq_false_iff.mpr fun hcl => by rw [hclosed hcl] at hopen; cases hopen
    refine pairwise_modify_const h.distinct hc ?_ ?_
    · intro d _ hd hc' hd'
      rw [hsocket]
      exact hd (hopen hc') hd'
    · intro d _ hd hd' hc'
      rw [hsocket]
      exact hd hd' (hopen hc')

/-- Whose entry it is. -/
theorem Booked.entry_owner (h : Booked numGpus s) {j : Nat} {e : Nat × Nat} (he : e ∈ s.cards.flatMap Card.entry)
    (hid : e.1 = j + 1) : ∃ d, s.cards[j]? = some d ∧ d.homed = true ∧ e = (d.clientId, d.home) := by
  obtain ⟨d, hd, hmem⟩ := List.mem_flatMap.mp he
  obtain ⟨k, hk⟩ := List.mem_iff_getElem?.mp hd
  unfold Card.entry at hmem
  split at hmem
  next hhomed =>
    cases List.mem_singleton.mp hmem
    have := h.ids k d hk
    obtain rfl : k = j := by
      simp only at hid
      omega
    exact ⟨d, hk, hhomed, rfl⟩
  next => cases hmem

theorem Booked.home_found (h : Booked numGpus s) (hc : s.cards[i]? = some c) :
    findHome s.affinity c.clientId = if c.homed then some c.home else none := by
  have hid := h.ids i c hc
  have howner : ∀ e ∈ s.affinity, e.1 = c.clientId → c.homed = true ∧ e = (c.clientId, c.home) := by
    intro e he hkey
    obtain ⟨d, hd, hhomed, rfl⟩ := h.entry_owner (h.affinity.mem_iff.mp he) (hkey.trans hid)
    rw [hc] at hd
    cases hd
    exact ⟨hhomed, rfl⟩
  rw [findHome]
  cases hhomed : c.homed with
  | false =>
    rw [List.find?_eq_none.mpr]
    · rfl
    · intro e he hkey
      have := (howner e he (of_decide_eq_true hkey)).1
      rw [hhomed] at this
      cases this
  | true =>
    have hmem : (c.clientId, c.home) ∈ s.affinity := by
      refine h.affinity.mem_iff.mpr (List.mem_flatMap.mpr ⟨c, List.mem_of_getElem? hc, ?_⟩)
      rw [Card.entry, hhomed]
      exact List.mem_singleton_self _
    cases hfind : s.affinity.find? fun entry => entry.1 = c.clientId with
    | none => exact absurd (decide_eq_true rfl) (List.find?_eq_none.mp hfind _ hmem)
    | some e =>
      have hkey := List.find?_some hfind
      rw [(howner e (List.mem_of_find?_eq_some hfind) (of_decide_eq_true hkey)).2]
      rfl

theorem Booked.home_lt (h : Booked numGpus s) (hpos : 0 < numGpus) (hc : c ∈ s.cards) (hdrawn : c.drawn = true) :
    c.home < numGpus := by
  have hmem : c.home ∈ s.cards.flatMap Card.draws := by
    refine List.mem_flatMap.mpr ⟨c, hc, ?_⟩
    rw [Card.draws, hdrawn]
    exact List.mem_singleton_self _
  obtain ⟨k, -, hk⟩ := List.mem_map.mp (h.draws.mem_iff.mp hmem)
  rw [← hk]
  exact Nat.mod_lt _ hpos

end

/-! ## The steps -/

section
variable {topo : GpuTopology} {s : St} {i : Nat} {x : Session}

theorem Booked.accept (h : Booked topo.numGpus s) {socket : Nat} (haccepting : s.accepting = true)
    (hfree : s.isOpen socket = false) (hid : s.nextClientId ≤ kIntMax) :
    Booked topo.numGpus
      { s with
        nextClientId := s.nextClientId + 1
        clientSockets := s.clientSockets.insert socket
        sessions := s.sessions ++ [{ socket, clientId := s.nextClientId }] } := by
  have hnext := h.next haccepting
  have hopen : ∀ c ∈ s.cards, c.closed = false → c.socket ≠ socket := by
    intro c hc hclosed hsocket
    obtain ⟨x, hx, rfl⟩ := List.mem_map.mp hc
    have hany : s.isOpen socket = true := by
      refine List.any_eq_true.mpr ⟨x, hx, ?_⟩
      simp only [Session.card, decide_eq_false_iff_not] at hsocket hclosed
      simp [hsocket, hclosed]
    rw [hfree] at hany
    cases hany
  have hnew : socket ∉ s.clientSockets := by
    intro hmem
    obtain ⟨c, hc, hlisting⟩ := List.mem_flatMap.mp (h.sockets.mem_iff.mp hmem)
    unfold Card.listing at hlisting
    split at hlisting
    next hlisted => exact hopen c hc ((h.order c hc).2 hlisted) (List.mem_singleton.mp hlisting).symm
    next => cases hlisting
  -- the new card has nothing but its socket in the tables
  have hcards : ∀ t : St, t.sessions = s.sessions ++ [{ socket, clientId := s.nextClientId }] →
      t.cards = s.cards ++ [⟨s.nextClientId, socket, 0, false, false, true, false⟩] := by
    intro t ht
    rw [St.cards, ht, List.map_append]
    rfl
  refine ⟨?_, ?_, ?_, ?_, ?_, ?_, ?_, ?_, ?_⟩ <;> rw [hcards _ rfl]
  · intro j d hd
    by_cases hj : j < s.cards.length
    · rw [List.getElem?_append_left hj] at hd
      exact h.ids j d hd
    · rw [List.getElem?_append_right (Nat.le_of_not_lt hj)] at hd
      have hzero : j - s.cards.length < 1 := (List.getElem?_eq_some_iff.mp hd).1
      cases List.mem_singleton.mp (List.mem_of_getElem? hd)
      simp only [hnext]
      omega
  · intro _
    simp only [hnext, List.length_append, List.length_singleton]
  · rw [List.length_append, List.length_singleton, ← hnext]
    exact hid
  · simpa [Card.entry] using h.affinity
  · simpa [Card.draws] using h.draws
  · simpa [Card.draws] using h.rr
  · intro c hc
    rcases List.mem_append.mp hc with hc | hc
    · exact h.order c hc
    · cases List.mem_singleton.mp hc
      exact ⟨fun hhomed => absurd hhomed Bool.false_ne_true, fun _ => rfl⟩
  · rw [List.insert_of_not_mem hnew, List.flatMap_append]
    exact (List.Perm.cons socket h.sockets).trans (List.perm_append_singleton socket _).symm
  · refine List.pairwise_append.mpr ⟨h.distinct, List.pairwise_singleton _ _, ?_⟩
    intro c hc d hd hclosed _
    cases List.mem_singleton.mp hd
    exact hopen c hc hclosed

theorem Booked.draw (h : Booked topo.numGpus s) (hx : s.sessions[i]? = some x) (hp : x.phase = .starting) :
    Booked topo.numGpus (drawStep topo s i x) := by
  have hcard : x.card = ⟨x.clientId, x.socket, x.home, false, false, true, false⟩ := by
    simp [Session.card, hp, Phase.drawn, Phase.homed, Phase.listed]
  refine h.change (cards_get_of hx hcard) (cards_put _) rfl rfl (fun hcl => absurd hcl Bool.false_ne_true)
    ⟨fun hhomed => absurd hhomed Bool.false_ne_true, fun _ => rfl⟩ rfl rfl (List.Perm.refl _) ?_ (List.Perm.refl _)
  exact Or.inr ⟨rfl, rfl, rfl⟩

theorem Booked.store (h : Booked topo.numGpus s) (hx : s.sessions[i]? = some x) (hp : x.phase = .storing) :
    Booked topo.numGpus (storeStep s i x) := by
  have hcard : x.card = ⟨x.clientId, x.socket, x.home, true, false, true, false⟩ := by
    simp [Session.card, hp, Phase.drawn, Phase.homed, Phase.listed]
  have hc := cards_get_of hx hcard
  -- the client has no entry to replace
  have hfresh : eraseHome s.affinity x.clientId = s.affinity := by
    refine List.filter_eq_self.mpr fun e he => decide_eq_true fun hkey => ?_
    obtain ⟨d, hd, hhomed, -⟩ := h.entry_owner (h.affinity.mem_iff.mp he) (hkey.trans (h.ids i _ hc))
    rw [hc] at hd
    cases hd
    cases hhomed
  refine h.change hc (cards_put _) rfl rfl (fun hcl => absurd hcl Bool.false_ne_true) ⟨fun _ => rfl, fun _ => rfl⟩ rfl rfl
    ?_ (Or.inl ⟨rfl, rfl⟩) (List.Perm.refl _)
  show (storeHome s.affinity x.clientId x.home).Perm ((x.clientId, x.home) :: s.affinity)
  rw [storeHome, hfresh]
  exact List.perm_append_singleton _ _

theorem Booked.release (h : Booked topo.numGpus s) (hx : s.sessions[i]? = some x) (hp : x.phase = .leaving) :
    Booked topo.numGpus (releaseStep s i x) := by
  have hcard : x.card = ⟨x.clientId, x.socket, x.home, true, true, true, false⟩ := by
    simp [Session.card, hp, Phase.drawn, Phase.homed, Phase.listed]
  have hc := cards_get_of hx hcard
  have hentry : ((x.clientId, x.home) :: (s.cards.modify i fun _ =>
      ⟨x.clientId, x.socket, x.home, true, false, true, false⟩).flatMap Card.entry).Perm (s.cards.flatMap Card.entry) :=
    flatMap_modify_perm (g := Card.entry) (fun _ => ⟨x.clientId, x.socket, x.home, true, false, true, false⟩) hc
  -- no other session has the id
  have hothers : ∀ e ∈ (s.cards.modify i fun _ =>
      ⟨x.clientId, x.socket, x.home, true, false, true, false⟩).flatMap Card.entry, e.1 ≠ x.clientId := by
    intro e he hkey
    obtain ⟨d, hd, hmem⟩ := List.mem_flatMap.mp he
    obtain ⟨j, hj⟩ := List.mem_iff_getElem?.mp hd
    rcases modify_get hj with ⟨a, -, -, rfl⟩ | ⟨hij, hold⟩
    · cases hmem
    · unfold Card.entry at hmem
      split at hmem
      next =>
        cases List.mem_singleton.mp hmem
        have hidj := h.ids j d hold
        have hidi := h.ids i _ hc
        simp only at hkey hidi
        omega
      next => cases hmem
  refine h.change hc (cards_put _) rfl rfl (fun hcl => absurd hcl Bool.false_ne_true)
    ⟨fun hhomed => absurd hhomed Bool.false_ne_true, fun _ => rfl⟩ rfl rfl ?_ (Or.inl ⟨rfl, rfl⟩) (List.Perm.refl _)
  have hfilter := (h.affinity.trans hentry.symm).filter fun entry => entry.1 ≠ x.clientId
  rw [List.filter_cons_of_neg (by simp), List.filter_eq_self.mpr fun e he => decide_eq_true (hothers e he)] at hfilter
  show ((x.clientId, x.home) :: eraseHome s.affinity x.clientId).Perm s.affinity
  exact ((hfilter.cons _).trans hentry).trans h.affinity.symm

theorem Booked.erase (h : Booked topo.numGpus s) (hx : s.sessions[i]? = some x) (hp : x.phase = .erasing) :
    Booked topo.numGpus (eraseStep s i x) := by
  have hcard : x.card = ⟨x.clientId, x.socket, x.home, true, false, true, false⟩ := by
    simp [Session.card, hp, Phase.drawn, Phase.homed, Phase.listed]
  have hc := cards_get_of hx hcard
  have hmem : x.socket ∈ s.clientSockets :=
    h.sockets.mem_iff.mpr (List.mem_flatMap.mpr ⟨_, List.mem_of_getElem? hc, List.mem_singleton_self _⟩)
  refine h.change hc (cards_put _) rfl rfl (fun hcl => absurd hcl Bool.false_ne_true)
    ⟨fun hhomed => absurd hhomed Bool.false_ne_true, fun _ => rfl⟩ rfl rfl (List.Perm.refl _) (Or.inl ⟨rfl, rfl⟩) ?_
  exact (List.perm_cons_erase hmem).symm

theorem Booked.close (h : Booked topo.numGpus s) (hx : s.sessions[i]? = some x) (hp : x.phase = .closing) :
    Booked topo.numGpus (s.put i { x with phase := .closed }) := by
  have hcard : x.card = ⟨x.clientId, x.socket, x.home, true, false, false, false⟩ := by
    simp [Session.card, hp, Phase.drawn, Phase.homed, Phase.listed]
  refine h.change (cards_get_of hx hcard) (cards_put _) rfl rfl (fun _ => rfl) ⟨?_, ?_⟩ rfl rfl (List.Perm.refl _)
    (Or.inl ⟨rfl, rfl⟩) (List.Perm.refl _)
  · exact fun hhomed => absurd hhomed Bool.false_ne_true
  · exact fun hlisted => absurd hlisted Bool.false_ne_true

/-- `place` finds the client's home. -/
theorem Booked.place (h : Booked topo.numGpus s) {request : GpuPayload} (hx : s.sessions[i]? = some x)
    (hp : x.phase = .received request) :
    findHome s.affinity x.clientId = some x.home ∧ x.home < topo.numGpus := by
  have hcard : x.card = ⟨x.clientId, x.socket, x.home, true, true, true, false⟩ := by
    simp [Session.card, hp, Phase.drawn, Phase.homed, Phase.listed]
  have hc := cards_get_of hx hcard
  exact ⟨h.home_found hc, h.home_lt topo.counted.1 (List.mem_of_getElem? hc) rfl⟩

end

section
variable {host : Host} {sub : UInt64 → UInt64 → UInt64} {topo : GpuTopology} {backlogThreshold : Nat} {s s' : St} {e : Ev}

/-- A session goes from one phase with a home to another, and the tables stay as they are. -/
theorem cards_homed {i : Nat} {x x' : Session} (hx : s.sessions[i]? = some x) (hcard : x'.card = x.card) :
    (s.sessions.modify i fun _ => x').map Session.card = s.cards := by
  rw [map_modify_const, hcard]
  exact modify_const_self (cards_get hx)

theorem booked_step (h : Booked topo.numGpus s) (heff : Effect host sub topo backlogThreshold s e s') :
    Booked topo.numGpus s' := by
  cases heff with
  | idle => exact h
  | accepts haccepting hfree hid => exact h.accept haccepting hfree hid
  | exhausts =>
    exact ⟨h.ids, fun haccepting => absurd haccepting Bool.false_ne_true, h.few, h.affinity, h.draws, h.rr, h.order,
      h.sockets, h.distinct⟩
  | turns hx => exact h.same (cards_homed hx (card_turn _ _ _ _)) rfl rfl rfl rfl rfl
  | draws hx hp => exact h.draw hx hp
  | stores hx hp => exact h.store hx hp
  | @places i x request depth hx hp =>
    have hhomed : x.phase.homed = true := by rw [hp]; rfl
    obtain ⟨hfind, hlt⟩ := h.place hx hp
    refine h.same (cards_homed hx (card_of_homed hhomed rfl)) rfl rfl rfl ?_ rfl
    simp only [placeStep, hfind, Option.any_some, hlt, decide_true, if_true]
  | @posts i gpu x request w hx hp hw =>
    have hhomed : x.phase.homed = true := by rw [hp]; rfl
    exact h.same (cards_homed hx (card_of_homed hhomed rfl)) rfl rfl rfl rfl rfl
  | releases hx hp => exact h.release hx hp
  | erases hx hp => exact h.erase hx hp
  | closes hx hp => exact h.close hx hp
  | exits => exact h.same rfl rfl rfl rfl rfl rfl
  | takes => exact h.same rfl rfl rfl rfl rfl rfl
  | fulfils => exact h.same rfl rfl rfl rfl rfl rfl
  | stops => exact h.same rfl rfl rfl rfl rfl rfl
  | shuts =>
    refine h.same ?_ rfl rfl rfl rfl rfl
    rw [St.cards, St.cards, List.map_map]
    refine List.map_congr_left fun x _ => ?_
    simp only [Function.comp_apply]
    split <;> rfl
  | flags => exact h.same rfl rfl rfl rfl rfl rfl

theorem booked_run (es : List Ev) : Booked topo.numGpus (run host sub topo backlogThreshold es) := by
  refine exec_induct (I := fun s : St => Booked topo.numGpus s) ?_ fun pre e _ h => booked_step h (step_effect _ e)
  refine ⟨?_, fun _ => rfl, Nat.zero_le _, List.Perm.refl _, List.Perm.refl _, rfl, ?_, List.Perm.refl _, List.Pairwise.nil⟩
  · intro i c hc
    cases hc
  · intro c hc
    cases hc

end

/-- What `Placer::num_clients` answers. -/
def St.numClients (s : St) : Nat := s.affinity.length

/-- What `active_clients` answers. -/
def St.activeClients (s : St) : Nat := s.clientSockets.length

/-! ## (1) Homes -/

section
variable {s : St}

theorem length_flatMap_card {β : Type} (p : Phase → Bool) (f : Card → List β) (g : Session → β)
    (h : ∀ x : Session, f x.card = if p x.phase then [g x] else []) :
    s.cards.flatMap f = (s.sessions.filter fun x => p x.phase).map g := by
  rw [St.cards, List.flatMap_map]
  induction s.sessions with
  | nil => rfl
  | cons x l ih =>
    rw [List.flatMap_cons, ih, h, List.filter_cons]
    split <;> rfl

theorem Booked.numClients {numGpus : Nat} (h : Booked numGpus s) :
    s.numClients = s.sessions.countP fun x => x.phase.homed := by
  rw [St.numClients, h.affinity.length_eq,
    length_flatMap_card Phase.homed Card.entry (fun x => (x.clientId, x.home)) fun _ => rfl, List.length_map,
    List.countP_eq_length_filter]

theorem Booked.activeClients {numGpus : Nat} (h : Booked numGpus s) :
    s.activeClients = s.sessions.countP fun x => x.phase.listed := by
  rw [St.activeClients, h.sockets.length_eq, length_flatMap_card Phase.listed Card.listing (·.socket) fun _ => rfl,
    List.length_map, List.countP_eq_length_filter]

theorem Booked.clientIds {numGpus : Nat} (h : Booked numGpus s) :
    s.sessions.map (·.clientId) = List.range' 1 s.sessions.length := by
  refine List.ext_getElem (by simp) fun i h1 h2 => ?_
  rw [List.length_map] at h1
  have hid := h.ids i _ (cards_get (List.getElem?_eq_getElem h1))
  rw [List.getElem_map, List.getElem_range']
  exact hid.trans (by omega)

end

/-- The ids are 1, 2, 3 and so on. `affinity_` has the homes of exactly the sessions between
    `assign_home` and `release_client`. The homes drawn so far are 0, 1, 2 and so on modulo
    the number of GPUs, in some order, and nobody else has drawn. -/
theorem affinity_exact (host : Host) (sub : UInt64 → UInt64 → UInt64) (topo : GpuTopology)
    (backlogThreshold : Nat) (es : List Ev) :
    let s := run host sub topo backlogThreshold es
    let drawn := s.sessions.filter fun x => x.phase.drawn
    s.sessions.map (·.clientId) = List.range' 1 s.sessions.length ∧
      s.numClients = s.sessions.countP (fun x => x.phase.homed) ∧
      (∀ x ∈ s.sessions, findHome s.affinity x.clientId = if x.phase.homed then some x.home else none) ∧
      (drawn.map (·.home)).Perm ((List.range drawn.length).map (· % topo.numGpus)) ∧
      s.rrCounter = UInt64.ofNat drawn.length := by
  intro s drawn
  have h : Booked topo.numGpus s := booked_run es
  have hdrawn : s.cards.flatMap Card.draws = drawn.map (·.home) :=
    length_flatMap_card Phase.drawn Card.draws (·.home) fun _ => rfl
  refine ⟨h.clientIds, h.numClients, ?_, ?_, ?_⟩
  · intro x hx
    obtain ⟨i, hi⟩ := List.mem_iff_getElem?.mp hx
    exact h.home_found (cards_get hi)
  · have hdraws := h.draws
    rw [hdrawn, List.length_map] at hdraws
    exact hdraws
  · have hrr := h.rr
    rw [hdrawn, List.length_map] at hrr
    exact hrr

/-! ## (2) Sockets -/

theorem Booked.nodup_sockets {numGpus : Nat} {s : St} (h : Booked numGpus s) : s.clientSockets.Nodup := by
  refine h.sockets.nodup_iff.mpr (List.nodup_flatMap.mpr ⟨?_, ?_⟩)
  · intro c _
    unfold Card.listing
    split
    next => exact List.nodup_singleton _
    next => exact List.nodup_nil
  · refine List.Pairwise.imp_of_mem ?_ h.distinct
    intro c d hc hd hne socket hsocket hsocket'
    unfold Card.listing at hsocket hsocket'
    split at hsocket
    next hlisted =>
      split at hsocket'
      next hlisted' =>
        cases List.mem_singleton.mp hsocket
        exact hne ((h.order c hc).2 hlisted) ((h.order d hd).2 hlisted') (List.mem_singleton.mp hsocket')
      next => cases hsocket'
    next => cases hsocket

theorem Booked.mem_sockets {numGpus : Nat} {s : St} (h : Booked numGpus s) (socket : Nat) :
    socket ∈ s.clientSockets ↔ ∃ x ∈ s.sessions, x.phase.listed = true ∧ x.socket = socket := by
  rw [h.sockets.mem_iff, length_flatMap_card Phase.listed Card.listing (·.socket) fun _ => rfl, List.mem_map]
  simp only [List.mem_filter, and_assoc]

theorem Booked.distinct_sockets {numGpus : Nat} {s : St} (h : Booked numGpus s) :
    s.sessions.Pairwise fun x y => x.phase ≠ .closed → y.phase ≠ .closed → x.socket ≠ y.socket := by
  refine (List.pairwise_map.mp h.distinct).imp ?_
  intro x y hxy hx hy
  exact hxy (decide_eq_false hx) (decide_eq_false hy)

theorem Phase.ne_closed_of_listed {p : Phase} (h : p.listed = true) : p ≠ .closed := by
  rintro rfl
  cases h

/-- `client_sockets_` has the sockets of exactly the sessions that have not erased theirs,
    each once. What `stop()` shuts down is open, and no two sessions have one socket open. -/
theorem sockets_exact (host : Host) (sub : UInt64 → UInt64 → UInt64) (topo : GpuTopology)
    (backlogThreshold : Nat) (es : List Ev) :
    let s := run host sub topo backlogThreshold es
    s.activeClients = s.sessions.countP (fun x => x.phase.listed) ∧
      s.clientSockets.Nodup ∧
      (∀ socket, socket ∈ s.clientSockets ↔ ∃ x ∈ s.sessions, x.phase.listed = true ∧ x.socket = socket) ∧
      (∀ socket ∈ s.clientSockets, s.isOpen socket = true) ∧
      s.sessions.Pairwise fun x y => x.phase ≠ .closed → y.phase ≠ .closed → x.socket ≠ y.socket := by
  intro s
  have h : Booked topo.numGpus s := booked_run es
  refine ⟨h.activeClients, h.nodup_sockets, h.mem_sockets, ?_, h.distinct_sockets⟩
  intro socket hsocket
  obtain ⟨x, hx, hlisted, rfl⟩ := (h.mem_sockets socket).mp hsocket
  exact List.any_eq_true.mpr ⟨x, hx, decide_eq_true ⟨rfl, Phase.ne_closed_of_listed hlisted⟩⟩

/-! ## (3) Stopping -/

def Phase.reading : Phase → Bool
  | .readLen _ | .readBody _ => true
  | _ => false

/-- The server is stopped, and whoever reads has its socket shut down. -/
def ReadersShut (s : St) : Prop := s.running = false ∧ ∀ x ∈ s.sessions, x.phase.reading = true → x.shut = true

section
variable {host : Host} {sub : UInt64 → UInt64 → UInt64} {topo : GpuTopology} {backlogThreshold : Nat} {s s' : St} {e : Ev}

theorem shut_turn (running : Bool) (kept : Nat → Option (Computed GpuPayload)) (x : Session) (t : Turn) :
    (turn host sub running kept x t).shut = x.shut := by
  cases t with
  | check =>
    simp only [turn]
    split <;> rfl
  | recv w =>
    simp only [turn, recvTurn, readExact, gotLength, gotBody]
    repeat' split
    all_goals rfl
  | get now =>
    simp only [turn, getTurn, startPacket]
    repeat' split
    all_goals rfl
  | send n =>
    simp only [turn, sendTurn]
    repeat' split
    all_goals rfl
  | next now =>
    simp only [turn]
    split
    next y type hp =>
      cases type with
      | delta => rfl
      | primary =>
        simp only [nextTurn, startPacket]
        repeat' split
        all_goals rfl
    next => rfl

/-- A session begins to read only while the server runs. -/
theorem reading_turn {running : Bool} {kept : Nat → Option (Computed GpuPayload)} {x : Session} {t : Turn}
    (h : (turn host sub running kept x t).phase.reading = true) : x.phase.reading = true ∨ running = true := by
  cases running with
  | true => exact Or.inr rfl
  | false =>
    refine Or.inl ?_
    cases t with
    | check =>
      simp only [turn] at h
      split at h
      next => cases h
      next => exact h
    | recv w =>
      simp only [turn, recvTurn] at h
      split at h
      next hp => rw [hp]; rfl
      next hp => rw [hp]; rfl
      next => exact h
    | get now =>
      simp only [turn, getTurn, startPacket] at h
      repeat' split at h
      all_goals first | exact h | cases h
    | send n =>
      simp only [turn, sendTurn] at h
      repeat' split at h
      all_goals first | exact h | cases h
    | next now =>
      simp only [turn] at h
      split at h
      next y type hp =>
        cases type with
        | delta => cases h
        | primary =>
          simp only [nextTurn, startPacket] at h
          repeat' split at h
          all_goals cases h
      next => exact h

theorem readersShut_step (h : ReadersShut s) (heff : Effect host sub topo backlogThreshold s e s') :
    ReadersShut s' := by
  obtain ⟨hstopped, hshut⟩ := h
  -- a session that moves to a phase where it does not read
  have hput : ∀ (i : Nat) (x' : Session), x'.phase.reading = false →
      ∀ y ∈ s.sessions.modify i fun _ => x', y.phase.reading = true → y.shut = true := by
    intro i x' hx'
    refine forall_mem_modify hshut fun _ _ hreading => ?_
    rw [hx'] at hreading
    cases hreading
  cases heff with
  | idle => exact ⟨hstopped, hshut⟩
  | accepts =>
    refine ⟨hstopped, ?_⟩
    intro x hx hreading
    rcases List.mem_append.mp hx with hx | hx
    · exact hshut x hx hreading
    · cases List.mem_singleton.mp hx
      cases hreading
  | exhausts => exact ⟨hstopped, hshut⟩
  | turns hx =>
    refine ⟨hstopped, forall_mem_modify hshut fun _ _ hreading => ?_⟩
    rw [shut_turn]
    rcases reading_turn hreading with hreading | hrunning
    · exact hshut _ (List.mem_of_getElem? hx) hreading
    · rw [hstopped] at hrunning
      cases hrunning
  | draws => exact ⟨hstopped, hput _ _ rfl⟩
  | stores => exact ⟨hstopped, hput _ _ rfl⟩
  | places => exact ⟨hstopped, hput _ _ rfl⟩
  | posts => exact ⟨hstopped, hput _ _ rfl⟩
  | releases => exact ⟨hstopped, hput _ _ rfl⟩
  | erases => exact ⟨hstopped, hput _ _ rfl⟩
  | closes => exact ⟨hstopped, hput _ _ rfl⟩
  | exits => exact ⟨hstopped, hshut⟩
  | takes => exact ⟨hstopped, hshut⟩
  | fulfils => exact ⟨hstopped, hshut⟩
  | stops => exact ⟨rfl, hshut⟩
  | shuts =>
    refine ⟨hstopped, ?_⟩
    intro y hy
    obtain ⟨x, hx, rfl⟩ := List.mem_map.mp hy
    split
    next => exact fun _ => rfl
    next => exact hshut x hx
  | flags => exact ⟨hstopped, hshut⟩

/-- Once the sockets have been gone over, nobody reads who was not reached: a reader is in
    the set. -/
theorem readersShut_shutAll (h : Booked topo.numGpus s) (hstopped : s.running = false) :
    ReadersShut (step host sub topo backlogThreshold s .shutAll) := by
  simp only [step, hstopped, Bool.false_eq_true, if_false]
  refine ⟨rfl, ?_⟩
  intro y hy
  obtain ⟨x, hx, rfl⟩ := List.mem_map.mp hy
  split
  next => exact fun _ => rfl
  next hout =>
    intro hreading
    have hlisted : x.phase.listed = true := by
      cases hp : x.phase <;> simp_all [Phase.reading, Phase.listed]
    exact absurd ⟨(h.mem_sockets _).mpr ⟨x, hx, hlisted, rfl⟩, Phase.ne_closed_of_listed hlisted⟩ hout

theorem running_step (h : s.running = false) (heff : Effect host sub topo backlogThreshold s e s') :
    s'.running = false := by
  cases heff <;> first | exact h | rfl

/-- The server is stopped, and of the sessions from the `n`-th on none reads. -/
def LateSilent (n : Nat) (s : St) : Prop :=
  s.running = false ∧ ∀ (i : Nat) (x : Session), n ≤ i → s.sessions[i]? = some x → x.phase.reading = false

theorem lateSilent_step {n : Nat} (h : LateSilent n s) (heff : Effect host sub topo backlogThreshold s e s') :
    LateSilent n s' := by
  refine ⟨running_step h.1 heff, ?_⟩
  obtain ⟨hstopped, hsilent⟩ := h
  have hput : ∀ (j : Nat) (x' : Session), (n ≤ j → x'.phase.reading = false) → ∀ (i : Nat) (x : Session), n ≤ i →
      (s.sessions.modify j fun _ => x')[i]? = some x → x.phase.reading = false := by
    intro j x' hx' i x hi hx
    rcases modify_get hx with ⟨a, rfl, -, rfl⟩ | ⟨-, hold⟩
    · exact hx' hi
    · exact hsilent i x hi hold
  cases heff with
  | idle => exact hsilent
  | accepts =>
    intro i x hi hx
    rcases concat_get hx with hx | rfl
    · exact hsilent i x hi hx
    · rfl
  | exhausts => exact hsilent
  | @turns j y t hy =>
    refine hput j _ fun hj => Bool.eq_false_iff.mpr fun hreading => ?_
    rcases reading_turn hreading with hreading | hrunning
    · rw [hsilent j y hj hy] at hreading
      cases hreading
    · rw [hstopped] at hrunning
      cases hrunning
  | draws => exact hput _ _ fun _ => rfl
  | stores => exact hput _ _ fun _ => rfl
  | places => exact hput _ _ fun _ => rfl
  | posts => exact hput _ _ fun _ => rfl
  | releases => exact hput _ _ fun _ => rfl
  | erases => exact hput _ _ fun _ => rfl
  | closes => exact hput _ _ fun _ => rfl
  | exits => exact hsilent
  | takes => exact hsilent
  | fulfils => exact hsilent
  | stops => exact hsilent
  | shuts =>
    intro i x hi hx
    rw [List.getElem?_map] at hx
    obtain ⟨y, hy, rfl⟩ := Option.map_eq_some_iff.mp hx
    have hyreads := hsilent i y hi hy
    split
    next => exact hyreads
    next => exact hyreads
  | flags => exact hsilent

end

/-- Whatever happens between and after them: once `stop()` has cleared `running_` and gone
    over the client sockets, every session that is reading has had its socket shut down; and
    a session accepted after `running_` was cleared is never one that reads. -/
theorem stop_reaches_readers (host : Host) (sub : UInt64 → UInt64 → UInt64) (topo : GpuTopology) (backlogThreshold : Nat)
    (before between after : List Ev) :
    (∀ x ∈ (run host sub topo backlogThreshold (before ++ [.stop] ++ between ++ [.shutAll] ++ after)).sessions,
      x.phase.reading = true → x.shut = true) ∧
    ∀ (later : List Ev) (i : Nat) (x : Session), (run host sub topo backlogThreshold before).sessions.length ≤ i →
      (run host sub topo backlogThreshold (before ++ [.stop] ++ later)).sessions[i]? = some x →
      x.phase.reading = false := by
  have hstopped : (run host sub topo backlogThreshold (before ++ [.stop] ++ between)).running = false := by
    rw [run, exec_append]
    refine exec_induct (I := fun s : St => s.running = false) ?_ fun pre e _ h => running_step h (step_effect _ e)
    rw [exec_concat]
    rfl
  have hshut : ReadersShut (run host sub topo backlogThreshold (before ++ [.stop] ++ between ++ [.shutAll] ++ after)) := by
    rw [run, exec_append]
    refine exec_induct (I := fun s : St => ReadersShut s) ?_ fun pre e _ h => readersShut_step h (step_effect _ e)
    rw [exec_concat]
    exact readersShut_shutAll (booked_run _) hstopped
  refine ⟨hshut.2, ?_⟩
  intro later
  have hlate : LateSilent (run host sub topo backlogThreshold before).sessions.length
      (run host sub topo backlogThreshold (before ++ [.stop] ++ later)) := by
    unfold run
    rw [exec_append]
    refine exec_induct (I := fun s : St => LateSilent _ s) ?_ fun pre e _ h => lateSilent_step h (step_effect _ e)
    rw [exec_concat]
    -- at the stop there is none
    refine ⟨rfl, fun i x hi hx => ?_⟩
    exact absurd (List.getElem?_eq_some_iff.mp hx).1 (Nat.not_lt.mpr hi)
  exact hlate.2

/-- A client that has begun to read, and one that is accepted while the server stops. -/
def readThenStop : List Ev := [.accept 4, .session 0 .draw, .session 0 .store, .session 0 (.turn .check)]

/-- What the second does before the sockets are gone over, and after. -/
def lateClient : List Ev := [.accept 5, .session 1 .draw, .session 1 .store]

def lateCheck : List Ev := [.session 1 (.turn .check)]

theorem stop_reaches_readers_readThenStop :
    ∃ x y, (run .little (fun a _ => a) oneGpu 32
        (readThenStop ++ [.stop] ++ lateClient ++ [.shutAll] ++ lateCheck)).sessions = [x, y] ∧
      (x.phase.reading = true ∧ x.shut = true) ∧ y.phase.reading = false := by
  have hend : (run .little (fun a _ => a) oneGpu 32
      (readThenStop ++ [.stop] ++ lateClient ++ [.shutAll] ++ lateCheck)).sessions.map (·.phase.reading) = [true, false] := by
    decide +kernel
  obtain ⟨hreaders, hlate⟩ := stop_reaches_readers .little (fun a _ => a) oneGpu 32 readThenStop lateClient lateCheck
  obtain ⟨x, rest, hsessions, hx, hrest⟩ := List.map_eq_cons_iff.mp hend
  obtain ⟨y, rest', hrest', -, hnil⟩ := List.map_eq_cons_iff.mp hrest
  rw [hrest', List.map_eq_nil_iff.mp hnil] at hsessions
  refine ⟨x, y, hsessions, ⟨hx, hreaders x (by rw [hsessions]; simp) hx⟩, ?_⟩
  refine hlate (lateClient ++ [.shutAll] ++ lateCheck) 1 y (by decide +kernel) ?_
  rw [← List.append_assoc, ← List.append_assoc, hsessions]
  rfl

/-! ## (4) Tasks -/

/-- The promise a session waits for, while it is not kept. -/
def Phase.awaits (kept : Nat → Option (Computed GpuPayload)) : Phase → List Nat
  | .waiting _ _ promise => if (kept promise).isNone then [promise] else []
  | _ => []

def WorkerState.promises (w : WorkerState) : List Nat := w.tasks.map (·.promise)

/-- The promises of the tasks with the workers. -/
def St.tasks (s : St) : List Nat := s.gpus.flatMap WorkerState.promises

def St.awaited (s : St) : List Nat := s.sessions.flatMap fun x => x.phase.awaits s.kept

structure Accounted (s : St) : Prop where
  tasks : s.tasks.Perm s.awaited
  nodup : s.tasks.Nodup
  known : ∀ promise ∈ s.tasks, promise < s.posted.length
  fresh : ∀ promise, s.posted.length ≤ promise → s.kept promise = none

section
variable {host : Host} {sub : UInt64 → UInt64 → UInt64} {topo : GpuTopology} {backlogThreshold : Nat} {s s' : St} {e : Ev} {i gpu : Nat} {x x' : Session} {w w' : WorkerState}

theorem awaits_startPacket {kept : Nat → Option (Computed GpuPayload)} {y : Exchange} {type : PacketType} {now : UInt64}
    {payload : GpuPayload} : (startPacket host x y type now payload).phase.awaits kept = [] := by
  unfold startPacket
  split <;> rfl

/-- No turn takes up a promise, and only one that is kept is let go. -/
theorem awaits_turn (running : Bool) (kept : Nat → Option (Computed GpuPayload)) (x : Session) (t : Turn) :
    (turn host sub running kept x t).phase.awaits kept = x.phase.awaits kept := by
  cases t with
  | check =>
    simp only [turn]
    split
    next hp =>
      rw [hp]
      cases running <;> rfl
    next => rfl
  | recv w =>
    simp only [turn, recvTurn]
    split
    next hp =>
      simp only [readExact, gotLength, hp]
      repeat' split
      all_goals rfl
    next hp =>
      simp only [readExact, gotBody, hp]
      repeat' split
      all_goals rfl
    next => rfl
  | get now =>
    simp only [turn]
    split
    next request gpu promise hp =>
      split
      next => rfl
      next outcome houtcome =>
        have hkept : x.phase.awaits kept = [] := by simp [hp, Phase.awaits, houtcome]
        rw [hkept]
        cases outcome with
        | returned current => exact awaits_startPacket
        | threw what => rfl
        | escaped => rfl
    next => rfl
  | send n =>
    simp only [turn]
    split
    next hp =>
      simp only [sendTurn, hp]
      repeat' split
      all_goals rfl
    next => rfl
  | next now =>
    simp only [turn]
    split
    next y type hp =>
      rw [hp]
      cases type with
      | delta => rfl
      | primary =>
        simp only [nextTurn]
        split
        next => rfl
        next =>
          split
          next => rfl
          next => exact awaits_startPacket
    next => rfl

/-- A session moves that neither takes up nor lets go a promise. -/
theorem Accounted.moves (h : Accounted s) (hx : s.sessions[i]? = some x) (hgpus : s'.gpus = s.gpus)
    (hkept : s'.kept = s.kept) (hposted : s'.posted = s.posted)
    (hsessions : s'.sessions = s.sessions.modify i fun _ => x')
    (hawaits : x'.phase.awaits s.kept = x.phase.awaits s.kept) : Accounted s' := by
  have htasks : s'.tasks = s.tasks := by rw [St.tasks, hgpus]; rfl
  have hawaited : s'.awaited = s.awaited := by
    rw [St.awaited, hsessions, hkept]
    exact flatMap_modify_const hx hawaits
  refine ⟨?_, ?_, ?_, ?_⟩
  · rw [htasks, hawaited]
    exact h.tasks
  · rw [htasks]
    exact h.nodup
  · rw [htasks, hposted]
    exact h.known
  · rw [hposted, hkept]
    exact h.fresh

/-- A worker moves and keeps its tasks. -/
theorem Accounted.worker (h : Accounted s) (hw : s.gpus[gpu]? = some w) (htasks : w'.tasks = w.tasks) :
    Accounted (s.gpu gpu w') := by
  have hsame : (s.gpu gpu w').tasks = s.tasks :=
    flatMap_modify_const hw (by rw [WorkerState.promises, htasks]; rfl)
  refine ⟨?_, ?_, ?_, h.fresh⟩ <;> rw [hsame]
  · exact h.tasks
  · exact h.nodup
  · exact h.known

theorem Accounted.enqueue {request : GpuPayload} (h : Accounted s) (hx : s.sessions[i]? = some x)
    (hp : x.phase = .placed request gpu) (hw : s.gpus[gpu]? = some w) :
    Accounted (enqueueStep s i x request gpu w) := by
  have hnew := h.fresh s.posted.length (Nat.le_refl _)
  have hlast : ({ w with queue := w.queue ++ [⟨s.posted.length, request⟩] } : WorkerState).tasks =
      w.tasks ++ [⟨s.posted.length, request⟩] := by
    cases hworker : w.worker <;> simp [WorkerState.tasks, hworker]
  have htasks : (enqueueStep s i x request gpu w).tasks.Perm (s.posted.length :: s.tasks) := by
    have hperm := flatMap_modify_perm (g := WorkerState.promises)
      (fun _ => { w with queue := w.queue ++ [⟨s.posted.length, request⟩] }) hw
    rw [WorkerState.promises, WorkerState.promises, hlast, List.map_append, List.append_assoc] at hperm
    exact (List.perm_append_left_iff _).mp hperm
  have hawaited : (enqueueStep s i x request gpu w).awaited.Perm (s.posted.length :: s.awaited) := by
    have hperm := flatMap_modify_perm (g := fun y : Session => y.phase.awaits s.kept)
      (fun _ => { x with phase := .waiting request gpu s.posted.length }) hx
    simp only [hp, Phase.awaits, hnew, Option.isNone_none, if_true, List.nil_append, List.singleton_append] at hperm
    exact hperm
  have hlength : (enqueueStep s i x request gpu w).posted.length = s.posted.length + 1 := by
    simp [enqueueStep, St.put, St.gpu]
  refine ⟨?_, ?_, ?_, ?_⟩
  · exact htasks.trans ((h.tasks.cons _).trans hawaited.symm)
  · refine htasks.nodup_iff.mpr (List.nodup_cons.mpr ⟨?_, h.nodup⟩)
    intro hmem
    have := h.known _ hmem
    omega
  · intro promise hpromise
    rw [hlength]
    rcases List.mem_cons.mp (htasks.mem_iff.mp hpromise) with rfl | hold
    · omega
    · have := h.known promise hold
      omega
  · intro promise hpromise
    rw [hlength] at hpromise
    exact h.fresh promise (by omega)

/-- Whoever waited for the promise does so no longer. -/
theorem awaits_update (kept : Nat → Option (Computed GpuPayload)) (promise : Nat) (outcome : Computed GpuPayload)
    (p : Phase) : p.awaits (Function.update kept promise (some outcome)) = (p.awaits kept).filter (· ≠ promise) := by
  cases p with
  | waiting request gpu q =>
    by_cases hq : q = promise
    · subst hq
      simp only [Phase.awaits, Function.update_self, Option.isNone_some, Bool.false_eq_true, if_false]
      split <;> simp
    · simp only [Phase.awaits, Function.update_of_ne hq]
      split <;> simp [hq]
  | _ => rfl

theorem Accounted.fulfil {task : GpuTask} (h : Accounted s) (hw : s.gpus[gpu]? = some w)
    (htask : w.worker = .computing task) (outcome : Computed GpuPayload) :
    Accounted { s.gpu gpu { w with worker := .idle } with kept := Function.update s.kept task.promise (some outcome) } := by
  have hheld : w.promises = task.promise :: w.queue.map (·.promise) := by
    simp only [WorkerState.promises, WorkerState.tasks, htask, List.map_cons]
  have htasks : (task.promise :: (s.gpu gpu { w with worker := .idle }).tasks).Perm s.tasks := by
    have hperm := flatMap_modify_perm (g := WorkerState.promises) (fun _ => { w with worker := .idle }) hw
    have hidle : ({ w with worker := .idle } : WorkerState).promises = w.queue.map (·.promise) := rfl
    rw [hheld, hidle, List.cons_append] at hperm
    have hcomm : (task.promise :: (w.queue.map (·.promise) ++ (s.gpu gpu { w with worker := .idle }).tasks)).Perm
        (w.queue.map (·.promise) ++ (task.promise :: (s.gpu gpu { w with worker := .idle }).tasks)) :=
      List.perm_middle.symm
    exact (List.perm_append_left_iff _).mp (hcomm.symm.trans hperm)
  have hnodup := htasks.nodup_iff.mpr h.nodup
  obtain ⟨hgone, hrest⟩ := List.nodup_cons.mp hnodup
  refine ⟨?_, hrest, ?_, ?_⟩
  · show (s.gpu gpu { w with worker := .idle }).tasks.Perm (s.sessions.flatMap fun x =>
      x.phase.awaits (Function.update s.kept task.promise (some outcome)))
    have hfilter := (htasks.trans h.tasks).filter (· ≠ task.promise)
    rw [List.filter_cons_of_neg (by simp), List.filter_eq_self.mpr, St.awaited, List.filter_flatMap] at hfilter
    · simp only [awaits_update]
      exact hfilter
    · intro promise hpromise
      exact decide_eq_true fun heq => hgone (heq ▸ hpromise)
  · intro promise hpromise
    exact h.known promise (htasks.mem_iff.mp (List.mem_cons_of_mem _ hpromise))
  · intro promise hpromise
    have hknown := h.known task.promise (htasks.mem_iff.mp List.mem_cons_self)
    have hne : promise ≠ task.promise := by
      rintro rfl
      exact absurd hknown (Nat.not_lt.mpr hpromise)
    exact (Function.update_of_ne hne _ _).trans (h.fresh promise hpromise)

theorem accounted_step (h : Accounted s) (heff : Effect host sub topo backlogThreshold s e s') : Accounted s' := by
  -- a session moves from one phase where it waits for nothing to another
  have hmoves : ∀ {s' : St} {i : Nat} {x x' : Session}, s.sessions[i]? = some x → s'.gpus = s.gpus → s'.kept = s.kept →
      s'.posted = s.posted → s'.sessions = s.sessions.modify i (fun _ => x') → x.phase.awaits s.kept = [] →
      x'.phase.awaits s.kept = [] → Accounted s' := by
    intro s' i x x' hx hgpus hkept hposted hsessions hbefore hafter
    exact h.moves hx hgpus hkept hposted hsessions (hafter.trans hbefore.symm)
  cases heff with
  | idle => exact h
  | accepts =>
    refine ⟨?_, h.nodup, h.known, h.fresh⟩
    show s.tasks.Perm ((s.sessions ++ [_]).flatMap _)
    rw [List.flatMap_append]
    exact h.tasks.trans (by simp [St.awaited, Phase.awaits])
  | exhausts => exact ⟨h.tasks, h.nodup, h.known, h.fresh⟩
  | turns hx => exact h.moves hx rfl rfl rfl rfl (awaits_turn _ _ _ _)
  | draws hx hp => exact hmoves hx rfl rfl rfl rfl (by rw [hp]; rfl) rfl
  | stores hx hp => exact hmoves hx rfl rfl rfl rfl (by rw [hp]; rfl) rfl
  | places hx hp => exact hmoves hx rfl rfl rfl rfl (by rw [hp]; rfl) rfl
  | posts hx hp hw => exact h.enqueue hx hp hw
  | releases hx hp => exact hmoves hx rfl rfl rfl rfl (by rw [hp]; rfl) rfl
  | erases hx hp => exact hmoves hx rfl rfl rfl rfl (by rw [hp]; rfl) rfl
  | closes hx hp => exact hmoves hx rfl rfl rfl rfl (by rw [hp]; rfl) rfl
  | exits hw hidle => exact h.worker hw (by simp [WorkerState.tasks, hidle])
  | takes hw hidle hq => exact h.worker hw (by simp [WorkerState.tasks, hidle, hq])
  | fulfils hw htask => exact h.fulfil hw htask _
  | stops => exact ⟨h.tasks, h.nodup, h.known, h.fresh⟩
  | shuts =>
    refine ⟨?_, h.nodup, h.known, h.fresh⟩
    have hsame : ∀ x : Session, (if x.socket ∈ s.clientSockets ∧ x.phase ≠ .closed then { x with shut := true } else
        x).phase.awaits s.kept = x.phase.awaits s.kept := by
      intro x
      split <;> rfl
    show s.tasks.Perm ((s.sessions.map _).flatMap _)
    rw [List.flatMap_map]
    simp only [hsame]
    exact h.tasks
  | flags hw => exact h.worker hw rfl

theorem accounted_run (es : List Ev) : Accounted (run host sub topo backlogThreshold es) := by
  refine exec_induct (I := fun s : St => Accounted s) ?_ fun pre e _ h => accounted_step h (step_effect _ e)
  have hnone : (init topo).tasks = [] := by
    refine List.flatMap_eq_nil_iff.mpr fun w hw => ?_
    rw [List.eq_of_mem_replicate hw]
    rfl
  refine ⟨?_, ?_, ?_, fun _ _ => rfl⟩ <;> rw [hnone]
  · exact List.Perm.refl _
  · exact List.nodup_nil
  · intro promise hpromise
    cases hpromise

/-- Whoever waits is in `client_sockets_`. -/
theorem length_awaited_le (s : St) : s.awaited.length ≤ s.sessions.countP fun x => x.phase.listed := by
  have hle := sum_map_le_countP_mul (l := s.sessions) (p := fun x => x.phase.listed)
    (g := fun x => (x.phase.awaits s.kept).length) (b := 1) ?_ ?_
  · rw [St.awaited, List.length_flatMap]
    rw [Nat.mul_one] at hle
    exact hle
  · intro x _
    cases x.phase with
    | waiting request gpu promise =>
      simp only [Phase.awaits]
      split
      next => exact Nat.le_refl _
      next => exact Nat.zero_le _
    | _ => exact Nat.zero_le _
  · intro x _ hgone
    cases hp : x.phase <;> simp_all [Phase.awaits, Phase.listed]

end

/-- The tasks on the queues and in the workers' hands are those of the sessions that wait for
    a promise nobody has kept, each once. So there are never more tasks than active clients,
    and no queue is longer than that. -/
theorem tasks_exact (host : Host) (sub : UInt64 → UInt64 → UInt64) (topo : GpuTopology)
    (backlogThreshold : Nat) (es : List Ev) :
    let s := run host sub topo backlogThreshold es
    s.tasks.Perm s.awaited ∧ s.tasks.Nodup ∧ s.tasks.length ≤ s.activeClients ∧
      ∀ w ∈ s.gpus, w.queue.length ≤ s.activeClients := by
  intro s
  have h : Accounted s := accounted_run es
  have hle : s.tasks.length ≤ s.activeClients := by
    have hactive : s.activeClients = _ := (booked_run es).activeClients
    rw [h.tasks.length_eq, hactive]
    exact length_awaited_le s
  refine ⟨h.tasks, h.nodup, hle, ?_⟩
  intro w hw
  have hqueue : w.queue.length ≤ w.promises.length := by
    cases hworker : w.worker <;> simp [WorkerState.promises, WorkerState.tasks, hworker]
  have hpart : w.promises.length ≤ s.tasks.length := by
    rw [St.tasks, List.length_flatMap]
    exact List.le_sum_of_mem (List.mem_map_of_mem hw)
  omega

end Overhauled.Adi.Sessions
