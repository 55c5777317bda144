import DeskSync.Signaling.Connection

/-!
# The representation invariant of the hub

`Represents` is what holds of the map and the peers between any two sections. Every section keeps it
(`represents_exec`), `close` under the condition that its peer is out of the map: `Gone`, which is what
`Leave` establishes and no section undoes.
-/

namespace DeskSync.Signaling

variable {Raw : Type} {s : Store Raw}

structure Represents (s : Store Raw) : Prop where
  occupied : ∀ sessionID, s.rooms sessionID ≠ none → ∃ role p, s.registered sessionID role = some p
  keys : ∀ sessionID role p, s.registered sessionID role = some p →
    p.sessionID = sessionID ∧ p.role = role
  bound : ∀ sessionID role p, s.registered sessionID role = some p → p.id < s.peers.length
  unique : ∀ sessionID role p sessionID' role' p', s.registered sessionID role = some p →
    s.registered sessionID' role' = some p' → p.id = p'.id → p = p'
  opened : ∀ sessionID role p, s.registered sessionID role = some p →
    ∀ st, s.peers[p.id]? = some st → st.closed = false
  queues : ∀ st ∈ s.peers, st.out.isClosed = st.closed
  calm : s.panicked = false

/-- The peer has been in the map and is no longer. -/
def Gone (s : Store Raw) (q : Peer) : Prop :=
  q.id < s.peers.length ∧ ∀ sessionID role p, s.registered sessionID role = some p → p.id ≠ q.id

/-- The peer is closed. -/
def Shut (s : Store Raw) (q : Peer) : Prop := ∃ st, s.peers[q.id]? = some st ∧ st.closed = true

theorem represents_empty : Represents ({} : Store Raw) := by
  constructor <;> simp [Store.registered]

/-! ### The map -/

theorem registered_update (rooms : String → Option Room) (peers : List (PeerState Raw)) (b : Bool)
    (sessionID : String) (room : Option Room) (sessionID' : String) (role : Role) :
    Store.registered ⟨Function.update rooms sessionID room, peers, b⟩ sessionID' role =
      if sessionID' = sessionID then room.bind (· role) else (rooms sessionID').bind (· role) := by
  unfold Store.registered
  dsimp only
  rw [Function.update_apply]
  split_ifs <;> rfl

/-- A room that is not there is an empty one. -/
theorem getD_room (s : Store Raw) (sessionID : String) (role : Role) :
    (s.rooms sessionID).getD Room.empty role = s.registered sessionID role := by
  unfold Store.registered
  cases s.rooms sessionID <;> rfl

/-- `Join` adds a fresh peer, or leaves the map as it is. -/
theorem join_cases (s : Store Raw) (sessionID : String) (role : Role) :
    ((s.join sessionID role).1 = none ∧ (s.join sessionID role).2.peers = s.peers ∧
      s.registered sessionID role ≠ none ∧ (∀ sessionID' role', (s.join sessionID role).2.registered sessionID' role' =
        s.registered sessionID' role')) ∨
    ((s.join sessionID role).1 =
        some (⟨s.peers.length, sessionID, role⟩, s.registered sessionID role.other) ∧
      (s.join sessionID role).2.peers = s.peers ++ [({} : PeerState Raw)] ∧
      (∀ sessionID' role', (s.join sessionID role).2.registered sessionID' role' =
        if sessionID' = sessionID ∧ role' = role then some ⟨s.peers.length, sessionID, role⟩
        else s.registered sessionID' role')) := by
  unfold Store.join
  dsimp only
  by_cases htaken : ((s.rooms sessionID).getD Room.empty role).isSome
  · rw [if_pos htaken]
    refine .inl ⟨rfl, rfl, ?_, fun sessionID' role' => ?_⟩
    · rw [← getD_room]
      exact Option.isSome_iff_ne_none.1 htaken
    rw [registered_update]
    split_ifs with heq
    · subst heq
      exact getD_room s sessionID' role'
    · rfl
  · rw [if_neg htaken]
    refine .inr ⟨?_, rfl, fun sessionID' role' => ?_⟩
    · rw [getD_room]
    · rw [registered_update]
      by_cases heq : sessionID' = sessionID
      · subst heq
        rw [if_pos rfl, Option.bind_some, Function.update_apply]
        simp only [true_and]
        split_ifs
        · rfl
        · exact getD_room s sessionID' role'
      · rw [if_neg heq, if_neg fun h => heq h.1]
        rfl

/-- A `Join` that is let in. -/
theorem join_some {s : Store Raw} {sessionID : String} {role : Role} {p : Peer} {other : Option Peer}
    (h : (s.join sessionID role).1 = some (p, other)) :
    p = ⟨s.peers.length, sessionID, role⟩ ∧ other = s.registered sessionID role.other ∧
      (s.join sessionID role).2.peers = s.peers ++ [({} : PeerState Raw)] ∧
      (∀ sessionID' role', (s.join sessionID role).2.registered sessionID' role' =
        if sessionID' = sessionID ∧ role' = role then some p else s.registered sessionID' role') := by
  rcases join_cases s sessionID role with ⟨hnone, -⟩ | ⟨hsome, hpeers, hreg⟩
  · rw [hnone] at h
    cases h
  · obtain ⟨rfl, rfl⟩ := Prod.mk.inj (Option.some.inj (hsome.symm.trans h))
    exact ⟨rfl, rfl, hpeers, hreg⟩

/-- A `Join` that is refused. -/
theorem join_none {s : Store Raw} {sessionID : String} {role : Role} (h : (s.join sessionID role).1 = none) :
    (s.join sessionID role).2.peers = s.peers ∧ ∀ sessionID' role',
      (s.join sessionID role).2.registered sessionID' role' = s.registered sessionID' role' := by
  rcases join_cases s sessionID role with ⟨-, hpeers, -, hreg⟩ | ⟨hsome, -⟩
  · exact ⟨hpeers, hreg⟩
  · rw [hsome] at h
    cases h

theorem join_rooms (s : Store Raw) {sessionID sessionID' : String} (role : Role)
    (h : sessionID' ≠ sessionID) : (s.join sessionID role).2.rooms sessionID' = s.rooms sessionID' := by
  unfold Store.join
  dsimp only
  split_ifs <;> exact Function.update_of_ne h _ _

theorem join_panicked (s : Store Raw) (sessionID : String) (role : Role) :
    (s.join sessionID role).2.panicked = s.panicked := by
  unfold Store.join
  dsimp only
  split_ifs <;> rfl

/-- `Leave` takes its peer out of the map, or changes nothing. -/
theorem leave_cases (s : Store Raw) (p : Peer) :
    ((s.leave p).1 = none ∧ (s.leave p).2 = s) ∨
    ((s.leave p).1 = some (s.registered p.sessionID p.role.other) ∧
      s.registered p.sessionID p.role = some p ∧ (s.leave p).2.peers = s.peers ∧
      (s.leave p).2.panicked = s.panicked ∧
      (∀ sessionID, (s.leave p).2.rooms sessionID ≠ none → s.rooms sessionID ≠ none ∧
        (sessionID = p.sessionID → s.registered p.sessionID p.role.other ≠ none)) ∧
      (∀ sessionID role, (s.leave p).2.registered sessionID role =
        if sessionID = p.sessionID ∧ role = p.role then none else s.registered sessionID role)) := by
  unfold Store.leave
  cases hroom : s.rooms p.sessionID with
  | none => exact .inl ⟨rfl, rfl⟩
  | some r =>
    dsimp only
    have hreg (role : Role) : s.registered p.sessionID role = r role := by
      rw [Store.registered, hroom]
      rfl
    by_cases hp : r p.role ≠ some p
    · rw [if_pos hp]
      exact .inl ⟨rfl, rfl⟩
    rw [if_neg hp]
    rw [not_not] at hp
    refine .inr ⟨?_, by rw [hreg, hp], rfl, rfl, fun sessionID hne => ?_, fun sessionID role => ?_⟩
    · rw [hreg, Function.update_of_ne p.role.other_ne]
    · dsimp only at hne
      by_cases heq : sessionID = p.sessionID
      · subst heq
        rw [Function.update_self] at hne
        rw [hroom, hreg]
        refine ⟨by simp, fun _ hother => hne ?_⟩
        rw [if_pos ((Function.update_of_ne p.role.other_ne _ _).trans hother)]
      · rw [Function.update_of_ne heq] at hne
        exact ⟨hne, fun h => absurd h heq⟩
    · rw [registered_update]
      by_cases heq : sessionID = p.sessionID
      · subst heq
        rw [if_pos rfl]
        simp only [true_and, hreg]
        by_cases hrole : role = p.role
        · rw [if_pos hrole, hrole]
          split_ifs
          · rfl
          · rw [Option.bind_some, Function.update_self]
        · rw [if_neg hrole, Role.eq_other hrole]
          split_ifs with hother
          · rw [Function.update_of_ne p.role.other_ne] at hother
            rw [hother]
            rfl
          · rw [Option.bind_some, Function.update_of_ne p.role.other_ne]
      · rw [if_neg heq, if_neg fun h => heq h.1]
        rfl

/-- A `Leave` that takes its peer out. -/
theorem leave_some {s : Store Raw} {p : Peer} {other : Option Peer} (h : (s.leave p).1 = some other) :
    other = s.registered p.sessionID p.role.other ∧ s.registered p.sessionID p.role = some p ∧
      (s.leave p).2.peers = s.peers ∧ (∀ sessionID role, (s.leave p).2.registered sessionID role =
        if sessionID = p.sessionID ∧ role = p.role then none else s.registered sessionID role) := by
  rcases leave_cases s p with ⟨hnone, -⟩ | ⟨hsome, hp, hpeers, -, -, hreg⟩
  · rw [hnone] at h
    cases h
  · exact ⟨Option.some.inj (h.symm.trans hsome), hp, hpeers, hreg⟩

/-- A `Leave` that finds its peer gone. -/
theorem leave_none {s : Store Raw} {p : Peer} (h : (s.leave p).1 = none) : (s.leave p).2 = s := by
  rcases leave_cases s p with ⟨-, hs⟩ | ⟨hsome, -⟩
  · exact hs
  · rw [hsome] at h
    cases h

theorem target_eq (s : Store Raw) (sender : Peer) :
    s.target sender = s.registered sender.sessionID sender.role.other := by
  unfold Store.target Store.registered
  cases s.rooms sender.sessionID <;> rfl

/-! ### The peers -/

theorem enqueue_rooms (s : Store Raw) (p : Peer) (msg : Raw) : (s.enqueue p msg).2.rooms = s.rooms := by
  unfold Store.enqueue
  cases s.peers[p.id]? with
  | none => rfl
  | some st =>
    dsimp only
    split_ifs <;> rfl

theorem close_rooms (s : Store Raw) (p : Peer) : (s.close p).rooms = s.rooms := by
  unfold Store.close
  cases s.peers[p.id]? with
  | none => rfl
  | some st =>
    dsimp only
    split_ifs <;> rfl

/-- Both closed flags of a peer. -/
def flags (st : PeerState Raw) : Bool × Bool := (st.closed, st.out.isClosed)

/-- The map and every closed flag are the same. -/
structure Quiet (s s' : Store Raw) : Prop where
  rooms : s'.rooms = s.rooms
  flags : s'.peers.map flags = s.peers.map flags
  panicked : s'.panicked = s.panicked

theorem Quiet.refl (s : Store Raw) : Quiet s s := ⟨rfl, rfl, rfl⟩

theorem quiet_set {id : ℕ} {st st' : PeerState Raw} (h : s.peers[id]? = some st)
    (hflags : flags st' = flags st) : Quiet s { s with peers := s.peers.set id st' } where
  rooms := rfl
  flags := by
    obtain ⟨hlt, rfl⟩ := List.getElem?_eq_some_iff.1 h
    dsimp only
    rw [List.map_set, hflags, ← List.getElem_map Signaling.flags (h := by simpa using hlt), List.set_getElem_self]
  panicked := rfl

theorem Quiet.length {s' : Store Raw} (h : Quiet s s') : s'.peers.length = s.peers.length := by
  simpa using congrArg List.length h.flags

theorem Quiet.registered {s' : Store Raw} (h : Quiet s s') (sessionID : String) (role : Role) :
    s'.registered sessionID role = s.registered sessionID role := by
  rw [Store.registered, h.rooms]
  rfl

theorem Quiet.get {s' : Store Raw} (h : Quiet s s') {id : ℕ} {st' : PeerState Raw}
    (hst : s'.peers[id]? = some st') : ∃ st, s.peers[id]? = some st ∧ Signaling.flags st' = Signaling.flags st := by
  have hget := congrArg (·[id]?) h.flags
  simp only [List.getElem?_map, hst, Option.map_some] at hget
  obtain ⟨st, hst', heq⟩ := Option.map_eq_some_iff.1 hget.symm
  exact ⟨st, hst', heq.symm⟩

theorem Quiet.symm {s' : Store Raw} (h : Quiet s s') : Quiet s' s :=
  ⟨h.rooms.symm, h.flags.symm, h.panicked.symm⟩

theorem quiet_enqueue (hs : Represents s) (p : Peer) (msg : Raw) : Quiet s (s.enqueue p msg).2 := by
  unfold Store.enqueue
  cases hst : s.peers[p.id]? with
  | none => exact .refl s
  | some st =>
    have hq := hs.queues st (List.mem_of_getElem? hst)
    dsimp only
    by_cases hc : st.closed
    · rw [if_pos hc]
      exact .refl s
    rw [if_neg hc, if_neg (by rwa [hq])]
    split_ifs
    · exact quiet_set hst rfl
    · exact .refl s

theorem quiet_accept (s : Store Raw) (p : Peer) (nonce : UInt64) : Quiet s (s.accept p nonce).2 := by
  unfold Store.accept
  cases hst : s.peers[p.id]? with
  | none => exact .refl s
  | some st => exact quiet_set hst rfl

theorem quiet_drain (s : Store Raw) (id : ℕ) : Quiet s (s.drain id) := by
  unfold Store.drain
  cases hst : s.peers[id]? with
  | none => exact .refl s
  | some st => exact quiet_set hst rfl

/-- `enqueue` puts the message on the queue, or fails. -/
theorem enqueue_cases (s : Store Raw) (p : Peer) (msg : Raw) :
    ((s.enqueue p msg).1 = false ∧ (s.enqueue p msg).2.peers = s.peers) ∨
    ∃ st, s.peers[p.id]? = some st ∧ (s.enqueue p msg).1 = true ∧
      (s.enqueue p msg).2 = s.set p { st with out := { st.out with msgs := st.out.msgs ++ [msg] } } := by
  unfold Store.enqueue
  cases hst : s.peers[p.id]? with
  | none => exact .inl ⟨rfl, rfl⟩
  | some st =>
    dsimp only
    split_ifs
    · exact .inl ⟨rfl, rfl⟩
    · exact .inl ⟨rfl, rfl⟩
    · exact .inr ⟨st, rfl, rfl, rfl⟩
    · exact .inl ⟨rfl, rfl⟩

/-- `close` closes its peer, or finds it closed. -/
theorem close_cases (hs : Represents s) (p : Peer) :
    (s.close p = s ∧ ∀ st, s.peers[p.id]? = some st → st.closed = true) ∨
    ∃ st, s.peers[p.id]? = some st ∧ st.closed = false ∧
      s.close p = s.set p { st with closed := true, out := { st.out with isClosed := true } } := by
  unfold Store.close
  cases hst : s.peers[p.id]? with
  | none => exact .inl ⟨rfl, nofun⟩
  | some st =>
    have hq := hs.queues st (List.mem_of_getElem? hst)
    dsimp only
    by_cases hc : st.closed
    · rw [if_pos hc]
      refine .inl ⟨rfl, fun st' hst' => ?_⟩
      obtain rfl := Option.some.inj hst'
      exact hc
    · rw [if_neg hc, if_neg (by rwa [hq])]
      exact .inr ⟨st, rfl, by simpa using hc, rfl⟩

/-! ### The invariant -/

theorem Represents.quiet {s' : Store Raw} (hs : Represents s) (h : Quiet s s') : Represents s' where
  occupied := by
    intro sessionID hroom
    simp only [h.registered]
    rw [h.rooms] at hroom
    exact hs.occupied sessionID hroom
  keys := by
    intro sessionID role p hp
    rw [h.registered] at hp
    exact hs.keys _ _ _ hp
  bound := by
    intro sessionID role p hp
    rw [h.registered] at hp
    rw [h.length]
    exact hs.bound _ _ _ hp
  unique := by
    intro sessionID role p sessionID' role' p' hp hp'
    rw [h.registered] at hp hp'
    exact hs.unique _ _ _ _ _ _ hp hp'
  opened := by
    intro sessionID role p hp st' hst'
    rw [h.registered] at hp
    obtain ⟨st, hst, hflags⟩ := h.get hst'
    exact (congrArg Prod.fst hflags).trans (hs.opened _ _ _ hp st hst)
  queues := by
    intro st' hst'
    obtain ⟨id, hid⟩ := List.getElem?_of_mem hst'
    obtain ⟨st, hst, hflags⟩ := h.get hid
    rw [show st'.out.isClosed = st.out.isClosed from congrArg Prod.snd hflags,
      show st'.closed = st.closed from congrArg Prod.fst hflags]
    exact hs.queues st (List.mem_of_getElem? hst)
  calm := h.panicked.trans hs.calm

theorem Gone.quiet {s' : Store Raw} {q : Peer} (hq : Gone s q) (h : Quiet s s') : Gone s' q := by
  refine ⟨by rw [h.length]; exact hq.1, fun sessionID role p hp => ?_⟩
  rw [h.registered] at hp
  exact hq.2 sessionID role p hp

theorem Shut.quiet {s' : Store Raw} {q : Peer} (hq : Shut s q) (h : Quiet s s') : Shut s' q := by
  obtain ⟨st, hst, hc⟩ := hq
  obtain ⟨st', hst', hflags⟩ := h.symm.get hst
  exact ⟨st', hst', (congrArg Prod.fst hflags).symm.trans hc⟩

theorem represents_join (hs : Represents s) (sessionID : String) (role : Role) :
    Represents (s.join sessionID role).2 := by
  have hoccupied (sid : String) (hsid : sid ≠ sessionID) (hroom : (s.join sessionID role).2.rooms sid ≠ none) :
      ∃ role p, s.registered sid role = some p := by
    rw [join_rooms s role hsid] at hroom
    exact hs.occupied sid hroom
  have hcalm := (join_panicked s sessionID role).trans hs.calm
  rcases join_cases s sessionID role with ⟨-, hpeers, htaken, hreg⟩ | ⟨-, hpeers, hreg⟩
  · constructor
    · intro sid hroom
      simp only [hreg]
      by_cases hsid : sid = sessionID
      · subst hsid
        exact ⟨role, Option.ne_none_iff_exists'.1 htaken⟩
      · exact hoccupied sid hsid hroom
    · intro sid r p hp
      rw [hreg] at hp
      exact hs.keys _ _ _ hp
    · intro sid r p hp
      rw [hreg] at hp
      rw [hpeers]
      exact hs.bound _ _ _ hp
    · intro sid r p sid' r' p' hp hp'
      rw [hreg] at hp hp'
      exact hs.unique _ _ _ _ _ _ hp hp'
    · intro sid r p hp
      rw [hreg] at hp
      rw [hpeers]
      exact hs.opened _ _ _ hp
    · rw [hpeers]
      exact hs.queues
    · exact hcalm
  · -- the new peer has an id of its own, and is open
    have hcases (sid : String) (r : Role) (p : Peer)
        (hp : (s.join sessionID role).2.registered sid r = some p) :
        (sid = sessionID ∧ r = role ∧ p = ⟨s.peers.length, sessionID, role⟩) ∨
          s.registered sid r = some p := by
      rw [hreg] at hp
      split_ifs at hp with h
      · exact .inl ⟨h.1, h.2, (Option.some.inj hp).symm⟩
      · exact .inr hp
    constructor
    · intro sid hroom
      by_cases hsid : sid = sessionID
      · refine ⟨role, ⟨s.peers.length, sessionID, role⟩, ?_⟩
        rw [hreg, if_pos ⟨hsid, rfl⟩]
      · simp only [hreg, hsid, false_and, if_false]
        exact hoccupied sid hsid hroom
    · intro sid r p hp
      rcases hcases sid r p hp with ⟨rfl, rfl, rfl⟩ | hp
      · exact ⟨rfl, rfl⟩
      · exact hs.keys _ _ _ hp
    · intro sid r p hp
      rw [hpeers, List.length_append, List.length_singleton]
      rcases hcases sid r p hp with ⟨rfl, rfl, rfl⟩ | hp
      · exact Nat.lt_succ_self _
      · exact Nat.lt_succ_of_lt (hs.bound _ _ _ hp)
    · intro sid r p sid' r' p' hp hp' hid
      rcases hcases sid r p hp with ⟨-, -, rfl⟩ | hp <;>
        rcases hcases sid' r' p' hp' with ⟨-, -, rfl⟩ | hp'
      · rfl
      · exact absurd (hs.bound _ _ _ hp') (by rw [← hid]; exact Nat.lt_irrefl _)
      · exact absurd (hs.bound _ _ _ hp) (by rw [hid]; exact Nat.lt_irrefl _)
      · exact hs.unique _ _ _ _ _ _ hp hp' hid
    · intro sid r p hp st hst
      rw [hpeers] at hst
      rcases hcases sid r p hp with ⟨rfl, rfl, rfl⟩ | hp
      · simp only [List.getElem?_concat_length, Option.some.injEq] at hst
        rw [← hst]
      · rw [List.getElem?_append_left (hs.bound _ _ _ hp)] at hst
        exact hs.opened _ _ _ hp st hst
    · intro st hst
      rw [hpeers, List.mem_append, List.mem_singleton] at hst
      rcases hst with hst | rfl
      · exact hs.queues st hst
      · rfl
    · exact hcalm

theorem represents_leave (hs : Represents s) (p : Peer) : Represents (s.leave p).2 := by
  rcases leave_cases s p with ⟨-, h⟩ | ⟨-, hp, hpeers, hcalm, hrooms, hreg⟩
  · rwa [h]
  have hback (sid : String) (r : Role) (q : Peer) (hq : (s.leave p).2.registered sid r = some q) :
      s.registered sid r = some q := by
    rw [hreg] at hq
    split_ifs at hq
    exact hq
  constructor
  · intro sid hroom
    obtain ⟨hold, hother⟩ := hrooms sid hroom
    by_cases hsid : sid = p.sessionID
    · subst hsid
      obtain ⟨q, hq⟩ := Option.ne_none_iff_exists'.1 (hother rfl)
      refine ⟨p.role.other, q, ?_⟩
      rw [hreg, if_neg fun h => p.role.other_ne h.2]
      exact hq
    · simp only [hreg, hsid, false_and, if_false]
      exact hs.occupied sid hold
  · exact fun sid r q hq => hs.keys _ _ _ (hback sid r q hq)
  · intro sid r q hq
    rw [hpeers]
    exact hs.bound _ _ _ (hback sid r q hq)
  · exact fun sid r q sid' r' q' hq hq' =>
      hs.unique _ _ _ _ _ _ (hback sid r q hq) (hback sid' r' q' hq')
  · intro sid r q hq
    rw [hpeers]
    exact hs.opened _ _ _ (hback sid r q hq)
  · rw [hpeers]
    exact hs.queues
  · exact hcalm.trans hs.calm

/-- A peer that `Leave` has taken out of the map is gone. -/
theorem gone_leave (hs : Represents s) {p : Peer} {other : Option Peer}
    (h : (s.leave p).1 = some other) : Gone (s.leave p).2 p := by
  obtain ⟨-, hp, hpeers, hreg⟩ := leave_some h
  refine ⟨by rw [hpeers]; exact hs.bound _ _ _ hp, fun sid r q hq hid => ?_⟩
  rw [hreg] at hq
  split_ifs at hq with hne
  obtain rfl := hs.unique _ _ _ _ _ _ hq hp hid
  exact hne ((hs.keys _ _ _ hq).imp Eq.symm Eq.symm)

theorem represents_close (hs : Represents s) {q : Peer} (hq : Gone s q) : Represents (s.close q) := by
  rcases close_cases hs q with ⟨h, -⟩ | ⟨st, hst, -, h⟩
  · rwa [h]
  rw [h]
  constructor
  · exact hs.occupied
  · exact hs.keys
  · intro sid r p hp
    simpa [Store.set] using hs.bound sid r p hp
  · exact hs.unique
  · intro sid r p hp st' hst'
    rw [Store.set, List.getElem?_set_ne (Ne.symm (hq.2 sid r p hp))] at hst'
    exact hs.opened sid r p hp st' hst'
  · intro st' hst'
    rcases List.mem_or_eq_of_mem_set hst' with hst' | rfl
    · exact hs.queues st' hst'
    · rfl
  · exact hs.calm

/-! ### What no section undoes -/

theorem gone_join {q : Peer} (hq : Gone s q) (sessionID : String) (role : Role) :
    Gone (s.join sessionID role).2 q := by
  rcases join_cases s sessionID role with ⟨-, hpeers, -, hreg⟩ | ⟨-, hpeers, hreg⟩
  · exact ⟨by rw [hpeers]; exact hq.1, fun sid r p hp => hq.2 sid r p (by rwa [hreg] at hp)⟩
  · refine ⟨by rw [hpeers, List.length_append]; exact Nat.lt_add_right _ hq.1, fun sid r p hp => ?_⟩
    rw [hreg] at hp
    split_ifs at hp
    · obtain rfl := Option.some.inj hp
      exact (Nat.ne_of_lt hq.1).symm
    · exact hq.2 sid r p hp

theorem gone_leave_of_gone {q : Peer} (hq : Gone s q) (p : Peer) : Gone (s.leave p).2 q := by
  rcases leave_cases s p with ⟨-, h⟩ | ⟨-, -, hpeers, -, -, hreg⟩
  · rwa [h]
  · refine ⟨by rw [hpeers]; exact hq.1, fun sid r p' hp' => ?_⟩
    rw [hreg] at hp'
    split_ifs at hp'
    exact hq.2 sid r p' hp'

theorem gone_close (hs : Represents s) {q : Peer} (hq : Gone s q) (p : Peer) : Gone (s.close p) q := by
  rcases close_cases hs p with ⟨h, -⟩ | ⟨st, -, -, h⟩
  · rwa [h]
  · rw [h]
    exact ⟨by simpa [Store.set] using hq.1, hq.2⟩

theorem gone_exec (hs : Represents s) {q : Peer} (hq : Gone s q) (a : Access Raw) :
    Gone (exec () a s).2 q := by
  cases a with
  | join sessionID role => exact gone_join hq sessionID role
  | leave p => exact gone_leave_of_gone hq p
  | target sender => exact hq
  | enqueue p msg sender => exact hq.quiet (quiet_enqueue hs p msg)
  | close p => exact gone_close hs hq p
  | accept p nonce => exact hq.quiet (quiet_accept s p nonce)
  | read p => exact hq

theorem shut_exec (hs : Represents s) {q : Peer} (hq : Shut s q) (a : Access Raw) :
    Shut (exec () a s).2 q := by
  cases a with
  | join sessionID role =>
    obtain ⟨st, hst, hc⟩ := hq
    refine ⟨st, ?_, hc⟩
    rcases join_cases s sessionID role with ⟨-, hpeers, -⟩ | ⟨-, hpeers, -⟩
    · show (s.join sessionID role).2.peers[q.id]? = some st
      rwa [hpeers]
    · show (s.join sessionID role).2.peers[q.id]? = some st
      rw [hpeers, List.getElem?_append_left (List.getElem?_eq_some_iff.1 hst).1]
      exact hst
  | leave p =>
    obtain ⟨st, hst, hc⟩ := hq
    refine ⟨st, ?_, hc⟩
    rcases leave_cases s p with ⟨-, h⟩ | ⟨-, -, hpeers, -⟩
    · show (s.leave p).2.peers[q.id]? = some st
      rwa [h]
    · show (s.leave p).2.peers[q.id]? = some st
      rwa [hpeers]
  | target sender => exact hq
  | enqueue p msg sender => exact hq.quiet (quiet_enqueue hs p msg)
  | close p =>
    show Shut (s.close p) q
    rcases close_cases hs p with ⟨h, -⟩ | ⟨st, hst, -, h⟩
    · rwa [h]
    · rw [h]
      by_cases hid : p.id = q.id
      · exact ⟨_, by rw [Store.set, hid, List.getElem?_set_self (hid ▸ (List.getElem?_eq_some_iff.1 hst).1)], rfl⟩
      · obtain ⟨st', hst', hc⟩ := hq
        exact ⟨st', by rw [Store.set, List.getElem?_set_ne hid]; exact hst', hc⟩
  | accept p nonce => exact hq.quiet (quiet_accept s p nonce)
  | read p => exact hq

/-- The replies are about the session that was asked for. -/
theorem addressed_exec (hs : Represents s) (a : Access Raw) : Addressed a (exec () a s).1 := by
  cases a with
  | join sessionID role =>
    intro p other h
    obtain ⟨rfl, rfl, -⟩ := join_some h
    exact ⟨rfl, rfl, fun o ho => (hs.keys _ _ _ ho).1⟩
  | leave p =>
    intro other h o ho
    obtain ⟨rfl, -⟩ := leave_some h
    exact (hs.keys _ _ _ ho).1
  | target sender =>
    intro t ht
    have ht : s.target sender = some t := ht
    rw [target_eq] at ht
    exact hs.keys _ _ _ ht
  | _ => trivial

end DeskSync.Signaling
