import DeskSync.Signaling.Sound

/-!
# What a peer is sent

Every message on a peer's queue is a presence message of the hub for the peer's own session, or was
dispatched by a connection of the same session and the other role, exactly as it is there:
`hub_isolated`. The messages a connection relays are some of those it dispatches, in order, and their
nonces increase.

The invariant (`Relaying`) follows one connection. What it has relayed, what it is relaying and what it
has still to dispatch, in this order, are a sublist of its messages; and the guard of its peer has
reached the nonce of all but the last part. No other connection touches that guard (`guard_exec`),
since no two connections have joined as the same peer.
-/

namespace DeskSync.Signaling

open Elements Proc

variable {Raw : Type} {c : Codec Raw}

/-- The messages the connection `i` has relayed, in order. -/
def relayedBy (i : ℕ) (h : List (Event Raw)) : List Raw :=
  h.filterMap fun
    | .put j _ msg (some _) => if j = i then some msg else none
    | _ => none

/-- The messages put on the queue of the peer `id`, in order. -/
def putOn (id : ℕ) (h : List (Event Raw)) : List Raw :=
  h.filterMap fun
    | .put _ q msg _ => if q.id = id then some msg else none
    | _ => none

/-- Both messages parse, to envelopes with increasing nonces, or one of them does not. -/
def Increasing (c : Codec Raw) (msg msg' : Raw) : Prop :=
  ∀ env ∈ parse c msg, ∀ env' ∈ parse c msg', env.nonce < env'.nonce

/-- The connection may relay the message to the peer. -/
structure MayRelay (c : Codec Raw) (req : Request Raw) (q : Peer) (msg : Raw) : Prop where
  session : req.sessionID = q.sessionID
  role : req.role = q.role.other
  dispatched : msg ∈ req.messages
  accepted : ∃ env, parse c msg = some env ∧ env.sessionID = q.sessionID ∧ relayable (env.kind c)

/-- What the connection `i` puts on the queue of `q`. -/
def Permitted (c : Codec Raw) (w : World Raw) (i : ℕ) (q : Peer) (msg : Raw) (sender : Option Peer) :
    Prop :=
  (sender = none ∧ IsControl c q msg) ∨
  (sender ≠ none ∧ ∃ req prog, w.threads[i]? = some ⟨req, prog⟩ ∧ MayRelay c req q msg)

structure Isolated (c : Codec Raw) (p : World Raw × List (Event Raw)) : Prop where
  queues : ∀ id st, p.1.store.peers[id]? = some st → st.out.msgs <:+ putOn id p.2
  entries : ∀ i q msg sender, .put i q msg sender ∈ p.2 → Permitted c p.1 i q msg sender
  once : ∀ i req prog, p.1.threads[i]? = some ⟨req, prog⟩ →
    (relayedBy i p.2).Sublist req.messages
  nonces : ∀ i, (relayedBy i p.2).Pairwise (Increasing c)

theorem relayedBy_append (i : ℕ) (h h' : List (Event Raw)) :
    relayedBy i (h ++ h') = relayedBy i h ++ relayedBy i h' :=
  List.filterMap_append

theorem putOn_append (id : ℕ) (h h' : List (Event Raw)) :
    putOn id (h ++ h') = putOn id h ++ putOn id h' :=
  List.filterMap_append

/-! ### The queues -/

section Queues
variable {s : Store Raw}

/-- Every queue holds the last messages put on it. -/
def Queued (s : Store Raw) (h : List (Event Raw)) : Prop :=
  ∀ id st, s.peers[id]? = some st → st.out.msgs <:+ putOn id h

theorem Queued.more {h h' : List (Event Raw)} (hq : Queued s h) (hh : ∀ id, putOn id h' = []) :
    Queued s (h ++ h') := by
  intro id st hst
  rw [putOn_append, hh, List.append_nil]
  exact hq id st hst

theorem Queued.of_peers {s' : Store Raw} {h : List (Event Raw)} (hq : Queued s h)
    (hs : s'.peers = s.peers) : Queued s' h := by
  intro id st hst
  rw [hs] at hst
  exact hq id st hst

theorem Queued.set {h h' : List (Event Raw)} (hq : Queued s h) {id : ℕ} {st st' : PeerState Raw}
    (hst : s.peers[id]? = some st) (hself : st'.out.msgs <:+ st.out.msgs ++ putOn id h')
    (hother : ∀ id', id' ≠ id → putOn id' h' = []) :
    Queued { s with peers := s.peers.set id st' } (h ++ h') := by
  intro id' st₀ hst₀
  rw [putOn_append]
  by_cases hid : id = id'
  · subst hid
    have hlt := (List.getElem?_eq_some_iff.1 hst).1
    rw [List.getElem?_set_self hlt] at hst₀
    obtain rfl := Option.some.inj hst₀
    obtain ⟨l, hl⟩ := hq id st hst
    obtain ⟨l', hl'⟩ := hself
    refine ⟨l ++ l', ?_⟩
    rw [List.append_assoc, hl', ← List.append_assoc, hl]
  · rw [List.getElem?_set_ne hid] at hst₀
    rw [hother id' (Ne.symm hid), List.append_nil]
    exact hq id' st₀ hst₀

/-- A change of a peer that appends nothing to its queue. -/
theorem Queued.keep {h : List (Event Raw)} (hq : Queued s h) {id : ℕ} {st st' : PeerState Raw}
    (hst : s.peers[id]? = some st) (hself : st'.out.msgs <:+ st.out.msgs) :
    Queued { s with peers := s.peers.set id st' } h := by
  have hset : Queued { s with peers := s.peers.set id st' } (h ++ []) :=
    hq.set hst (by simpa [putOn] using hself) fun _ _ => rfl
  rwa [List.append_nil] at hset

theorem Queued.grow {s' : Store Raw} {h : List (Event Raw)} (hq : Queued s h)
    (hs : s'.peers = s.peers ++ [({} : PeerState Raw)]) : Queued s' h := by
  intro id st hst
  rw [hs] at hst
  rcases getElem?_concat_cases hst with hst | ⟨-, rfl⟩
  · exact hq id st hst
  · exact List.nil_suffix

theorem Queued.drain {h : List (Event Raw)} (hq : Queued s h) (id : ℕ) : Queued (s.drain id) h := by
  unfold Store.drain
  cases hst : s.peers[id]? with
  | none => exact hq
  | some st => exact hq.keep hst (List.tail_suffix st.out.msgs)

/-- Only `enqueue` puts a message on a queue. -/
theorem putOn_eventOf {i : ℕ} {a : Access Raw} (ha : ∀ p msg sender, a ≠ .enqueue p msg sender)
    (id : ℕ) : putOn id (eventOf i a s).toList = [] := by
  cases he : eventOf i a s with
  | none => rfl
  | some e =>
    cases e with
    | put j q msg sender => exact absurd (eventOf_put he).2.1 (ha q msg sender)
    | _ => rfl

theorem queued_exec {h : List (Event Raw)} (hq : Queued s h) (hs : Represents s) (i : ℕ)
    (a : Access Raw) : Queued (exec () a s).2 (h ++ (eventOf i a s).toList) := by
  cases a with
  | join sessionID role =>
    refine Queued.more ?_ fun id => putOn_eventOf (by simp) id
    rcases join_cases s sessionID role with ⟨-, hpeers, -⟩ | ⟨-, hpeers, -⟩
    · exact hq.of_peers hpeers
    · exact hq.grow hpeers
  | leave p =>
    refine Queued.more ?_ fun id => putOn_eventOf (by simp) id
    rcases leave_cases s p with ⟨-, h⟩ | ⟨-, -, hpeers, -⟩
    · exact hq.of_peers (by rw [Signaling.exec, h])
    · exact hq.of_peers hpeers
  | target sender => exact hq.more fun id => putOn_eventOf (by simp) id
  | enqueue p msg sender =>
    rcases enqueue_cases s p msg with ⟨hput, hpeers⟩ | ⟨st, hst, hput, hset⟩
    · simp only [eventOf, hput, Bool.false_eq_true, if_false, Option.toList_none, List.append_nil]
      exact hq.of_peers hpeers
    · simp only [eventOf, hput, if_true, Option.toList_some]
      show Queued (s.enqueue p msg).2 _
      rw [hset]
      refine hq.set hst ?_ fun id hid => ?_
      · simp [putOn]
      · simp [putOn, Ne.symm hid]
  | close p =>
    have hevent (id : ℕ) : putOn id (eventOf i (.close p) s).toList = [] := putOn_eventOf (by simp) id
    show Queued (s.close p) _
    rcases close_cases hs p with ⟨hsame, -⟩ | ⟨st, hst, -, hset⟩
    · rw [hsame]
      exact hq.more hevent
    · rw [hset]
      refine hq.set hst ?_ fun id _ => hevent id
      rw [hevent, List.append_nil]
  | accept p nonce =>
    refine Queued.more ?_ fun id => putOn_eventOf (by simp) id
    show Queued (s.accept p nonce).2 _
    unfold Store.accept
    cases hst : s.peers[p.id]? with
    | none => exact hq
    | some st => exact hq.keep hst List.suffix_rfl
  | read p => exact hq.more fun id => putOn_eventOf (by simp) id

end Queues

/-! ### The nonce guards -/

section Guards
variable {s : Store Raw}

/-- The nonce guard of the peer `id`. -/
def Store.guard (s : Store Raw) (id : ℕ) : Option NonceGuard := (s.peers[id]?).map (·.guard)

theorem guard_set {id : ℕ} {st st' : PeerState Raw} (hst : s.peers[id]? = some st)
    (hguard : st'.guard = st.guard) (id' : ℕ) :
    Store.guard { s with peers := s.peers.set id st' } id' = s.guard id' := by
  unfold Store.guard
  by_cases hid : id = id'
  · subst hid
    simp [List.getElem?_set_self (List.getElem?_eq_some_iff.1 hst).1, hst, hguard]
  · simp [List.getElem?_set_ne hid]

theorem guard_drain (s : Store Raw) (id id' : ℕ) : (s.drain id).guard id' = s.guard id' := by
  unfold Store.drain
  cases hst : s.peers[id]? with
  | none => rfl
  | some st => exact guard_set hst (by rfl) id'

/-- Only the connection that has joined as a peer changes its guard. -/
theorem guard_exec {id : ℕ} (hid : id < s.peers.length) {a : Access Raw}
    (ha : ∀ p nonce, a = .accept p nonce → p.id ≠ id) : (exec () a s).2.guard id = s.guard id := by
  cases a with
  | join sessionID role =>
    rcases join_cases s sessionID role with ⟨-, hpeers, -⟩ | ⟨-, hpeers, -⟩
    · simp only [exec, Store.guard, hpeers]
    · simp only [exec, Store.guard, hpeers, List.getElem?_append_left hid]
  | leave p =>
    rcases leave_cases s p with ⟨-, h⟩ | ⟨-, -, hpeers, -⟩
    · simp only [exec, h]
    · simp only [exec, Store.guard, hpeers]
  | target sender => rfl
  | enqueue p msg sender =>
    show (s.enqueue p msg).2.guard id = s.guard id
    rcases enqueue_cases s p msg with ⟨-, hpeers⟩ | ⟨st, hst, -, hset⟩
    · simp only [Store.guard, hpeers]
    · rw [hset]
      exact guard_set hst (by rfl) id
  | close p =>
    show (s.close p).guard id = s.guard id
    unfold Store.close
    cases hst : s.peers[p.id]? with
    | none => rfl
    | some st =>
      dsimp only
      split_ifs
      · rfl
      · rfl
      · exact guard_set hst (by rfl) id
  | accept p nonce =>
    have hne : p.id ≠ id := ha p nonce rfl
    show (s.accept p nonce).2.guard id = s.guard id
    unfold Store.accept
    cases hst : s.peers[p.id]? with
    | none => rfl
    | some st => simp [Store.guard, Store.set, List.getElem?_set_ne hne]
  | read p => rfl

theorem accept_guard {p : Peer} {g : NonceGuard} (hg : s.guard p.id = some g) (nonce : UInt64) :
    (s.accept p nonce).1 = (g.accept nonce).1 ∧
      (s.accept p nonce).2.guard p.id = some (g.accept nonce).2 := by
  obtain ⟨st, hst, rfl⟩ := Option.map_eq_some_iff.1 hg
  have hlt := (List.getElem?_eq_some_iff.1 hst).1
  constructor
  · simp only [Store.accept, hst]
  · simp only [Store.accept, hst, Store.guard, Store.set, List.getElem?_set_self hlt, Option.map_some]

/-- A peer that has just joined has accepted nothing. -/
theorem guard_joined {sessionID : String} {role : Role} {p : Peer} {other : Option Peer}
    (h : (s.join sessionID role).1 = some (p, other)) :
    p.id = s.peers.length ∧ (s.join sessionID role).2.guard p.id = some {} := by
  obtain ⟨rfl, -, hpeers, -⟩ := join_some h
  refine ⟨rfl, ?_⟩
  simp [Store.guard, hpeers]

end Guards

/-! ### One connection -/

/-- The message whose nonce has been accepted. -/
def Phase.pending : Phase Raw → List Raw
  | .idle => []
  | .accepted raw => [raw]
  | .relaying _ raw => [raw]

def Stage.peer : Stage Raw → Option Peer
  | .joining .. => none
  | .up p .. => some p

/-- The connection has joined as `p`, relayed `sent`, and has still to dispatch `rest`. -/
structure Sending (c : Codec Raw) (req : Request Raw) (s : Store Raw) (sent : List Raw) (p : Peer)
    (rest : List Raw) (phase : Phase Raw) : Prop where
  session : p.sessionID = req.sessionID
  role : p.role = req.role
  order : (sent ++ phase.pending ++ rest).Sublist req.messages
  nonces : (sent ++ phase.pending).Pairwise (Increasing c)
  guarded : ∃ g, s.guard p.id = some g ∧
    ∀ msg ∈ sent ++ phase.pending, ∀ env ∈ parse c msg, g.Reached env.nonce
  target : ∀ t raw, phase = .relaying t raw → MayRelay c req t raw

/-- The connection is at the stage and has relayed `sent`. -/
def Sent (c : Codec Raw) (req : Request Raw) (s : Store Raw) (sent : List Raw) : Stage Raw → Prop
  | .joining sessionID role rest =>
    sessionID = req.sessionID ∧ role = req.role ∧ rest = req.messages ∧ sent = []
  | .up p rest phase _ => Sending c req s sent p rest phase

section Next
variable {req : Request Raw} {s s' : Store Raw} {sent : List Raw} {p : Peer} {rest : List Raw}
  {phase : Phase Raw}

theorem Sending.frame (h : Sending c req s sent p rest phase) (hs : s'.guard p.id = s.guard p.id) :
    Sending c req s' sent p rest phase :=
  { h with guarded := by rw [hs]; exact h.guarded }

/-- The message being dispatched is relayed to no one. -/
theorem Sending.drop (h : Sending c req s sent p rest phase) : Sending c req s sent p rest .idle where
  session := h.session
  role := h.role
  order := by
    refine List.Sublist.trans ?_ h.order
    simp only [Phase.pending, List.append_nil]
    exact (List.sublist_append_left sent phase.pending).append_right rest
  nonces := by
    simp only [Phase.pending, List.append_nil]
    exact (List.pairwise_append.1 h.nonces).1
  guarded := by
    obtain ⟨g, hg, hreached⟩ := h.guarded
    refine ⟨g, hg, fun msg hmsg => hreached msg ?_⟩
    simp only [Phase.pending, List.append_nil] at hmsg
    exact List.mem_append_left _ hmsg
  target := nofun

/-- The message being relayed is on a queue. -/
theorem Sending.deliver {t : Peer} {raw : Raw} (h : Sending c req s sent p rest (.relaying t raw)) :
    Sending c req s (sent ++ [raw]) p rest .idle where
  session := h.session
  role := h.role
  order := by simpa [Phase.pending] using h.order
  nonces := by simpa [Phase.pending] using h.nonces
  guarded := by simpa [Phase.pending] using h.guarded
  target := nofun

theorem Sending.accept {raw : Raw} {rest' : List Raw} {env : Envelope Raw}
    (h : Sending c req s sent p rest phase) (hrest : (raw :: rest').Sublist rest)
    (henv : ParsedFor c p raw env) (haccept : (s.accept p env.nonce).1 = true) :
    Sending c req (s.accept p env.nonce).2 sent p rest' (.accepted raw) := by
  have hidle := h.drop
  obtain ⟨g, hg, hreached⟩ := hidle.guarded
  obtain ⟨hreply, hguard⟩ := accept_guard hg env.nonce
  rw [hreply] at haccept
  obtain ⟨hg', habove⟩ := NonceGuard.accept_true haccept
  simp only [Phase.pending, List.append_nil] at hreached
  have hnonces := hidle.nonces
  simp only [Phase.pending, List.append_nil] at hnonces
  constructor
  · exact h.session
  · exact h.role
  · have horder := hidle.order
    simp only [Phase.pending, List.append_nil] at horder ⊢
    rw [List.append_assoc, List.singleton_append]
    exact (hrest.append_left sent).trans horder
  · refine List.pairwise_append.2 ⟨hnonces, List.pairwise_singleton _ _, fun msg hmsg msg' hmsg' => ?_⟩
    obtain rfl := List.mem_singleton.1 hmsg'
    intro e he e' he'
    obtain rfl := Option.some.inj (henv.1.symm.trans he')
    exact habove e.nonce (hreached msg hmsg e he)
  · refine ⟨_, hguard, fun msg hmsg e he => ?_⟩
    rw [hg']
    rcases List.mem_append.1 hmsg with hmsg | hmsg
    · exact ⟨rfl, UInt64.le_of_lt (habove e.nonce (hreached msg hmsg e he))⟩
    · obtain rfl := List.mem_singleton.1 hmsg
      obtain rfl := Option.some.inj (henv.1.symm.trans he)
      exact ⟨rfl, UInt64.le_refl _⟩
  · nofun

theorem Sending.aim {raw : Raw} {env : Envelope Raw} {t : Peer}
    (h : Sending c req s sent p rest (.accepted raw)) (henv : ParsedFor c p raw env)
    (hkind : relayable (env.kind c)) (ht : t.sessionID = p.sessionID ∧ t.role = p.role.other) :
    Sending c req s sent p rest (.relaying t raw) where
  session := h.session
  role := h.role
  order := h.order
  nonces := h.nonces
  guarded := h.guarded
  target := by
    intro t' raw' heq
    obtain ⟨rfl, rfl⟩ := Phase.relaying.inj heq
    constructor
    · rw [← h.session, ht.1]
    · rw [← h.role, ht.2, Role.other_other]
    · exact h.order.subset (by simp [Phase.pending])
    · exact ⟨env, henv.1, by rw [henv.2, ht.1], hkind⟩

/-- Only a connection's own relayed messages count. -/
theorem relayedBy_eventOf {i : ℕ} {a : Access Raw} (j : ℕ)
    (ha : j = i → ∀ p msg sender, a ≠ .enqueue p msg (some sender)) :
    relayedBy j (eventOf i a s).toList = [] := by
  cases he : eventOf i a s with
  | none => rfl
  | some e =>
    cases e with
    | put k q msg sender =>
      obtain ⟨rfl, rfl, -⟩ := eventOf_put he
      cases sender with
      | none => rfl
      | some sender =>
        by_cases hji : j = k
        · exact absurd rfl (ha hji q msg sender)
        · simp [relayedBy, Ne.symm hji]
    | _ => rfl

theorem Sending.bound (h : Sending c req s sent p rest phase) : p.id < s.peers.length := by
  obtain ⟨g, hg, -⟩ := h.guarded
  obtain ⟨st, hst, -⟩ := Option.map_eq_some_iff.1 hg
  exact (List.getElem?_eq_some_iff.1 hst).1

/-- A section of the connection itself. -/
theorem sent_next {i : ℕ} {hist : List (Event Raw)} {x x' : Stage Raw}
    {a : Access Raw} (h : Sent c req s (relayedBy i hist) x)
    (hnext : Next c x a (exec () a s).1 x') :
    Sent c req (exec () a s).2 (relayedBy i (hist ++ (eventOf i a s).toList)) x' := by
  -- all but the section that relays, and those on the guard and of `Join`, change nothing here
  have hsame {p rest phase} (h : Sending c req s (relayedBy i hist) p rest phase)
      (ha : ∀ q nonce, a ≠ .accept q nonce)
      (he : ∀ q msg sender, a ≠ .enqueue q msg (some sender)) :
      Sending c req (exec () a s).2 (relayedBy i (hist ++ (eventOf i a s).toList)) p rest phase := by
    rw [relayedBy_append, relayedBy_eventOf i fun _ => he, List.append_nil]
    exact h.frame (guard_exec h.bound fun q nonce heq => absurd heq (ha q nonce))
  generalize hr : (exec () a s).1 = r at hnext
  cases hnext with
  | refused sessionID role rest =>
    rw [relayedBy_append, relayedBy_eventOf i (by simp), List.append_nil]
    exact h
  | joined rest p other =>
    obtain ⟨hsession, hrole, hrest, hsent⟩ := h
    obtain ⟨-, hguard⟩ := guard_joined hr
    rw [relayedBy_append, relayedBy_eventOf i (by simp), List.append_nil, hsent]
    constructor
    · exact hsession
    · exact hrole
    · simp [Phase.pending, hrest]
    · simp [Phase.pending]
    · exact ⟨_, hguard, by simp [Phase.pending]⟩
    · nofun
  | announces p rest phase o msg r hc => exact hsame h (by simp) (by simp)
  | finds p rest phase q => exact hsame h (by simp) (by simp)
  | removes p rest phase q other => exact hsame h (by simp) (by simp)
  | closes p rest phase q => exact hsame h (by simp) (by simp)
  | reads p rest phase => exact hsame h.drop (by simp) (by simp)
  | alone p rest raw => exact hsame h.drop (by simp) (by simp)
  | targets p rest raw env t henv hkind ht => exact hsame (h.aim henv hkind ht) (by simp) (by simp)
  | rejects p rest phase nonce =>
    rw [relayedBy_append, relayedBy_eventOf i (by simp), List.append_nil]
    refine h.drop.frame ?_
    obtain ⟨g, hg, -⟩ := h.guarded
    obtain ⟨hreply, hguard⟩ := accept_guard hg nonce
    have hfalse : (g.accept nonce).1 = false := hreply.symm.trans hr
    rw [NonceGuard.accept_false hfalse] at hguard
    exact hguard.trans hg.symm
  | accepts p rest phase raw rest' env hrest henv =>
    rw [relayedBy_append, relayedBy_eventOf i (by simp), List.append_nil]
    exact Sending.accept h hrest henv hr
  | relays p rest raw t r =>
    have hguard : (s.enqueue t raw).2.guard p.id = s.guard p.id :=
      guard_exec h.bound (a := .enqueue t raw (some p)) nofun
    rw [relayedBy_append]
    by_cases hput : (s.enqueue t raw).1 = true
    · have hevent : relayedBy i (eventOf i (.enqueue t raw (some p)) s).toList = [raw] := by
        simp [eventOf, hput, relayedBy]
      rw [hevent]
      exact h.deliver.frame hguard
    · have hevent : relayedBy i (eventOf i (.enqueue t raw (some p)) s).toList = [] := by
        simp [eventOf, hput, relayedBy]
      rw [hevent, List.append_nil]
      exact h.drop.frame hguard

/-- A section of another connection. -/
theorem sent_other {i j : ℕ} (hij : i ≠ j) {hist : List (Event Raw)}
    {x : Stage Raw} {a : Access Raw} (h : Sent c req s (relayedBy i hist) x)
    (ha : ∀ p nonce, a = .accept p nonce → ∀ q ∈ x.peer, p.id ≠ q.id) :
    Sent c req (exec () a s).2 (relayedBy i (hist ++ (eventOf j a s).toList)) x := by
  rw [relayedBy_append, relayedBy_eventOf i fun heq => absurd heq hij, List.append_nil]
  cases x with
  | joining sessionID role rest => exact h
  | up p rest phase gone =>
    exact h.frame (guard_exec h.bound fun q nonce heq => ha q nonce heq p rfl)

end Next

/-! ### All connections -/

structure Relaying (c : Codec Raw) (X : ℕ → Stage Raw) (p : World Raw × List (Event Raw)) : Prop where
  kept : Kept c X p
  queued : Queued p.1.store p.2
  entries : ∀ i q msg sender, .put i q msg sender ∈ p.2 → Permitted c p.1 i q msg sender
  sent : ∀ i req prog, p.1.threads[i]? = some ⟨req, prog⟩ →
    Sent c req p.1.store (relayedBy i p.2) (X i)
  unstarted : ∀ i, p.1.threads.length ≤ i → relayedBy i p.2 = [] ∧ (X i).peer = none
  owned : ∀ i j, i ≠ j → ∀ q ∈ (X i).peer, ∀ q' ∈ (X j).peer, q.id ≠ q'.id

section World
variable {X : ℕ → Stage Raw} {w w' : World Raw} {h : List (Event Raw)}

theorem Relaying.bound (hp : Relaying c X (w, h)) {i : ℕ} {q : Peer} (hq : q ∈ (X i).peer) :
    q.id < w.store.peers.length := by
  cases hi : w.threads[i]? with
  | none =>
    have hnone := (hp.unstarted i (List.getElem?_eq_none_iff.1 hi)).2
    rw [hnone] at hq
    cases hq
  | some t =>
    obtain ⟨req, prog⟩ := t
    have hsent := hp.sent i req prog hi
    generalize X i = x at hq hsent
    cases x with
    | joining sessionID role rest => cases hq
    | up p rest phase gone =>
      obtain rfl := Option.some.inj hq
      exact Sending.bound hsent

/-- A step keeps every connection's request. -/
theorem permitted_step {i : ℕ} {q : Peer} {msg : Raw} {sender : Option Peer} (l : Step Raw)
    (hi : Permitted c w i q msg sender) : Permitted c ((hub c).step w l) i q msg sender := by
  rcases hi with hcontrol | ⟨hsender, req, prog, hthread, hmay⟩
  · exact .inl hcontrol
  · rcases (hub c).thread_next l hthread with hnext | ⟨e, a, k, -, -, hnext⟩
    · exact .inr ⟨hsender, req, _, hnext, hmay⟩
    · exact .inr ⟨hsender, req, _, hnext, hmay⟩

/-- A connection keeps its peer; it gets one from `Join`. -/
theorem next_peer {x x' : Stage Raw} {a : Access Raw} {r : Reply a} (hnext : Next c x a r x') :
    x'.peer = x.peer ∨ ∃ sessionID role, ∃ ha : a = .join sessionID role, ∃ q other,
      ha ▸ r = some (q, other) ∧ x'.peer = some q := by
  cases hnext with
  | joined rest p other => exact .inr ⟨_, _, rfl, p, other, rfl, rfl⟩
  | _ => exact .inl rfl

theorem next_accept {x x' : Stage Raw} {p : Peer} {nonce : UInt64} {r : Bool}
    (hnext : Next c x (.accept p nonce) r x') : x.peer = some p := by
  cases hnext <;> rfl

/-- What a section puts on a queue. -/
theorem permitted_next {i : ℕ} {x x' : Stage Raw} {a : Access Raw} {r : Reply a} {s : Store Raw}
    {req : Request Raw} {prog : Handler Raw Unit} {sent : List Raw}
    (hi : w.threads[i]? = some ⟨req, prog⟩) (hnext : Next c x a r x') (hx : Sent c req s sent x)
    {j : ℕ} {q : Peer} {msg : Raw} {sender : Option Peer}
    (he : .put j q msg sender ∈ eventOf i a s) : Permitted c w j q msg sender := by
  obtain ⟨rfl, rfl, -⟩ := eventOf_put he
  cases hnext with
  | announces p rest phase _ _ _ hc => exact .inl ⟨rfl, hc⟩
  | relays p rest _ _ _ => exact .inr ⟨by simp, req, prog, hi, hx.target q msg rfl⟩

theorem Relaying.owned_next (hp : Relaying c X (w, h)) {i : ℕ} {a : Access Raw} {x' : Stage Raw}
    (hnext : Next c (X i) a (exec () a w.store).1 x') :
    ∀ j k, j ≠ k → ∀ q ∈ (Function.update X i x' j).peer, ∀ q' ∈ (Function.update X i x' k).peer,
      q.id ≠ q'.id := by
  -- the peer of `i` is new, or was its peer before
  have hne (k : ℕ) (hk : k ≠ i) (q : Peer) (hq : q ∈ x'.peer) (q' : Peer) (hq' : q' ∈ (X k).peer) :
      q.id ≠ q'.id := by
    rcases next_peer hnext with hsame | ⟨sessionID, role, rfl, p, other, hr, hx'⟩
    · rw [hsame] at hq
      exact hp.owned i k (Ne.symm hk) q hq q' hq'
    · rw [hx'] at hq
      obtain rfl := Option.some.inj hq
      have hid := (guard_joined hr).1
      have hlt := hp.bound hq'
      omega
  intro j k hjk q hq q' hq'
  by_cases hj : j = i
  · subst hj
    rw [Function.update_self] at hq
    rw [Function.update_of_ne (Ne.symm hjk)] at hq'
    exact hne k (Ne.symm hjk) q hq q' hq'
  · rw [Function.update_of_ne hj] at hq
    by_cases hk : k = i
    · subst hk
      rw [Function.update_self] at hq'
      exact Ne.symm (hne j hj q' hq' q hq)
    · rw [Function.update_of_ne hk] at hq'
      exact hp.owned j k hjk q hq q' hq'

/-- A step that leaves the guards, and starts at most one connection. -/
theorem Relaying.quiet {X' : ℕ → Stage Raw} (hp : Relaying c X (w, h)) (hkept : Kept c X' (w', h))
    (hqueued : Queued w'.store h) (hguard : ∀ id, w'.store.guard id = w.store.guard id)
    (hentries : ∀ i q msg sender, .put i q msg sender ∈ h → Permitted c w' i q msg sender)
    (hthreads : ∀ i req prog, w'.threads[i]? = some ⟨req, prog⟩ →
      (w.threads[i]? = some ⟨req, prog⟩ ∧ X' i = X i) ∨
      (w.threads.length ≤ i ∧ X' i = req.initial))
    (hpeers : ∀ i, (X' i).peer = (X i).peer) (hlen : w.threads.length ≤ w'.threads.length) :
    Relaying c X' (w', h) where
  kept := hkept
  queued := hqueued
  entries := hentries
  sent := by
    intro i req prog hi
    rcases hthreads i req prog hi with ⟨hi, hX⟩ | ⟨hle, hX⟩
    · have hsent := hp.sent i req prog hi
      rw [hX]
      dsimp only at hsent ⊢
      generalize X i = x at hsent
      cases x with
      | joining sessionID role rest => exact hsent
      | up p rest phase gone => exact Sending.frame hsent (hguard p.id)
    · rw [hX]
      exact ⟨rfl, rfl, rfl, (hp.unstarted i hle).1⟩
  unstarted := by
    intro i hle
    rw [hpeers]
    exact hp.unstarted i (hlen.trans hle)
  owned := by
    simp only [hpeers]
    exact hp.owned

theorem Relaying.advance (hp : Relaying c X (w, h)) {i : ℕ} {req : Request Raw} {a : Access Raw}
    {k : Reply a → Handler Raw Unit} {x' : Stage Raw}
    (hi : w.threads[i]? = some ⟨req, .call a k⟩)
    (hw : w' = ⟨(exec () a w.store).2, w.threads.set i ⟨req, k (exec () a w.store).1⟩⟩)
    (hnext : Next c (X i) a (exec () a w.store).1 x')
    (hkept : Kept c (Function.update X i x') (w', h ++ (eventOf i a w.store).toList))
    (hentries : ∀ j q msg sender, Permitted c w j q msg sender → Permitted c w' j q msg sender) :
    Relaying c (Function.update X i x') (w', h ++ (eventOf i a w.store).toList) := by
  have hrep := hp.kept.rep
  have hsent := hp.sent i req _ hi
  have hlt := (List.getElem?_eq_some_iff.1 hi).1
  constructor
  · exact hkept
  · rw [hw]
    exact queued_exec hp.queued hrep i a
  · intro j q msg sender he
    rcases List.mem_append.1 he with he | he
    · exact hentries _ _ _ _ (hp.entries j q msg sender he)
    · exact hentries _ _ _ _ (permitted_next hi hnext hsent (Option.mem_toList.1 he))
  · intro j req' prog hj
    rw [hw] at hj ⊢
    rcases set_cases hj with ⟨rfl, heq⟩ | ⟨hij, hj⟩
    · cases heq
      rw [Function.update_self]
      exact sent_next hsent hnext
    · rw [Function.update_of_ne (Ne.symm hij)]
      refine sent_other (Ne.symm hij) (hp.sent j req' prog hj) fun p nonce ha q hq => ?_
      subst ha
      exact hp.owned i j hij p (next_accept hnext) q hq
  · intro j hle
    rw [hw, List.length_set] at hle
    have hji : j ≠ i := by omega
    obtain ⟨hrelayed, hpeer⟩ := hp.unstarted j hle
    rw [Function.update_of_ne hji, relayedBy_append, hrelayed,
      relayedBy_eventOf j fun heq => absurd heq hji]
    exact ⟨rfl, hpeer⟩
  · exact hp.owned_next hnext

theorem relaying_step {p : World Raw × List (Event Raw)} (hp : Relaying c X p) (l : Step Raw) :
    ∃ X', Relaying c X' (Run.observe (hub c).step event p l) := by
  obtain ⟨w, h⟩ := p
  unfold Run.observe
  have hpermitted (j : ℕ) (q : Peer) (msg : Raw) (sender : Option Peer) :
      Permitted c w j q msg sender → Permitted c ((hub c).step w l) j q msg sender :=
    permitted_step l
  rcases step_cases hp.kept.staged (addressed_exec hp.kept.rep) l with
    ⟨hw, hev⟩ | ⟨q, hw, hev, hst⟩ | ⟨id, hw, hev, hst⟩ | ⟨i, q, a, k, x', -, hi, hw, hev, hnext, hst⟩
  · rw [hw, hev, Option.toList_none, List.append_nil]
    exact ⟨X, hp⟩
  · rw [hev, Option.toList_none, List.append_nil]
    have hpeers (i : ℕ) : (Function.update X w.threads.length q.initial i).peer = (X i).peer := by
      rw [Function.update_apply]
      split_ifs with heq
      · rw [(hp.unstarted i (Nat.le_of_eq heq.symm)).2]
        rfl
      · rfl
    refine ⟨_, hp.quiet (hp.kept.quiet (hw ▸ .refl _) hst fun i q' rest phase g hi => ?_)
      (hw ▸ hp.queued) (fun id => by rw [hw])
      (fun i q msg sender he => hpermitted _ _ _ _ (hp.entries i q msg sender he)) ?_ hpeers ?_⟩
    · rw [Function.update_apply] at hi
      split_ifs at hi
      · cases hi
      · exact hi
    · intro i req prog hi
      rw [hw] at hi
      rcases getElem?_concat_cases hi with hi | ⟨rfl, heq⟩
      · exact .inl ⟨hi, Function.update_of_ne (Nat.ne_of_lt (List.getElem?_eq_some_iff.1 hi).1) _ _⟩
      · cases heq
        exact .inr ⟨Nat.le_refl _, Function.update_self ..⟩
    · rw [hw]
      simp
  · rw [hev, Option.toList_none, List.append_nil]
    refine ⟨X, hp.quiet (hp.kept.quiet (hw ▸ quiet_drain w.store id) hst fun _ _ _ _ _ hi => hi)
      (hw ▸ hp.queued.drain id) (fun id' => by rw [hw]; exact guard_drain w.store id id')
      (fun i q msg sender he => hpermitted _ _ _ _ (hp.entries i q msg sender he)) ?_ (fun _ => rfl) ?_⟩
    · intro i req prog hi
      rw [hw] at hi
      exact .inl ⟨hi, rfl⟩
    · rw [hw]
  · rw [hev]
    exact ⟨_, hp.advance hi hw hnext (hp.kept.advance hw hnext hst) hpermitted⟩

end World

theorem relaying_run (c : Codec Raw) (l : List (Step Raw)) : ∃ X, Relaying c X (run c l) := by
  refine Run.invariant (I := fun p : World Raw × List (Event Raw) => ∃ X, Relaying c X p) ?_ ?_ l
  · rintro p l ⟨X, hp⟩
    exact relaying_step hp l
  · refine ⟨noStages, ⟨staged_fresh c, represents_empty, ?_, ?_⟩, ?_, ?_, ?_, ?_, ?_⟩
    · intro i q rest phase g hi
      cases hi
    · simp
    · simp [Queued, fresh]
    · simp
    · simp [fresh]
    · exact fun i _ => ⟨rfl, rfl⟩
    · simp [noStages, Stage.peer]

/-! ### The result -/

/-- The nonces of what a connection relays increase, among what it has dispatched. -/
theorem Relaying.relayed {X : ℕ → Stage Raw} {p : World Raw × List (Event Raw)} (hp : Relaying c X p)
    {i : ℕ} {req : Request Raw} {prog : Handler Raw Unit} (hi : p.1.threads[i]? = some ⟨req, prog⟩) :
    (relayedBy i p.2).Sublist req.messages ∧ (relayedBy i p.2).Pairwise (Increasing c) := by
  have hsent := hp.sent i req prog hi
  generalize X i = x at hsent
  cases x with
  | joining sessionID role rest =>
    rw [hsent.2.2.2]
    exact ⟨List.nil_sublist _, .nil⟩
  | up p rest phase gone =>
    refine ⟨List.Sublist.trans ?_ hsent.order, (List.pairwise_append.1 hsent.nonces).1⟩
    rw [List.append_assoc]
    exact List.sublist_append_left _ _

theorem Relaying.nonces {X : ℕ → Stage Raw} {p : World Raw × List (Event Raw)} (hp : Relaying c X p)
    (i : ℕ) : (relayedBy i p.2).Pairwise (Increasing c) := by
  cases hi : p.1.threads[i]? with
  | none =>
    rw [(hp.unstarted i (List.getElem?_eq_none_iff.1 hi)).1]
    exact .nil
  | some t => exact (hp.relayed hi).2

/-- What every peer is sent, in every run of the hub. -/
theorem hub_isolated (c : Codec Raw) (l : List (Step Raw)) : Isolated c (run c l) := by
  obtain ⟨X, hp⟩ := relaying_run c l
  constructor
  · exact hp.queued
  · exact hp.entries
  · exact fun i req prog hi => (hp.relayed hi).1
  · exact hp.nonces

end DeskSync.Signaling
