import DeskSync.Signaling.Sound
import DeskSync.Signaling.Json

/-!
# What the presence messages say

`Join` and `Leave` tell the other peer of the room, under the lock of the hub, by a send that fails on a
full queue. `coherent_of_roomy`: as long as none of these sends finds the queue full, the last presence
message of every peer in the map is true whenever the lock is free. `full_queue_misleads` is a run in
which one does, and the peer is not told that the other one left.

The sections of `Join` and `Leave` are separate steps of the model, so the lock is a condition on runs
(`Exclusive`): who looks at the map waits until no connection is between two sections of `Join` or
`Leave`. A connection between two sections owes presence messages (`Debt`). The invariant (`Settled`) is
that the last presence message of a peer is true once what is owed to it has been put behind the
messages it was given; where nobody owes anything, it is true as it is.
-/

namespace DeskSync.Signaling

open Proc

variable {Raw : Type}

/-! ### The lock of the hub -/

/-- The sections of `Join` and `Leave` after the one on the map; a message of theirs has no sender. -/
def Access.inside : Access Raw → Bool
  | .enqueue _ _ none => true
  | .close _ => true
  | _ => false

/-- The sections that start with taking the lock. -/
def Access.locks : Access Raw → Bool
  | .join .. => true
  | .leave _ => true
  | .target _ => true
  | _ => false

/-- The connection is inside `Join` or `Leave`. -/
def holdsLock (t : Thread (Request Raw) (@Reply Raw) Unit) : Bool :=
  match t.prog.pending with
  | some a => a.inside
  | none => false

def lockFree (w : World Raw) : Bool := w.threads.all fun t => !holdsLock t

/-- The section a step runs. -/
def sectionOf (w : World Raw) : Step Raw → Option (Access Raw)
  | .advance i _ => (w.threads[i]?).bind (·.prog.pending)
  | _ => none

/-- A step that takes the lock finds it free. -/
def Exclusive (w : World Raw) (l : Step Raw) : Prop :=
  match sectionOf w l with
  | some a => a.locks = true → lockFree w = true
  | none => True

/-- A step that puts a presence message on a queue finds room for it. -/
def Roomy (w : World Raw) (l : Step Raw) : Prop :=
  match sectionOf w l with
  | some (.enqueue p _ none) => ∀ st ∈ w.store.peers[p.id]?, st.out.msgs.length < outboundBuffer
  | _ => True

instance (w : World Raw) (l : Step Raw) : Decidable (Exclusive w l) := by
  unfold Exclusive
  split <;> infer_instance

instance (w : World Raw) (l : Step Raw) : Decidable (Roomy w l) := by
  unfold Roomy
  split <;> infer_instance

/-! ### Presence -/

/-- The presence messages put on the queue of the peer `id`, in order. -/
def presenceOn (id : ℕ) (h : List (Event Raw)) : List Raw :=
  h.filterMap fun
    | .put _ q msg none => if q.id = id then some msg else none
    | _ => none

/-- The last of the presence messages says that the other role is there exactly if it is. -/
def Truthful (c : Codec Raw) (s : Store Raw) (p : Peer) (msgs : List Raw) : Prop :=
  msgs.getLast? = some (control c p.sessionID kindPeerJoined p.role.other.name) ↔
    s.registered p.sessionID p.role.other ≠ none

/-- Every peer in the map has been told the truth. -/
def Coherent (c : Codec Raw) (p : World Raw × List (Event Raw)) : Prop :=
  ∀ sessionID role q, p.1.store.registered sessionID role = some q →
    Truthful c p.1.store q (presenceOn q.id p.2)

theorem presenceOn_append (id : ℕ) (h h' : List (Event Raw)) :
    presenceOn id (h ++ h') = presenceOn id h ++ presenceOn id h' :=
  List.filterMap_append

/-! ### Debts -/

/-- What a connection has still to do before it gives the lock back. -/
structure Debt (Raw : Type) where
  closing : Option Peer := none
  owed : List (Peer × Raw) := []

/-- The connection does not hold the lock. -/
def Debt.free : Debt Raw := {}

/-- What is owed to the peer `id`. -/
def Debt.owedTo (d : Debt Raw) (id : ℕ) : List Raw :=
  d.owed.filterMap fun m => if m.1.id = id then some m.2 else none

inductive Owes (c : Codec Raw) : Debt Raw → (a : Access Raw) → Reply a → Debt Raw → Prop
  | refused (sessionID role) : Owes c .free (.join sessionID role) none .free
  | alone (sessionID role p) : Owes c .free (.join sessionID role) (some (p, none)) .free
  | joined (sessionID role p o) : Owes c .free (.join sessionID role) (some (p, some o))
      { owed := [(o, control c sessionID kindPeerJoined role.name),
        (p, control c sessionID kindPeerJoined role.other.name)] }
  | finds (q) : Owes c .free (.leave q) none .free
  | removes (q other) : Owes c .free (.leave q) (some other)
      { closing := some q
        owed := (other.map fun o => (o, control c q.sessionID kindPeerLeft q.role.name)).toList }
  | closes (q owed) : Owes c ⟨some q, owed⟩ (.close q) () ⟨none, owed⟩
  | announces (o msg owed r) : Owes c ⟨none, (o, msg) :: owed⟩ (.enqueue o msg none) r ⟨none, owed⟩
  | targets (p r) : Owes c .free (.target p) r .free
  | relays (p msg q r) : Owes c .free (.enqueue p msg (some q)) r .free
  | accepts (p nonce r) : Owes c .free (.accept p nonce) r .free
  | reads (p) : Owes c .free (.read p) () .free

/-- The handler pays what it owes, and returns owing nothing. -/
abbrev Pays {α : Type} (c : Codec Raw) (d : Debt Raw) (h : Handler Raw α) : Prop :=
  h.Conforms (fun _ _ => True) (Owes c) (fun d _ => d = .free) d

variable {c : Codec Raw}

theorem pays_join (c : Codec Raw) (sessionID : String) (role : Role) :
    Pays c .free (join c sessionID role) := by
  intro r _
  cases r with
  | none => exact ⟨_, .refused sessionID role, rfl⟩
  | some joined =>
    obtain ⟨p, other⟩ := joined
    cases other with
    | none => exact ⟨_, .alone sessionID role p, rfl⟩
    | some o =>
      refine ⟨_, .joined sessionID role p o, fun b _ => ?_⟩
      refine ⟨_, .announces o _ _ b, fun b' _ => ?_⟩
      exact ⟨_, .announces p _ _ b', rfl⟩

theorem pays_leave (c : Codec Raw) (q : Peer) : Pays c .free (leave c q) := by
  intro r _
  cases r with
  | none => exact ⟨_, .finds q, rfl⟩
  | some other =>
    refine ⟨_, .removes q other, fun u _ => ⟨_, .closes q _, ?_⟩⟩
    cases other with
    | none => exact rfl
    | some o => exact fun b _ => ⟨_, .announces o _ _ b, rfl⟩

theorem pays_relay (c : Codec Raw) (sender : Peer) (raw : Raw) : Pays c .free (relay c sender raw) := by
  intro r _
  refine ⟨_, .targets sender r, ?_⟩
  cases r with
  | none => exact rfl
  | some t =>
    intro queued _
    refine ⟨_, .relays t raw sender queued, ?_⟩
    cases queued with
    | true => exact rfl
    | false => exact pays_leave c t

theorem Pays.bind {α β : Type} {d : Debt Raw} {p : Handler Raw α} {f : α → Handler Raw β}
    (h : Pays c d p) (hf : ∀ a, Pays c .free (f a)) : Pays c d (p >>= f) := by
  refine Prog.Conforms.bind h ?_
  rintro _ a rfl
  exact hf a

theorem pays_dispatch (c : Codec Raw) (p : Peer) (raw : Raw) : Pays c .free (dispatch c p raw) := by
  unfold dispatch
  cases parse c raw with
  | none => exact rfl
  | some env =>
    dsimp only
    by_cases hsession : env.sessionID ≠ p.sessionID
    · rw [if_pos hsession]
      exact rfl
    rw [if_neg hsession]
    refine fun accepted _ => ⟨_, .accepts p env.nonce accepted, ?_⟩
    have hrelay (r : DispatchResult) : Pays c .free (do relay c p raw; pure r) :=
      (pays_relay c p raw).bind fun _ => rfl
    simp only [Prog.bind]
    split_ifs
    · exact rfl
    · exact rfl
    · exact hrelay _
    · exact hrelay _
    · exact rfl

theorem pays_pump (c : Codec Raw) (p : Peer) (reads : List (Read Raw)) : Pays c .free (pump c p reads) := by
  induction reads with
  | nil => exact pays_leave c p
  | cons read reads ih =>
    cases read with
    | binary => exact fun _ _ => ⟨_, .reads p, ih⟩
    | text data =>
      refine fun _ _ => ⟨_, .reads p, (pays_dispatch c p data).bind fun result => ?_⟩
      cases result with
      | «continue» => exact ih
      | reject => exact pays_leave c p
      | bye => exact pays_leave c p

theorem pays_calls (c : Codec Raw) (p : Peer) (ops : List (Call Raw)) : Pays c .free (calls c p ops) := by
  induction ops with
  | nil => exact rfl
  | cons op ops ih =>
    cases op with
    | dispatch raw => exact (pays_dispatch c p raw).bind fun _ => ih
    | leave => exact (pays_leave c p).bind fun _ => ih

theorem pays_start (c : Codec Raw) (q : Request Raw) : Pays c .free (start c q) := by
  cases q with
  | serve sessionID role reads =>
    refine (pays_join c sessionID role).bind fun peer => ?_
    cases peer with
    | none => exact rfl
    | some p => exact pays_pump c p reads
  | calls sessionID role ops =>
    refine (pays_join c sessionID role).bind fun peer => ?_
    cases peer with
    | none => exact rfl
    | some p => exact pays_calls c p ops

/-! ### The invariant -/

/-- At most one connection holds the lock, and the peers in the map have been told the truth, or will have
been once it gives the lock back. -/
structure Settled (c : Codec Raw) (D : ℕ → Debt Raw) (p : World Raw × List (Event Raw)) : Prop where
  conform : p.1.Conform (fun _ _ => True) (Owes c) (fun d _ => d = .free) D
  one : ∀ i j, i ≠ j → D i = .free ∨ D j = .free
  owed : ∀ i, ∀ m ∈ (D i).owed, p.1.store.registered m.1.sessionID m.1.role = some m.1
  truth : ∃ i, (∀ j, j ≠ i → (D j).owed = []) ∧
    ∀ sessionID role q, p.1.store.registered sessionID role = some q →
      Truthful c p.1.store q (presenceOn q.id p.2 ++ (D i).owedTo q.id)
  unstarted : ∀ i, p.1.threads.length ≤ i → D i = .free
  unused : ∀ id, p.1.store.peers.length ≤ id → presenceOn id p.2 = []

section Step
variable {D D' : ℕ → Debt Raw} {w w' : World Raw} {h h' : List (Event Raw)} {s : Store Raw}

theorem owedTo_nil {d : Debt Raw} (hd : d.owed = []) (id : ℕ) : d.owedTo id = [] := by
  rw [Debt.owedTo, hd]
  rfl

/-- A connection that owes something is inside. -/
theorem inside_of_owes {d d' : Debt Raw} {a : Access Raw} {r : Reply a} (hd : Owes c d a r d')
    (hne : d ≠ .free) : a.inside = true := by
  cases hd with
  | closes q owed => rfl
  | announces o msg owed r => rfl
  | _ => exact absurd rfl hne

/-- While the lock is free, nobody owes anything. -/
theorem Settled.free (hp : Settled c D (w, h)) (hw : lockFree w = true) (i : ℕ) : D i = .free := by
  cases hi : w.threads[i]? with
  | none => exact hp.unstarted i (List.getElem?_eq_none_iff.1 hi)
  | some t =>
    obtain ⟨q, prog⟩ := t
    have hconf := hp.conform i q prog hi
    cases prog with
    | ret a => exact hconf
    | call a k =>
      by_contra hne
      obtain ⟨d', howes, -⟩ := hconf (exec () a w.store).1 trivial
      have hout := List.all_eq_true.1 hw _ (List.mem_of_getElem? hi)
      simp [holdsLock, inside_of_owes howes hne] at hout

/-- A step that leaves the map, puts no presence message on a queue and pays no debt. -/
theorem Settled.quiet (hp : Settled c D (w, h))
    (hconf : w'.Conform (fun _ _ => True) (Owes c) (fun d _ => d = .free) D')
    (hreg : ∀ sessionID role, w'.store.registered sessionID role = w.store.registered sessionID role)
    (hpeers : w.store.peers.length ≤ w'.store.peers.length)
    (hthreads : w.threads.length ≤ w'.threads.length)
    (howed : ∀ j, (D' j).owed = (D j).owed) (hfree : ∀ j, D j = .free → D' j = .free)
    (hh : ∀ id, presenceOn id h' = []) : Settled c D' (w', h ++ h') where
  conform := hconf
  one := fun i j hij => (hp.one i j hij).imp (hfree i) (hfree j)
  owed := by
    intro i m hm
    rw [howed] at hm
    rw [hreg]
    exact hp.owed i m hm
  truth := by
    obtain ⟨i, hothers, htruth⟩ := hp.truth
    refine ⟨i, fun j hj => by rw [howed, hothers j hj], fun sessionID role q hq => ?_⟩
    rw [hreg] at hq
    have hq := htruth sessionID role q hq
    simp only [Truthful, hreg, presenceOn_append, hh, List.append_nil, Debt.owedTo, howed] at hq ⊢
    exact hq
  unstarted := fun i hi => hfree i (hp.unstarted i (hthreads.trans hi))
  unused := fun id hid => by
    rw [presenceOn_append, hh, List.append_nil]
    exact hp.unused id (hpeers.trans hid)

/-- The connection takes the lock and leaves `Join` or `Leave` with the debt `d`. -/
theorem Settled.enter {i : ℕ} {d : Debt Raw} (hp : Settled c D (w, h)) (hfree : ∀ j, D j = .free)
    (hconf : w'.Conform (fun _ _ => True) (Owes c) (fun d _ => d = .free) (Function.update D i d))
    (hlt : i < w.threads.length) (hthreads : w.threads.length ≤ w'.threads.length)
    (hpeers : w.store.peers.length ≤ w'.store.peers.length)
    (howed : ∀ m ∈ d.owed, w'.store.registered m.1.sessionID m.1.role = some m.1)
    (hh : ∀ id, presenceOn id h' = [])
    (htruth : ∀ sessionID role q, w'.store.registered sessionID role = some q →
      Truthful c w'.store q (presenceOn q.id h ++ d.owedTo q.id)) :
    Settled c (Function.update D i d) (w', h ++ h') where
  conform := hconf
  one := by
    intro j k hjk
    by_cases hj : j = i
    · right
      rw [Function.update_of_ne (fun hk => hjk (hj.trans hk.symm))]
      exact hfree k
    · left
      rw [Function.update_of_ne hj]
      exact hfree j
  owed := by
    intro j m hm
    rw [Function.update_apply] at hm
    split_ifs at hm
    · exact howed m hm
    · rw [hfree] at hm
      cases hm
  truth := by
    refine ⟨i, fun j hj => ?_, fun sessionID role q hq => ?_⟩
    · rw [Function.update_of_ne hj, hfree]
      rfl
    · rw [Function.update_self, presenceOn_append, hh, List.append_nil]
      exact htruth sessionID role q hq
  unstarted := by
    intro j hj
    have hne : j ≠ i := (hlt.trans_le (hthreads.trans hj)).ne'
    rw [Function.update_of_ne hne]
    exact hfree j
  unused := fun id hid => by
    rw [presenceOn_append, hh, List.append_nil]
    exact hp.unused id (hpeers.trans hid)

/-- Only a message without a sender is one of presence. -/
theorem presenceOn_eventOf {i : ℕ} {a : Access Raw} (ha : ∀ p msg, a ≠ .enqueue p msg none) (id : ℕ) :
    presenceOn id (eventOf i a s).toList = [] := by
  cases he : eventOf i a s with
  | none => rfl
  | some e =>
    cases e with
    | put j q msg sender =>
      cases sender with
      | none => exact absurd (eventOf_put he).2.1 (ha q msg)
      | some sender => rfl
    | _ => rfl

/-- While nobody owes anything, the peers of the other rooms have been told the truth. -/
theorem Settled.elsewhere (hp : Settled c D (w, h)) (hfree : ∀ j, D j = .free) {sessionID : String}
    {role : Role} {q : Peer} (hq : w.store.registered sessionID role = some q) :
    Truthful c w.store q (presenceOn q.id h) := by
  obtain ⟨i, -, htruth⟩ := hp.truth
  have hq := htruth sessionID role q hq
  rwa [hfree, owedTo_nil rfl, List.append_nil] at hq

theorem truthful_congr {s' : Store Raw} {q : Peer} {msgs : List Raw} (hq : Truthful c s q msgs)
    (hreg : s'.registered q.sessionID q.role.other = s.registered q.sessionID q.role.other) :
    Truthful c s' q msgs := by
  rwa [Truthful, hreg]

/-- `Join` with a new peer: it owes to both, or the peer is alone. -/
theorem truthful_join (hp : Settled c D (w, h)) (hrep : Represents w.store) (hfree : ∀ j, D j = .free)
    {sessionID : String} {role : Role} {d : Debt Raw}
    (hd : d.owed = ((w.store.registered sessionID role.other).map fun o =>
      [(o, control c sessionID kindPeerJoined role.name),
        (⟨w.store.peers.length, sessionID, role⟩, control c sessionID kindPeerJoined role.other.name)]).getD [])
    (hreg : ∀ sessionID' role', s.registered sessionID' role' =
      if sessionID' = sessionID ∧ role' = role then some ⟨w.store.peers.length, sessionID, role⟩
      else w.store.registered sessionID' role')
    {sessionID' : String} {role' : Role} {q : Peer} (hq : s.registered sessionID' role' = some q) :
    Truthful c s q (presenceOn q.id h ++ d.owedTo q.id) := by
  have hother : s.registered sessionID role.other = w.store.registered sessionID role.other := by
    rw [hreg, if_neg fun hsame => role.other_ne hsame.2]
  have hself : s.registered sessionID role = some ⟨w.store.peers.length, sessionID, role⟩ := by
    rw [hreg, if_pos ⟨rfl, rfl⟩]
  by_cases hnew : sessionID' = sessionID ∧ role' = role
  · -- the new peer
    rw [hreg, if_pos hnew] at hq
    obtain rfl := Option.some.inj hq
    have hnone : presenceOn w.store.peers.length h = [] := hp.unused _ (Nat.le_refl _)
    cases ho : w.store.registered sessionID role.other with
    | none =>
      rw [ho] at hd hother
      simp [Truthful, hnone, hother, owedTo_nil hd]
    | some o =>
      rw [ho] at hd hother
      have hne : o.id ≠ w.store.peers.length := Nat.ne_of_lt (hrep.bound _ _ _ ho)
      simp [Truthful, hnone, hother, Debt.owedTo, hd, hne]
  · rw [hreg, if_neg hnew] at hq
    obtain ⟨rfl, rfl⟩ := hrep.keys _ _ _ hq
    have hne : q.id ≠ w.store.peers.length := Nat.ne_of_lt (hrep.bound _ _ _ hq)
    by_cases hsid : q.sessionID = sessionID
    · -- the other peer of the room
      have hrole : q.role = role.other := Role.eq_other fun heq => hnew ⟨hsid, heq⟩
      rw [hsid, hrole] at hq
      rw [hq] at hd
      simp [Truthful, Debt.owedTo, hd, hsid, hrole, hself, hne.symm]
    · have hnothing : d.owedTo q.id = [] := by
        cases ho : w.store.registered sessionID role.other with
        | none =>
          rw [ho] at hd
          exact owedTo_nil hd q.id
        | some o =>
          have hoid : o.id ≠ q.id := by
            intro hid
            obtain rfl := hrep.unique _ _ _ _ _ _ ho hq hid
            exact hsid (hrep.keys _ _ _ ho).1
          rw [ho] at hd
          simp [Debt.owedTo, hd, hoid, hne.symm]
      rw [hnothing, List.append_nil]
      refine truthful_congr (hp.elsewhere hfree hq) ?_
      rw [hreg, if_neg fun hsame => hsid hsame.1]

/-- `Leave` of a peer in the map: it owes to the other peer. -/
theorem truthful_leave (hne : ∀ sessionID role role',
      control c sessionID kindPeerLeft role ≠ control c sessionID kindPeerJoined role')
    (hp : Settled c D (w, h)) (hrep : Represents w.store) (hfree : ∀ j, D j = .free) {p : Peer}
    {d : Debt Raw} (hd : d.owed = ((w.store.registered p.sessionID p.role.other).map fun o =>
      (o, control c p.sessionID kindPeerLeft p.role.name)).toList)
    (hreg : ∀ sessionID role, s.registered sessionID role =
      if sessionID = p.sessionID ∧ role = p.role then none else w.store.registered sessionID role)
    {sessionID : String} {role : Role} {q : Peer} (hq : s.registered sessionID role = some q) :
    Truthful c s q (presenceOn q.id h ++ d.owedTo q.id) := by
  have hself : s.registered p.sessionID p.role = none := by rw [hreg, if_pos ⟨rfl, rfl⟩]
  rw [hreg] at hq
  split_ifs at hq with hleft
  obtain ⟨rfl, rfl⟩ := hrep.keys _ _ _ hq
  by_cases hsid : q.sessionID = p.sessionID
  · have hrole : q.role = p.role.other := Role.eq_other fun heq => hleft ⟨hsid, heq⟩
    rw [hsid, hrole] at hq
    rw [hq] at hd
    simp [Truthful, Debt.owedTo, hd, hsid, hrole, hself, hne]
  · have hnothing : d.owedTo q.id = [] := by
      cases ho : w.store.registered p.sessionID p.role.other with
      | none =>
        rw [ho] at hd
        exact owedTo_nil hd q.id
      | some o =>
        have hoid : o.id ≠ q.id := by
          intro hid
          obtain rfl := hrep.unique _ _ _ _ _ _ ho hq hid
          exact hsid (hrep.keys _ _ _ ho).1
        rw [ho] at hd
        simp [Debt.owedTo, hd, hoid]
    rw [hnothing, List.append_nil]
    refine truthful_congr (hp.elsewhere hfree hq) ?_
    rw [hreg, if_neg fun hsame => hsid hsame.1]

/-- A presence message finds room on the queue of a peer in the map. -/
theorem enqueue_roomy (hrep : Represents s) {o : Peer} (msg : Raw)
    (ho : s.registered o.sessionID o.role = some o)
    (hroom : ∀ st ∈ s.peers[o.id]?, st.out.msgs.length < outboundBuffer) :
    (s.enqueue o msg).1 = true := by
  have hlt := hrep.bound _ _ _ ho
  have hst := List.getElem?_eq_getElem hlt
  have hopen := hrep.opened _ _ _ ho _ hst
  have hqueue := hrep.queues _ (List.getElem_mem hlt)
  rw [hopen] at hqueue
  simp [Store.enqueue, hst, hopen, hqueue, hroom _ hst]

/-- The connection pays: the message goes from what it owes to the queue. -/
theorem Settled.pay {i : ℕ} {o : Peer} {msg : Raw} {owed : List (Peer × Raw)} (hp : Settled c D (w, h))
    (hrep : Represents w.store) (hD : D i = ⟨none, (o, msg) :: owed⟩)
    (hconf : w'.Conform (fun _ _ => True) (Owes c) (fun d _ => d = .free) (Function.update D i ⟨none, owed⟩))
    (hstore : w'.store = (w.store.enqueue o msg).2) (hthreads : w.threads.length ≤ w'.threads.length) :
    Settled c (Function.update D i ⟨none, owed⟩) (w', h ++ [.put i o msg none]) := by
  have hquiet := quiet_enqueue hrep o msg
  rw [← hstore] at hquiet
  have hreg := hquiet.registered
  have ho := hp.owed i (o, msg) (by rw [hD]; exact List.mem_cons_self)
  have hput (id : ℕ) : presenceOn id [.put i o msg none] = if o.id = id then [msg] else [] := by
    simp only [presenceOn, List.filterMap_cons, List.filterMap_nil]
    split_ifs <;> rfl
  have hother (j : ℕ) (hj : j ≠ i) : D j = .free := by
    rcases hp.one i j (Ne.symm hj) with hi | hi
    · rw [hD] at hi
      cases hi
    · exact hi
  refine ⟨hconf, ?_, ?_, ?_, ?_, ?_⟩
  · intro j k hjk
    by_cases hj : j = i
    · right
      rw [Function.update_of_ne (fun hk => hjk (hj.trans hk.symm))]
      exact hother k fun hk => hjk (hj.trans hk.symm)
    · left
      rw [Function.update_of_ne hj]
      exact hother j hj
  · intro j m hm
    rw [hreg]
    rw [Function.update_apply] at hm
    split_ifs at hm with hj
    · exact hp.owed i m (by rw [hD]; exact List.mem_cons_of_mem _ hm)
    · exact hp.owed j m hm
  · obtain ⟨k, hothers, htruth⟩ := hp.truth
    have hk : k = i := by
      by_contra hne
      have hnil := hothers i (Ne.symm hne)
      rw [hD] at hnil
      cases hnil
    subst hk
    refine ⟨k, fun j hj => ?_, fun sessionID role q hq => ?_⟩
    · rw [Function.update_of_ne hj, hother j hj]
      rfl
    · rw [hreg] at hq
      have hq := htruth sessionID role q hq
      rw [hD] at hq
      rw [Function.update_self, presenceOn_append, hput, List.append_assoc]
      refine truthful_congr ?_ (hreg _ _)
      have howedTo : (⟨none, (o, msg) :: owed⟩ : Debt Raw).owedTo q.id =
          (if o.id = q.id then [msg] else []) ++ (⟨none, owed⟩ : Debt Raw).owedTo q.id := by
        simp only [Debt.owedTo, List.filterMap_cons]
        split_ifs <;> rfl
      rwa [howedTo] at hq
  · intro j hj
    by_cases hji : j = i
    · have hfree := hp.unstarted j (hthreads.trans hj)
      rw [hji, hD] at hfree
      cases hfree
    · rw [Function.update_of_ne hji]
      exact hother j hji
  · intro id hid
    have hlt := hrep.bound _ _ _ ho
    have hid : w'.store.peers.length ≤ id := hid
    rw [hquiet.length] at hid
    rw [presenceOn_append, hput, hp.unused id hid, if_neg (hlt.trans_le hid).ne]
    rfl

/-- The connection runs its next section. -/
theorem Settled.advance (hne : ∀ sessionID role role',
      control c sessionID kindPeerLeft role ≠ control c sessionID kindPeerJoined role')
    (hp : Settled c D (w, h)) (hrep : Represents w.store) {i : ℕ} {a : Access Raw} {d' : Debt Raw}
    {threads : List (Thread (Request Raw) (@Reply Raw) Unit)} (hlt : i < w.threads.length)
    (hw : w' = ⟨(exec () a w.store).2, threads⟩) (hthreads : threads.length = w.threads.length)
    (hnext : Owes c (D i) a (exec () a w.store).1 d')
    (hconf : w'.Conform (fun _ _ => True) (Owes c) (fun d _ => d = .free) (Function.update D i d'))
    (hlock : a.locks = true → ∀ j, D j = .free)
    (hroom : ∀ p msg, a = .enqueue p msg none →
      ∀ st ∈ w.store.peers[p.id]?, st.out.msgs.length < outboundBuffer) :
    Settled c (Function.update D i d') (w', h ++ (eventOf i a w.store).toList) := by
  subst hw
  have hlen : w.threads.length ≤ threads.length := hthreads.ge
  -- a section that leaves the map and says nothing
  have hquiet (hD : D i = .free → d' = .free) (howed : d'.owed = (D i).owed)
      (hspeaks : ∀ p msg, a ≠ .enqueue p msg none)
      (hreg : ∀ sessionID role,
        (exec () a w.store).2.registered sessionID role = w.store.registered sessionID role)
      (hpeers : w.store.peers.length ≤ (exec () a w.store).2.peers.length) :
      Settled c (Function.update D i d') (⟨(exec () a w.store).2, threads⟩, h ++ (eventOf i a w.store).toList) := by
    refine hp.quiet hconf hreg hpeers hlen (fun j => ?_) (fun j hj => ?_) (presenceOn_eventOf hspeaks)
    · by_cases hji : j = i
      · rw [hji, Function.update_self, howed]
      · rw [Function.update_of_ne hji]
    · by_cases hji : j = i
      · rw [hji, Function.update_self]
        exact hD (hji ▸ hj)
      · rwa [Function.update_of_ne hji]
  generalize hDi : D i = d at hnext hquiet
  generalize hr : (exec () a w.store).1 = r at hnext
  cases hnext with
  | refused sessionID role =>
    obtain ⟨hpeers, hreg⟩ := join_none hr
    exact hquiet id rfl (by simp) hreg (congrArg List.length hpeers).ge
  | alone sessionID role p =>
    obtain ⟨rfl, ho, hpeers, hreg⟩ := join_some hr
    refine hp.enter (hlock rfl) hconf hlt hlen (by simp [exec, hpeers])
      (fun _ hm => absurd hm List.not_mem_nil)
      (presenceOn_eventOf (by simp)) fun sessionID' role' q hq => ?_
    refine truthful_join hp hrep (hlock rfl) ?_ hreg hq
    rw [← ho]
    rfl
  | joined sessionID role p o =>
    obtain ⟨rfl, ho, hpeers, hreg⟩ := join_some hr
    have hkeys := hrep.keys _ _ _ ho.symm
    refine hp.enter (hlock rfl) hconf hlt hlen (by simp [exec, hpeers]) ?_
      (presenceOn_eventOf (by simp)) fun sessionID' role' q hq => ?_
    · intro m hm
      rw [List.mem_pair] at hm
      rcases hm with rfl | rfl
      · show (w.store.join sessionID role).2.registered o.sessionID o.role = some o
        rw [hreg, hkeys.1, hkeys.2, if_neg fun hsame => role.other_ne hsame.2, ho]
      · show (w.store.join sessionID role).2.registered sessionID role = _
        rw [hreg, if_pos ⟨rfl, rfl⟩]
    · refine truthful_join hp hrep (hlock rfl) ?_ hreg hq
      rw [← ho]
      rfl
  | finds q =>
    have hs : (w.store.leave q).2 = w.store := leave_none hr
    exact hquiet id rfl (by simp) (fun _ _ => by rw [exec, hs]) (by rw [exec, hs])
  | removes q other =>
    obtain ⟨ho, hself, hpeers, hreg⟩ := leave_some hr
    refine hp.enter (hlock rfl) hconf hlt hlen (by simp [exec, hpeers]) ?_
      (presenceOn_eventOf (by simp)) fun sessionID' role' q' hq => ?_
    · intro m hm
      simp only [Option.mem_toList, Option.map_eq_some_iff] at hm
      obtain ⟨o, rfl, rfl⟩ := hm
      have hkeys := hrep.keys _ _ _ ho.symm
      show (w.store.leave q).2.registered o.sessionID o.role = some o
      rw [hreg, hkeys.1, hkeys.2, if_neg fun hsame => q.role.other_ne hsame.2, ho]
    · refine truthful_leave hne hp hrep (hlock rfl) ?_ hreg hq
      rw [← ho]
  | closes q owed =>
    have hreg : ∀ sessionID role, (w.store.close q).registered sessionID role =
        w.store.registered sessionID role := by
      intro sessionID role
      rw [Store.registered, close_rooms]
      rfl
    refine hquiet (fun hfree => by cases hfree) rfl (by simp) hreg ?_
    rcases close_cases hrep q with ⟨hs, -⟩ | ⟨st, -, -, hs⟩
    · exact (congrArg (fun s : Store Raw => s.peers.length) hs).ge
    · have hlength := congrArg (fun s : Store Raw => s.peers.length) hs
      rw [Store.set, List.length_set] at hlength
      exact hlength.ge
  | announces o msg owed r =>
    have ho := hp.owed i (o, msg) (by rw [hDi]; exact List.mem_cons_self)
    have hput := enqueue_roomy hrep msg ho (hroom o msg rfl)
    have hev : eventOf i (.enqueue o msg none) w.store = some (.put i o msg none) := by
      rw [eventOf, if_pos hput]
    rw [hev]
    exact hp.pay hrep hDi hconf rfl hlen
  | targets p r => exact hquiet id rfl (by simp) (fun _ _ => rfl) (Nat.le_refl _)
  | relays p msg q r =>
    have hs := quiet_enqueue hrep p msg
    exact hquiet id rfl (by simp) hs.registered hs.length.ge
  | accepts p nonce r =>
    have hs := quiet_accept w.store p nonce
    exact hquiet id rfl (by simp) hs.registered hs.length.ge
  | reads p => exact hquiet id rfl (by simp) (fun _ _ => rfl) (Nat.le_refl _)

end Step

theorem sectionOf_advance {w : World Raw} {i : ℕ} {q : Request Raw} {a : Access Raw}
    {k : Reply a → Handler Raw Unit} (h : w.threads[i]? = some ⟨q, .call a k⟩) (e : Unit) :
    sectionOf w (.advance i e) = some a := by
  rw [sectionOf, h]
  rfl

theorem settled_step (hne : ∀ sessionID role role',
      control c sessionID kindPeerLeft role ≠ control c sessionID kindPeerJoined role')
    {D : ℕ → Debt Raw} {p : World Raw × List (Event Raw)} (hp : Settled c D p)
    (hrep : Represents p.1.store) {l : Step Raw} (hexcl : Exclusive p.1 l) (hroom : Roomy p.1 l) :
    ∃ D', Settled c D' (Run.observe (hub c).step event p l) := by
  obtain ⟨w, h⟩ := p
  unfold Run.observe
  have hfree := hp.free
  rcases (hub c).conform_cases hp.conform (fun q _ => pays_start c q) (fun _ _ => trivial) l with
    ⟨i, e, rfl, hnone, hw⟩ | ⟨q, e, rfl, hw, hconf⟩ | ⟨i, e, q, a, k, d', rfl, hi, hw, hnext, hconf⟩ |
    ⟨id, rfl, hw, hconf⟩
  · have hev : event w (.advance i e) = none := by
      unfold event
      dsimp only
      split
      · rename_i q a k hi
        exact absurd hi (hnone q a k)
      · rfl
    rw [hw, hev, Option.toList_none, List.append_nil]
    exact ⟨D, hp⟩
  · have hfresh := hp.unstarted w.threads.length (Nat.le_refl _)
    have hD : Function.update D w.threads.length .free = D := by
      rw [← hfresh, Function.update_eq_self]
    rw [hD] at hconf
    refine ⟨D, hp.quiet hconf ?_ ?_ ?_ (fun _ => rfl) (fun _ => id) fun _ => rfl⟩
    · rw [hw]
      exact fun _ _ => rfl
    · rw [hw]
    · rw [hw]
      simp
  · have hsection := sectionOf_advance hi e
    simp only [Exclusive, Roomy, hsection] at hexcl hroom
    have hev : event w (.advance i e) = eventOf i a w.store := by simp only [event, hi]
    rw [hev]
    have hlt := (List.getElem?_eq_some_iff.1 hi).1
    refine ⟨_, hp.advance hne hrep hlt hw (List.length_set ..) hnext hconf (fun ha => hfree (hexcl ha)) ?_⟩
    rintro o msg rfl
    exact hroom
  · have hs := quiet_drain w.store id
    refine ⟨D, hp.quiet hconf ?_ ?_ ?_ (fun _ => rfl) (fun _ hD => hD) fun _ => rfl⟩
    · rw [hw]
      exact hs.registered
    · rw [hw]
      exact hs.length.ge
    · rw [hw]

/-! ### The result -/

theorem left_ne_joined (go : Json.Library Raw) (sessionID role role' : String) :
    control (codec go) sessionID kindPeerLeft role ≠ control (codec go) sessionID kindPeerJoined role' := by
  intro h
  have hparse := congrArg go.parse h
  simp [control, codec, go.parse_text, kindPeerLeft, kindPeerJoined] at hparse

/-- In a run in which every presence message finds room on the queue, the peers have been told the truth
whenever the lock is free. -/
theorem coherent_of_roomy (go : Json.Library Raw) {l : List (Step Raw)}
    (h : Run.Guarded (hub (codec go)).step (fun w l => Exclusive w l ∧ Roomy w l) fresh l) :
    Run.Always (Run.observe (hub (codec go)).step event)
      (fun p => lockFree p.1 = true → Coherent (codec go) p) (fresh, []) l := by
  have hinit : Settled (codec go) (fun _ => .free) ((fresh, []) : World Raw × List (Event Raw)) :=
    { conform := by
        intro i q prog hi
        cases hi
      one := fun _ _ _ => .inl rfl
      owed := by
        intro i m hm
        cases hm
      truth := ⟨0, fun _ _ => rfl, by
        intro sessionID role q hq
        cases hq⟩
      unstarted := fun _ _ => rfl
      unused := fun _ _ => rfl }
  refine ((h.observe event []).always (I := fun p : World Raw × List (Event Raw) =>
    (∃ X, Kept (codec go) X p) ∧ ∃ D, Settled (codec go) D p) ?_ ⟨?_, _, hinit⟩).mono ?_
  · rintro p l ⟨⟨X, hk⟩, D, hp⟩ ⟨hexcl, hroom⟩
    exact ⟨kept_step hk l, settled_step (left_ne_joined go) hp hk.rep hexcl hroom⟩
  · exact kept_run (codec go) []
  · rintro ⟨w, h⟩ ⟨-, D, hp⟩ hw sessionID role q hq
    exact hp.elsewhere (hp.free hw) hq

/-- The phone joins, and the agent joins and leaves. -/
def passes : List (Step Json) :=
  [.spawn (.serve "s1" .controller []) (), .advance 0 (), .spawn (.serve "s1" .agent []) ()] ++
    List.replicate 6 (.advance 1 ())

theorem passes_coherent : Run.Always (Run.observe (hub (codec Json.documents)).step event)
    (fun p => lockFree p.1 = true → Coherent (codec Json.documents) p) (fresh, []) passes :=
  coherent_of_roomy _ (by decide +kernel)

/-! ### A message that is lost -/

/-- The phone does not take its messages. The agent joins it, fills its queue with candidates, and
leaves. -/
def floods : List (Step Json) :=
  [.spawn (.serve "s1" .controller []) (), .advance 0 (),
    .spawn (.serve "s1" .agent ((List.range (outboundBuffer - 1)).map fun n =>
      .text (message (n + 1) [("kind", .str "ice_candidate")]))) ()] ++
    List.replicate (3 + 4 * (outboundBuffer - 1) + 3) (.advance 1 ())

set_option maxRecDepth 20000 in
theorem full_queue_misleads :
    Run.Guarded (hub (codec Json.documents)).step Exclusive fresh floods ∧
      ¬ Run.Always (Run.observe (hub (codec Json.documents)).step event)
        (fun p => lockFree p.1 = true → Coherent (codec Json.documents) p) (fresh, []) floods := by
  refine ⟨by decide +kernel, fun h => ?_⟩
  have hend : lockFree (run (codec Json.documents) floods).1 = true ∧
      (run (codec Json.documents) floods).1.store.registered "s1" .controller =
        some ⟨0, "s1", .controller⟩ ∧
      (run (codec Json.documents) floods).1.store.registered "s1" .agent = none := by decide +kernel
  have hlast := h.last hend.1 "s1" .controller ⟨0, "s1", .controller⟩ hend.2.1
  have hput : (presenceOn 0 (run (codec Json.documents) floods).2).getLast? =
      some (control (codec Json.documents) "s1" kindPeerJoined "agent") := by rfl
  exact hlast.1 hput hend.2.2

end DeskSync.Signaling
