import DeskSync.Signaling.Relay
import DeskSync.Signaling.Json
import DeskSync.Agent.Json
import DeskSync.Agent.Outbound

/-!
# The agent's nonces at the hub

The agent's two sending tasks, its socket and the reader of its connection in the hub. A task takes a
nonce and writes its envelope in two steps; the socket is a queue; the reader dispatches one envelope
after the other. The other connections of the hub come in as `Interference`: between any two sections of
`Dispatch` they may do anything to the hub but touch the nonce guard of the agent's peer, which is what
`guard_exec` says of them.

`accepted_of_inTurn`: if no task writes its envelope while the other holds one with a smaller nonce,
every message of the agent is dispatched and none is rejected. `overtaken_candidate`: a task that
overtakes the other one has it rejected, and the connection with it.
-/

namespace DeskSync.Session

open Agent (SignalPayload SignalEnvelope WebSocketSignaling Task)
open Signaling (Access Codec DispatchResult Envelope Handler NonceGuard ParsedFor Peer Reply Role Store
  codec dispatch leave parse relay unmarshalEnvelope unmarshalField unmarshalKind unmarshalKindField)
open Json (agrees)
open Proc

variable {Raw : Type} {go : Json.Library Raw}

/-! ### The hub reads what the agent writes -/

theorem unmarshal_toJson (go : Json.Library Raw) (e : SignalEnvelope) :
    unmarshalEnvelope go (go.text e.toJson) =
      some ⟨e.v, e.nonce, e.tsMs, e.sessionID, some (go.text e.payload.toJson)⟩ := by
  have hv : (Json.num (.int false e.v.toNat)).uint UInt8.size = some e.v.toNat :=
    Json.uint_num e.v.toNat_lt_size
  have hnonce : (Json.num (.int false e.nonce.toNat)).uint UInt64.size = some e.nonce.toNat :=
    Json.uint_num e.nonce.toNat_lt_size
  have hts : (Json.num (.int false e.tsMs.toNat)).uint UInt64.size = some e.tsMs.toNat :=
    Json.uint_num e.tsMs.toNat_lt_size
  have hagrees : ∀ name ∈ ["v", "nonce", "ts_ms", "session_id", "payload"],
      ∀ key ∈ ["v", "nonce", "ts_ms", "session_id", "payload"],
        agrees name key = decide (name = key) := by decide
  simp only [List.forall_mem_cons, List.not_mem_nil, IsEmpty.forall_iff, implies_true, and_true]
    at hagrees
  simp [unmarshalEnvelope, go.parse_text, SignalEnvelope.toJson, SignalEnvelope.header,
    unmarshalField, hagrees, hv, hnonce, hts, Json.isNull, Json.string]

theorem kind_toJson (go : Json.Library Raw) (e : Envelope Raw) (p : SignalPayload)
    (h : e.payload = some (go.text p.toJson)) : e.kind (codec go) = p.kind := by
  have hfields : ∀ f ∈ p.fields, agrees "kind" f.1 = false := by
    cases p <;> simp only [SignalPayload.fields, List.forall_mem_cons, List.not_mem_nil,
      IsEmpty.forall_iff, implies_true, and_true] <;> decide
  have hfold (fields : List (String × Json)) (hf : ∀ f ∈ fields, agrees "kind" f.1 = false) :
      fields.foldlM unmarshalKindField p.kind = some p.kind := by
    induction fields with
    | nil => rfl
    | cons f fields ih =>
      have hhead : unmarshalKindField p.kind f = some p.kind := by
        simp [unmarshalKindField, hf f (by simp)]
      simp [hhead, ih fun f hmem => hf f (by simp [hmem])]
  have htag : unmarshalKindField "" ("kind", .str p.kind) = some p.kind := by
    simp [unmarshalKindField, show agrees "kind" "kind" = true by decide, Json.isNull, Json.string]
  simp [Envelope.kind, h, codec, unmarshalKind, go.parse_text, SignalPayload.toJson, htag,
    hfold p.fields hfields]

/-! ### The system -/

/-- What the other connections do to the hub while the peer's message is dispatched: anything but to its
nonce guard. -/
structure Interference (p : Peer) (Raw : Type) where
  act : Store Raw → Store Raw
  keeps : ∀ s g, s.guard p.id = some g → (act s).guard p.id = some g

/-- Every section but those on the guard is one; the other connections have other peers. -/
def Interference.ofSection {p : Peer} (a : Access Raw)
    (ha : ∀ q nonce, a = .accept q nonce → q.id ≠ p.id) : Interference p Raw where
  act s := (Signaling.exec () a s).2
  keeps s g hg := by
    obtain ⟨st, hst, -⟩ := Option.map_eq_some_iff.1 hg
    rw [Signaling.guard_exec (List.getElem?_eq_some_iff.1 hst).1 ha]
    exact hg

/-- A section of `Dispatch`, after what the others have done. -/
def execAfter (p : Peer) (others : Interference p Raw) (a : Access Raw) (s : Store Raw) :
    Reply a × Store Raw :=
  Signaling.exec () a (others.act s)

/-- The agent, what it has written and the hub has not read, and the hub; `connected` until the reader
has ended. -/
structure World (Raw : Type) where
  agent : WebSocketSignaling
  socket : List SignalEnvelope := []
  store : Store Raw
  connected : Bool := true

inductive Step (p : Peer) (Raw : Type)
  /-- `event_task` takes the nonce for a local candidate. -/
  | gathers (candidate : String) (sdpMLineIndex : UInt16) (nowMs : UInt64)
  /-- `signaling_loop` takes the nonce for an answer. -/
  | answers (sdp : String) (nowMs : UInt64)
  /-- A task has the write lock and writes its envelope. -/
  | writes (task : Task)
  /-- Sending the envelope fails. -/
  | fails (task : Task)
  /-- The reader takes the next envelope and dispatches it. -/
  | dispatches (others : ℕ → Interference p Raw)

inductive Event
  | wrote (e : SignalEnvelope)
  | dispatched (e : SignalEnvelope) (result : DispatchResult)
  deriving DecidableEq

/-- `Dispatch` of an envelope of the agent. -/
def received (go : Json.Library Raw) (p : Peer) (others : ℕ → Interference p Raw) (e : SignalEnvelope)
    (s : Store Raw) : DispatchResult × Store Raw :=
  (dispatch (codec go) p (go.text e.toJson)).run (execAfter p) others s

def step (go : Json.Library Raw) {p : Peer} (w : World Raw) : Step p Raw → World Raw
  | .gathers candidate sdpMLineIndex nowMs =>
    { w with agent := w.agent.begins .event (.iceCandidate candidate sdpMLineIndex) nowMs }
  | .answers sdp nowMs => { w with agent := w.agent.begins .signalingLoop (.answer sdp) nowMs }
  | .writes task =>
    match w.agent.held task with
    | none => w
    | some e => { w with agent := w.agent.done task, socket := w.socket ++ [e] }
  | .fails task => { w with agent := w.agent.done task }
  | .dispatches others =>
    match w.connected, w.socket with
    | true, e :: socket =>
      let (result, store) := received go p others e w.store
      { w with socket, store, connected := result = .continue }
    | _, _ => w

def event (go : Json.Library Raw) {p : Peer} (w : World Raw) : Step p Raw → Option Event
  | .writes task => (w.agent.held task).map .wrote
  | .dispatches others =>
    match w.connected, w.socket with
    | true, e :: _ => some (.dispatched e (received go p others e w.store).1)
    | _, _ => none
  | _ => none

/-- The hub when the agent has joined it as `p`; the session has a name. -/
structure Joined (p : Peer) (Raw : Type) where
  store : Store Raw
  guard : store.guard p.id = some {}
  named : p.sessionID ≠ ""

variable {p : Peer}

def Joined.world (k : Joined p Raw) : World Raw where
  agent := { sessionID := p.sessionID }
  store := k.store

def run (go : Json.Library Raw) (k : Joined p Raw) (l : List (Step p Raw)) : World Raw × List Event :=
  Run.exec (Run.observe (step go) (event go)) (k.world, []) l

def written : Event → Option SignalEnvelope
  | .wrote e => some e
  | _ => none

def arrived : Event → Option SignalEnvelope
  | .dispatched e _ => some e
  | _ => none

/-- The envelopes arrive as they are written, with increasing nonces, and none is rejected. -/
structure Accepted (p : World Raw × List Event) : Prop where
  increasing : (p.2.filterMap written).Pairwise (·.nonce < ·.nonce)
  fifo : p.2.filterMap written = p.2.filterMap arrived ++ p.1.socket
  continues : ∀ e result, .dispatched e result ∈ p.2 → result = .continue
  connected : p.1.connected = true

/-- A task writes its envelope while the other one holds none with a smaller nonce, and the counter does
not wrap. -/
def InTurn (w : World Raw × List Event) : Step p Raw → Prop
  | .gathers .. => w.1.agent.nonce ≠ 0xffffffffffffffff
  | .answers .. => w.1.agent.nonce ≠ 0xffffffffffffffff
  | .writes task => ∀ e ∈ w.1.agent.held task, ∀ other, ∀ e' ∈ w.1.agent.held other, e.nonce ≤ e'.nonce
  | _ => True

/-! ### One message -/

/-- The envelope is one the agent sends on its connection. -/
structure Mine (p : Peer) (e : SignalEnvelope) : Prop where
  v : e.v = 1
  session : e.sessionID = p.sessionID
  kind : e.payload.kind = Signaling.kindAnswer ∨ e.payload.kind = Signaling.kindICECandidate

theorem parse_toJson (go : Json.Library Raw) (hp : p.sessionID ≠ "") {e : SignalEnvelope} (he : Mine p e) :
    ∃ env, parse (codec go) (go.text e.toJson) = some env ∧ env.sessionID = p.sessionID ∧
      env.nonce = e.nonce ∧ env.kind (codec go) = e.payload.kind := by
  refine ⟨⟨e.v, e.nonce, e.tsMs, e.sessionID, some (go.text e.payload.toJson)⟩, ?_, he.session, rfl,
    kind_toJson go _ e.payload rfl⟩
  have hread : (codec go).unmarshalEnvelope (go.text e.toJson) = _ := unmarshal_toJson go e
  simp [parse, hread, he.v, he.session, hp, Signaling.version]

/-- What relaying does not do. -/
theorem only_relay (c : Codec Raw) (p : Peer) (raw : Raw) :
    (relay c p raw).Only fun a => ∀ q nonce, a ≠ .accept q nonce := by
  have hleave (q : Peer) : (leave c q).Only fun a => ∀ q' nonce, a ≠ .accept q' nonce := by
    refine ⟨by simp, fun left => ?_⟩
    cases left with
    | none => trivial
    | some other =>
      refine ⟨by simp, fun _ => ?_⟩
      cases other with
      | none => trivial
      | some o => exact ⟨by simp, fun _ => trivial⟩
  refine ⟨by simp, fun target => ?_⟩
  cases target with
  | none => trivial
  | some t =>
    refine ⟨by simp, fun queued => ?_⟩
    cases queued with
    | true => trivial
    | false => exact hleave t

/-- A section that is not on the guard keeps it, whatever the others do before. -/
theorem guard_execAfter {others : Interference p Raw} {a : Access Raw} {s : Store Raw} {g : NonceGuard}
    (ha : ∀ q nonce, a ≠ .accept q nonce) (hg : s.guard p.id = some g) :
    (execAfter p others a s).2.guard p.id = some g :=
  (Interference.ofSection a fun q nonce heq => absurd heq (ha q nonce)).keeps _ _ (others.keeps s g hg)

/-- `Dispatch` of an envelope with a nonce above those accepted before. -/
theorem received_continue (go : Json.Library Raw) (hp : p.sessionID ≠ "")
    (others : ℕ → Interference p Raw) {e : SignalEnvelope} (he : Mine p e) {s : Store Raw} {g : NonceGuard}
    (hg : s.guard p.id = some g) (habove : g.hasLast = true → g.last < e.nonce) :
    (received go p others e s).1 = .continue ∧
      (received go p others e s).2.guard p.id = some ⟨e.nonce, true⟩ := by
  obtain ⟨env, hparse, hsession, hnonce, hkind⟩ := parse_toJson go hp he
  have haccept : g.accept e.nonce = (true, ⟨e.nonce, true⟩) := by
    unfold NonceGuard.accept
    rw [if_neg]
    rintro ⟨hlast, hle⟩
    exact UInt64.not_le.2 (habove hlast) hle
  obtain ⟨hreply, hguard⟩ := Signaling.accept_guard ((others 0).keeps s g hg) e.nonce
  rw [haccept] at hreply hguard
  have hprog : ∃ k, dispatch (codec go) p (go.text e.toJson) = .call (.accept p e.nonce) k ∧
      k true = (do relay (codec go) p (go.text e.toJson); pure .continue) := by
    unfold dispatch
    rw [hparse]
    dsimp only
    rw [if_neg (not_not.2 hsession), hnonce]
    refine ⟨_, rfl, ?_⟩
    rcases he.kind with h | h <;> rw [hkind, h] <;> rfl
  obtain ⟨k, hk, hrelay⟩ := hprog
  have hrun : received go p others e s =
      (do relay (codec go) p (go.text e.toJson); pure .continue : Handler Raw DispatchResult).run
        (execAfter p) (fun n => others (n + 1)) (((others 0).act s).accept p e.nonce).2 := by
    rw [received, hk, Prog.run_call, ← hrelay]
    show (k (((others 0).act s).accept p e.nonce).1).run _ _ _ = _
    rw [hreply]
    rfl
  rw [hrun]
  constructor
  · have hpost : (do relay (codec go) p (go.text e.toJson); pure .continue :
        Handler Raw DispatchResult).Post (fun _ _ => True) (· = .continue) :=
      (Prog.post_true _).bind fun _ _ => rfl
    exact hpost.run (fun _ _ _ => trivial) _ _
  · have honly : (do relay (codec go) p (go.text e.toJson); pure .continue :
        Handler Raw DispatchResult).Only fun a => ∀ q nonce, a ≠ .accept q nonce :=
      (only_relay _ _ _).bind fun _ => trivial
    have halong (s : Store Raw) : Prog.Along (execAfter p) (fun _ a _ => ∀ q nonce, a ≠ .accept q nonce)
        (fun n => others (n + 1))
        (do relay (codec go) p (go.text e.toJson); pure .continue : Handler Raw DispatchResult) s :=
      honly.along (fun _ _ _ h => h) _ _
    refine (halong _).invariant (I := fun s : Store Raw => s.guard p.id = some ⟨e.nonce, true⟩) ?_ hguard
    exact fun _ a s ha hs => guard_execAfter ha hs

/-! ### The invariant -/

structure Kept (p : Peer) (w : World Raw × List Event) : Prop where
  connected : w.1.connected = true
  session : w.1.agent.sessionID = p.sessionID
  guard : ∃ g, w.1.store.guard p.id = some g ∧
    (g.hasLast = true → ∃ e ∈ w.2.filterMap arrived, e.nonce = g.last)
  fifo : w.2.filterMap written = w.2.filterMap arrived ++ w.1.socket
  increasing : (w.2.filterMap written).Pairwise (·.nonce < ·.nonce)
  sent : ∀ e ∈ w.2.filterMap written, Mine p e ∧ e.nonce ≤ w.1.agent.nonce
  continues : ∀ e result, .dispatched e result ∈ w.2 → result = .continue
  held : ∀ task, ∀ e ∈ w.1.agent.held task, Mine p e ∧ e.nonce ≤ w.1.agent.nonce ∧
    ∀ e' ∈ w.2.filterMap written, e'.nonce < e.nonce
  distinct : ∀ task other, task ≠ other → ∀ e ∈ w.1.agent.held task,
    ∀ e' ∈ w.1.agent.held other, e.nonce ≠ e'.nonce

theorem lt_add_one {n : UInt64} (h : n ≠ 0xffffffffffffffff) : n < n + 1 := by
  have hne : n.toNat ≠ 18446744073709551615 := fun heq => h (UInt64.toNat_inj.1 heq)
  have hlt := n.toNat_lt_size
  rw [UInt64.lt_iff_toNat_lt, UInt64.toNat_add]
  simp only [UInt64.size, UInt64.toNat_one] at hlt ⊢
  omega

section Steps
variable {w : World Raw} {h : List Event}

theorem Kept.begins (hw : Kept p (w, h)) {task : Task} {payload : SignalPayload}
    (hkind : payload.kind = Signaling.kindAnswer ∨ payload.kind = Signaling.kindICECandidate)
    (nowMs : UInt64) (hnonce : w.agent.nonce ≠ 0xffffffffffffffff) :
    Kept p ({ w with agent := w.agent.begins task payload nowMs }, h) := by
  unfold WebSocketSignaling.begins
  cases hheld : w.agent.held task with
  | some e => exact hw
  | none =>
    have hlt : w.agent.nonce < w.agent.nonce + 1 := lt_add_one hnonce
    have hle := UInt64.le_of_lt hlt
    dsimp only [WebSocketSignaling.nextNonce]
    have hcases {other : Task} {e : SignalEnvelope}
        (he : e ∈ Function.update w.agent.held task
          (some (SignalEnvelope.new w.agent.sessionID (w.agent.nonce + 1) nowMs payload)) other) :
        (other = task ∧ e.nonce = w.agent.nonce + 1 ∧ Mine p e) ∨
          (other ≠ task ∧ e ∈ w.agent.held other) := by
      rw [Function.update_apply] at he
      split_ifs at he with heq
      · obtain rfl := Option.some.inj he
        exact .inl ⟨heq, rfl, rfl, hw.session, hkind⟩
      · exact .inr ⟨heq, he⟩
    constructor
    · exact hw.connected
    · exact hw.session
    · exact hw.guard
    · exact hw.fifo
    · exact hw.increasing
    · exact fun e he => ⟨(hw.sent e he).1, UInt64.le_trans (hw.sent e he).2 hle⟩
    · exact hw.continues
    · intro other e he
      rcases hcases he with ⟨-, hn, hmine⟩ | ⟨-, he⟩
      · refine ⟨hmine, UInt64.le_of_eq hn, fun e' he' => ?_⟩
        rw [hn]
        exact UInt64.lt_of_le_of_lt (hw.sent e' he').2 hlt
      · obtain ⟨hmine, hcount, habove⟩ := hw.held other e he
        exact ⟨hmine, UInt64.le_trans hcount hle, habove⟩
    · intro task' other hne e he e' he'
      rcases hcases he with ⟨heq, hn, -⟩ | ⟨-, hold⟩ <;>
        rcases hcases he' with ⟨heq', hn', -⟩ | ⟨-, hold'⟩
      · exact absurd (heq.trans heq'.symm) hne
      · rw [hn]
        have hcount := UInt64.lt_of_le_of_lt (hw.held other e' hold').2.1 hlt
        exact (UInt64.ne_of_lt hcount).symm
      · rw [hn']
        have hcount := UInt64.lt_of_le_of_lt (hw.held task' e hold).2.1 hlt
        exact UInt64.ne_of_lt hcount
      · exact hw.distinct task' other hne e hold e' hold'

theorem held_done {agent : WebSocketSignaling} {task other : Task} {e : SignalEnvelope}
    (he : e ∈ (agent.done task).held other) : other ≠ task ∧ e ∈ agent.held other := by
  unfold WebSocketSignaling.done at he
  dsimp only at he
  rw [Function.update_apply] at he
  split_ifs at he with heq
  · cases he
  · exact ⟨heq, he⟩

theorem Kept.fails (hw : Kept p (w, h)) (task : Task) :
    Kept p ({ w with agent := w.agent.done task }, h) :=
  { hw with
    session := hw.session
    sent := hw.sent
    held := fun other e he => hw.held other e (held_done he).2
    distinct := fun task' other hne e he e' he' =>
      hw.distinct task' other hne e (held_done he).2 e' (held_done he').2 }

theorem Kept.writes (hw : Kept p (w, h)) {task : Task} {e : SignalEnvelope}
    (he : w.agent.held task = some e)
    (hturn : ∀ other, ∀ e' ∈ w.agent.held other, e.nonce ≤ e'.nonce) :
    Kept p ({ w with agent := w.agent.done task, socket := w.socket ++ [e] }, h ++ [.wrote e]) := by
  obtain ⟨hmine, hcount, habove⟩ := hw.held task e he
  have hwritten : (h ++ [Event.wrote e]).filterMap written = h.filterMap written ++ [e] := by
    simp [written]
  have harrived : (h ++ [Event.wrote e]).filterMap arrived = h.filterMap arrived := by
    simp [arrived]
  constructor
  · exact hw.connected
  · exact hw.session
  · dsimp only
    rw [harrived]
    exact hw.guard
  · dsimp only
    rw [hwritten, harrived, ← List.append_assoc, ← hw.fifo]
  · dsimp only
    rw [hwritten]
    refine List.pairwise_append.2 ⟨hw.increasing, List.pairwise_singleton _ _, fun e' he' e'' he'' => ?_⟩
    rw [List.mem_singleton.1 he'']
    exact habove e' he'
  · dsimp only
    rw [hwritten]
    intro e' he'
    rcases List.mem_append.1 he' with he' | he'
    · exact hw.sent e' he'
    · rw [List.mem_singleton.1 he']
      exact ⟨hmine, hcount⟩
  · intro e' result hmem
    rcases List.mem_append.1 hmem with hmem | hmem
    · exact hw.continues e' result hmem
    · cases List.mem_singleton.1 hmem
  · intro other e' he'
    obtain ⟨hne, he'⟩ := held_done he'
    obtain ⟨hmine', hcount', habove'⟩ := hw.held other e' he'
    refine ⟨hmine', hcount', ?_⟩
    dsimp only
    rw [hwritten]
    intro e'' he''
    rcases List.mem_append.1 he'' with he'' | he''
    · exact habove' e'' he''
    · -- the other task holds a nonce that is no smaller, and not the same one
      rw [List.mem_singleton.1 he'']
      exact UInt64.lt_of_le_of_ne (hturn other e' he') (hw.distinct task other (Ne.symm hne) e he e' he')
  · intro task' other hne e₁ he₁ e₂ he₂
    exact hw.distinct task' other hne e₁ (held_done he₁).2 e₂ (held_done he₂).2

theorem Kept.dispatches (hw : Kept p (w, h)) (go : Json.Library Raw) (hp : p.sessionID ≠ "")
    (others : ℕ → Interference p Raw) {e : SignalEnvelope} {socket : List SignalEnvelope}
    (hsocket : w.socket = e :: socket) :
    Kept p ({ w with socket := socket, store := (received go p others e w.store).2,
                     connected := (received go p others e w.store).1 = .continue },
      h ++ [.dispatched e (received go p others e w.store).1]) := by
  obtain ⟨g, hg, hlast⟩ := hw.guard
  have hfifo : h.filterMap written = h.filterMap arrived ++ e :: socket := by
    rw [← hsocket]
    exact hw.fifo
  have hmine : Mine p e := (hw.sent e (by rw [hfifo]; simp)).1
  have habove : g.hasLast = true → g.last < e.nonce := by
    intro htrue
    obtain ⟨e', he', hnonce⟩ := hlast htrue
    have hinc := hw.increasing
    dsimp only at hinc
    rw [hfifo] at hinc
    rw [← hnonce]
    exact (List.pairwise_append.1 hinc).2.2 e' he' e (by simp)
  obtain ⟨hresult, hguard⟩ := received_continue go hp others hmine hg habove
  have hwritten (r : DispatchResult) :
      (h ++ [Event.dispatched e r]).filterMap written = h.filterMap written := by
    simp [written]
  have harrived (r : DispatchResult) :
      (h ++ [Event.dispatched e r]).filterMap arrived = h.filterMap arrived ++ [e] := by
    simp [arrived]
  constructor
  · exact decide_eq_true hresult
  · exact hw.session
  · refine ⟨_, hguard, fun _ => ⟨e, ?_, rfl⟩⟩
    dsimp only
    rw [harrived]
    simp
  · dsimp only
    rw [hwritten, harrived, hfifo, List.append_assoc, List.singleton_append]
  · dsimp only
    rw [hwritten]
    exact hw.increasing
  · dsimp only
    rw [hwritten]
    exact hw.sent
  · intro e' result hmem
    rcases List.mem_append.1 hmem with hmem | hmem
    · exact hw.continues e' result hmem
    · cases List.mem_singleton.1 hmem
      exact hresult
  · dsimp only
    rw [hwritten]
    exact hw.held
  · exact hw.distinct

end Steps

theorem kept_step (go : Json.Library Raw) (hp : p.sessionID ≠ "") {w : World Raw × List Event}
    (hw : Kept p w) (a : Step p Raw) (hturn : InTurn w a) :
    Kept p (Run.observe (step go) (event go) w a) := by
  obtain ⟨w, h⟩ := w
  unfold Run.observe
  cases a with
  | gathers candidate sdpMLineIndex nowMs =>
    simpa [step, event] using hw.begins (.inr rfl) nowMs hturn
  | answers sdp nowMs => simpa [step, event] using hw.begins (.inl rfl) nowMs hturn
  | fails task => simpa [step, event] using hw.fails task
  | writes task =>
    cases he : w.agent.held task with
    | none => simpa [step, event, he] using hw
    | some e => simpa [step, event, he] using hw.writes he (hturn e he)
  | dispatches others =>
    have hconnected : w.connected = true := hw.connected
    cases hsocket : w.socket with
    | nil => simpa [step, event, hconnected, hsocket] using hw
    | cons e socket =>
      have hnext := hw.dispatches go hp others hsocket
      simp only [step, event, hconnected, hsocket, Option.toList_some]
      exact hnext

theorem kept_world (k : Joined p Raw) : Kept p (k.world, []) := by
  constructor <;> simp [Joined.world, k.guard, -Option.mem_def]

/-! ### The result -/

/-- Where the agent's tasks write in turn, all it sends arrives and none of it is rejected. -/
theorem accepted_of_inTurn (go : Json.Library Raw) (k : Joined p Raw) {l : List (Step p Raw)}
    (h : Run.Guarded (Run.observe (step go) (event go)) InTurn (k.world, []) l) :
    Accepted (run go k l) := by
  have hkept : Kept p (run go k l) :=
    h.invariant (fun w a hw hturn => kept_step go k.named hw a hturn) (kept_world k)
  exact ⟨hkept.increasing, hkept.fifo, hkept.continues, hkept.connected⟩

/-- The agent alone in a new hub. -/
def agentPeer : Peer := ⟨0, "s1", .agent⟩

def justJoined : Joined agentPeer Json where
  store := (Store.join {} "s1" .agent).2
  guard := rfl
  named := by decide

/-- The phone joins while the first candidate is dispatched. -/
def inTurn : List (Step agentPeer Json) :=
  [.gathers "candidate:1" 0 7, .writes .event, .answers "sdp" 8, .dispatches fun _ =>
    .ofSection (.join "s1" .controller) (by simp), .writes .signalingLoop, .dispatches fun _ =>
    .ofSection (.read agentPeer) (by simp)]

theorem accepted_inTurn : Accepted (run Json.documents justJoined inTurn) := by
  have hzero : (0 : UInt64) ≠ 0xffffffffffffffff := by decide
  have hone : (1 : UInt64) ≠ 0xffffffffffffffff := by decide
  refine accepted_of_inTurn _ _ ⟨hzero, ?_, hone, trivial, ?_, trivial, trivial⟩
  · rintro e he other e' he'
    cases other <;> simp_all [Run.observe, step, event, Joined.world, WebSocketSignaling.begins,
      WebSocketSignaling.nextNonce]
  · rintro e he other e' he'
    cases other <;> simp_all [Run.observe, step, event, Joined.world, WebSocketSignaling.begins,
      WebSocketSignaling.nextNonce, WebSocketSignaling.done]

/-! ### A task that overtakes the other -/

/-- The candidate takes its nonce first, and the answer is written first. -/
def overtakes : List (Step agentPeer Json) :=
  [.gathers "candidate:1" 0 7, .answers "sdp" 8, .writes .signalingLoop, .writes .event,
    .dispatches fun _ => .ofSection (.read agentPeer) (by simp),
    .dispatches fun _ => .ofSection (.read agentPeer) (by simp)]

theorem overtaken_candidate : ¬ Accepted (run Json.documents justJoined overtakes) := by
  intro h
  have hrejected : .dispatched ⟨1, 1, 7, "s1", .iceCandidate "candidate:1" 0⟩ .reject ∈
      (run Json.documents justJoined overtakes).2 := List.mem_of_getElem? (i := 3) (by rfl)
  cases h.continues _ _ hrejected

end DeskSync.Session
