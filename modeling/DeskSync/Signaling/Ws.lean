import DeskSync.Signaling.Json
import DeskSync.Signaling.Store
import DeskSync.Signaling.Ticket

/-!
# The WebSocket endpoint

`internal/ws`: `authenticate` verifies the ticket of an upgrade request and compares it with the session and
the role of the query, if there are any; `serve` joins the hub with what the ticket says. Together with
the issuers and the hub they make a system (`Endpoint`), in which tickets are issued, requests come in
with any strings at any time, and the connections that got through run on the hub in any interleaving.

`ticket_soundness`: whatever verifies was issued, and in every run a connection asks to join, and is in the
map, only under the session and the role of a ticket that was issued. The run part is an invariant
(`EndpointInv`) over the connections in flight, each of which joins as its ticket says and makes no other
join (`start_joinsAs`).
-/

namespace DeskSync.Signaling

open Backend Proc

/-! ### `authenticate` and `serve` -/

/-- An HTTP request to the endpoint; a query parameter that is not there is empty. -/
structure Upgrade where
  isUpgrade : Bool
  ticket : Bytes
  session : Bytes
  role : Bytes

inductive Refusal
  | upgradeRequired
  | unauthorized (message : String)
  deriving DecidableEq

section Handler
variable (M : Mac Bytes) (json : TicketJson) (log : List (Signing Bytes)) (secret : Secret)

/-- `Handler.authenticate`. -/
def authenticate (now : ℤ) (req : Upgrade) : Except Refusal Ticket :=
  if !req.isUpgrade then .error .upgradeRequired
  else if req.ticket = [] then .error (.unauthorized "missing ticket")
  else match verify M json log secret now req.ticket with
    | .error _ => .error (.unauthorized "invalid or expired ticket")
    | .ok tk =>
      if req.session ≠ [] ∧ req.session ≠ bytes tk.sessionID then .error (.unauthorized "session mismatch")
      else if req.role ≠ [] ∧ req.role ≠ bytes tk.role then .error (.unauthorized "role mismatch")
      else .ok tk

theorem verify_of_authenticate {now : ℤ} {req : Upgrade} {tk : Ticket}
    (h : authenticate M json log secret now req = .ok tk) :
    verify M json log secret now req.ticket = .ok tk := by
  unfold authenticate at h
  split_ifs at h
  split at h
  · cases h
  · rename_i tk' hverify
    split_ifs at h
    rw [hverify, Except.ok.inj h]

end Handler

/-- The role of a text; a ticket that verifies has one. -/
def Role.ofName (name : String) : Option Role :=
  if name = Role.controller.name then some .controller
  else if name = Role.agent.name then some .agent
  else none

theorem Role.ofName_eq_some {name : String} {role : Role} (h : Role.ofName name = some role) :
    name = role.name := by
  unfold Role.ofName at h
  split_ifs at h with hc ha <;> obtain rfl := Option.some.inj h <;> assumption

variable {Raw : Type}

/-- The connection `serve` runs for a ticket. -/
def serveTicket (tk : Ticket) (reads : List (Read Raw)) : Option (Request Raw) :=
  (Role.ofName tk.role).map fun role => .serve tk.sessionID role reads

/-! ### The system -/

/-- The tickets issued so far, and the hub with its connections. -/
structure Endpoint (Raw : Type) where
  issued : List IssueCall
  hub : World Raw

def Endpoint.fresh : Endpoint Raw := ⟨[], Signaling.fresh⟩

inductive EndpointStep (Raw : Type)
  | issue (call : IssueCall)
  /-- A request, and what its connection will read. -/
  | upgrade (now : ℤ) (req : Upgrade) (reads : List (Read Raw))
  /-- The connection `i` runs its next section. -/
  | advance (i : ℕ)
  | drain (id : ℕ)

section System
variable (M : Mac Bytes) (json : TicketJson) (secret : Secret) (c : Codec Raw)

/-- The connection of a request that is let through. -/
def connect (issued : List IssueCall) (now : ℤ) (req : Upgrade) (reads : List (Read Raw)) :
    Option (Request Raw) :=
  match authenticate M json (signed json secret issued) secret now req with
  | .error _ => none
  | .ok tk => serveTicket tk reads

def Endpoint.step (w : Endpoint Raw) : EndpointStep Raw → Endpoint Raw
  | .issue call => { w with issued := w.issued ++ [call] }
  | .upgrade now req reads =>
    match connect M json secret w.issued now req reads with
    | none => w
    | some q => { w with hub := (Signaling.hub c).step w.hub (.spawn q ()) }
  | .advance i => { w with hub := (Signaling.hub c).step w.hub (.advance i ()) }
  | .drain id => { w with hub := (Signaling.hub c).step w.hub (.env id) }

/-! ### Joins that were granted -/

/-- A ticket for the session and the role was issued. -/
def Granted (issued : List IssueCall) (sessionID : String) (role : Role) : Prop :=
  ∃ call ∈ issued, call.sessionID = sessionID ∧ call.role = role.name

/-- Connections join, and peers are in the map, as granted. -/
structure JoinsGranted (w : Endpoint Raw) : Prop where
  joins : ∀ (i : ℕ) q sessionID role k, w.hub.threads[i]? = some ⟨q, .call (.join sessionID role) k⟩ →
    Granted w.issued sessionID role
  peers : ∀ sessionID role p, w.hub.store.registered sessionID role = some p →
    Granted w.issued sessionID role

/-! ### Connections -/

/-- The call joins as the connection is to join, if it joins at all. -/
def JoinsAs (q : Request Raw) : Access Raw → Prop
  | .join sessionID role => sessionID = q.sessionID ∧ role = q.role
  | _ => True

theorem leave_joinsAs (q : Request Raw) (p : Peer) : (leave c p).Only (JoinsAs q) := by
  refine ⟨trivial, fun left => ?_⟩
  cases left with
  | none => trivial
  | some other =>
    refine ⟨trivial, fun _ => ?_⟩
    cases other with
    | none => trivial
    | some o => exact ⟨trivial, fun _ => trivial⟩

theorem relay_joinsAs (q : Request Raw) (p : Peer) (raw : Raw) : (relay c p raw).Only (JoinsAs q) := by
  refine ⟨trivial, fun target => ?_⟩
  cases target with
  | none => trivial
  | some t =>
    refine ⟨trivial, fun queued => ?_⟩
    cases queued with
    | true => trivial
    | false => exact leave_joinsAs c q t

theorem dispatch_joinsAs (q : Request Raw) (p : Peer) (raw : Raw) :
    (dispatch c p raw).Only (JoinsAs q) := by
  have hrelay (r : DispatchResult) :
      (do relay c p raw; pure r : Handler Raw DispatchResult).Only (JoinsAs q) :=
    (relay_joinsAs c q p raw).bind fun _ => trivial
  unfold dispatch
  cases parse c raw with
  | none => trivial
  | some env =>
    dsimp only
    by_cases hsession : env.sessionID ≠ p.sessionID
    · rw [if_pos hsession]
      trivial
    rw [if_neg hsession]
    refine ⟨trivial, fun accepted => ?_⟩
    dsimp only [Prog.bind]
    split_ifs
    · trivial
    · trivial
    · exact hrelay _
    · exact hrelay _
    · trivial

theorem pump_joinsAs (q : Request Raw) (p : Peer) (reads : List (Read Raw)) :
    (pump c p reads).Only (JoinsAs q) := by
  induction reads with
  | nil => exact leave_joinsAs c q p
  | cons read reads ih =>
    cases read with
    | binary => exact ⟨trivial, fun _ => ih⟩
    | text data =>
      refine ⟨trivial, fun _ => (dispatch_joinsAs c q p data).bind fun result => ?_⟩
      cases result with
      | «continue» => exact ih
      | reject => exact leave_joinsAs c q p
      | bye => exact leave_joinsAs c q p

/-- A served connection joins as its request says. -/
theorem start_joinsAs (sessionID : String) (role : Role) (reads : List (Read Raw)) :
    (start c (.serve sessionID role reads)).Only (JoinsAs (.serve sessionID role reads)) := by
  refine ⟨⟨rfl, rfl⟩, fun joined => ?_⟩
  cases joined with
  | none => trivial
  | some r =>
    obtain ⟨p, other⟩ := r
    cases other with
    | none => exact pump_joinsAs c _ p reads
    | some o => exact ⟨trivial, fun _ => ⟨trivial, fun _ => pump_joinsAs c _ p reads⟩⟩

end System

/-! ### The map -/

section Map
variable (s : Store Raw)

/-- A peer comes into the map by a join under its session and role. -/
theorem registered_exec {a : Access Raw} {sessionID : String} {role : Role} {p : Peer}
    (h : (exec () a s).2.registered sessionID role = some p) :
    s.registered sessionID role = some p ∨ a = .join sessionID role := by
  have hrooms {s' : Store Raw} (heq : s'.rooms = s.rooms) (h : s'.registered sessionID role = some p) :
      s.registered sessionID role = some p := by
    rw [Store.registered, ← heq]
    exact h
  cases a with
  | join sid r =>
    rcases join_cases s sid r with ⟨-, -, -, hreg⟩ | ⟨-, -, hreg⟩
    · exact .inl ((hreg sessionID role).symm.trans h)
    · have hreg := (hreg sessionID role).symm.trans h
      split_ifs at hreg with hjoined
      · exact .inr (by rw [hjoined.1, hjoined.2])
      · exact .inl hreg
  | leave q =>
    left
    rcases leave_cases s q with ⟨-, hs⟩ | ⟨-, -, -, -, -, hreg⟩
    · exact hrooms (congrArg Store.rooms hs) h
    · have hreg := (hreg sessionID role).symm.trans h
      split_ifs at hreg with hleft
      exact hreg
  | target q => exact .inl h
  | enqueue q msg sender => exact .inl (hrooms (enqueue_rooms s q msg) h)
  | close q => exact .inl (hrooms (close_rooms s q) h)
  | accept q nonce => exact .inl (hrooms (quiet_accept s q nonce).rooms h)
  | read q => exact .inl h

end Map

/-! ### Runs -/

theorem Granted.mono {issued : List IssueCall} {sessionID : String} {role : Role}
    (h : Granted issued sessionID role) (call : IssueCall) : Granted (issued ++ [call]) sessionID role := by
  obtain ⟨call', hmem, hgranted⟩ := h
  exact ⟨call', List.mem_append_left _ hmem, hgranted⟩

/-- Every connection is that of a granted ticket and joins as it says; the map has granted peers only. -/
structure EndpointInv (w : Endpoint Raw) : Prop where
  connections : w.hub.All fun q p => Granted w.issued q.sessionID q.role ∧ p.Only (JoinsAs q)
  peers : ∀ sessionID role p, w.hub.store.registered sessionID role = some p →
    Granted w.issued sessionID role

theorem EndpointInv.joinsGranted {w : Endpoint Raw} (h : EndpointInv w) : JoinsGranted w where
  joins i q sessionID role k hi := by
    obtain ⟨hgranted, honly⟩ := h.connections i q _ hi
    obtain ⟨rfl, rfl⟩ := honly.1
    exact hgranted
  peers := h.peers

theorem endpointInv_fresh : EndpointInv (.fresh : Endpoint Raw) where
  connections := Pool.All.nil _
  peers := by
    intro sessionID role p h
    cases h

section Step
variable {M : Mac Bytes} {json : TicketJson} {secret : Secret} {c : Codec Raw}

/-- A connection that is let through is that of a ticket issued before. -/
theorem granted_of_connect (hM : M.Unforgeable) {issued : List IssueCall} {now : ℤ} {req : Upgrade}
    {reads : List (Read Raw)} {q : Request Raw} (h : connect M json secret issued now req reads = some q) :
    ∃ sessionID role, q = .serve sessionID role reads ∧ Granted issued sessionID role := by
  unfold connect at h
  split at h
  · cases h
  · rename_i tk hauth
    obtain ⟨role, hrole, rfl⟩ := Option.map_eq_some_iff.1 h
    obtain ⟨call, hcall, -, hauthentic⟩ := verify_authentic hM (verify_of_authenticate _ _ _ _ hauth)
    refine ⟨_, _, rfl, call, hcall, hauthentic.sessionID.symm, ?_⟩
    rw [← hauthentic.role]
    exact Role.ofName_eq_some hrole

theorem endpointInv_step (hM : M.Unforgeable) {w : Endpoint Raw} (h : EndpointInv w)
    (l : EndpointStep Raw) : EndpointInv (w.step M json secret c l) := by
  cases l with
  | issue call =>
    refine ⟨fun i q p hi => ?_, fun sessionID role p hp => (h.peers _ _ p hp).mono call⟩
    exact ⟨(h.connections i q p hi).1.mono call, (h.connections i q p hi).2⟩
  | upgrade now req reads =>
    cases hconnect : connect M json secret w.issued now req reads with
    | none =>
      have hstep : w.step M json secret c (.upgrade now req reads) = w := by
        simp only [Endpoint.step, hconnect]
      rwa [hstep]
    | some q =>
      have hstep : w.step M json secret c (.upgrade now req reads) =
          { w with hub := (Signaling.hub c).step w.hub (.spawn q ()) } := by
        simp only [Endpoint.step, hconnect]
      rw [hstep]
      obtain ⟨sessionID, role, rfl, hgranted⟩ := granted_of_connect hM hconnect
      refine ⟨h.connections.step ?_ ?_, h.peers⟩
      · rintro q e ⟨⟩
        exact ⟨hgranted, start_joinsAs c sessionID role reads⟩
      · rintro i e q a k ⟨⟩
  | advance i =>
    refine ⟨h.connections.step ?_ ?_, fun sessionID role p hp => ?_⟩
    · rintro q e ⟨⟩
    · rintro j e q a k - - ⟨hgranted, honly⟩
      exact ⟨hgranted, honly.2 _⟩
    · have hp : ((Signaling.hub c).step w.hub (.advance i ())).store.registered sessionID role = some p := hp
      rcases (Signaling.hub c).step_cases w.hub (.advance i ()) with hs | ⟨q, e, heq, -⟩ |
        ⟨j, e, q, a, k, -, hj, hs⟩ | ⟨v, heq, -⟩
      · rw [hs] at hp
        exact h.peers sessionID role p hp
      · cases heq
      · rw [hs] at hp
        rcases registered_exec _ hp with hold | rfl
        · exact h.peers sessionID role p hold
        · exact h.joinsGranted.joins j q sessionID role k hj
      · cases heq
  | drain id =>
    refine ⟨h.connections, fun sessionID role p hp => h.peers sessionID role p ?_⟩
    exact ((quiet_drain w.hub.store id).registered sessionID role).symm.trans hp

end Step

/-- **Whatever verifies was issued under the secret, and in every run the hub is joined only under the
session and the role of a ticket that was.** -/
theorem ticket_soundness {M : Mac Bytes} (hM : M.Unforgeable) (json : TicketJson) (secret : Secret)
    (c : Codec Raw) :
    (∀ issued now token t, verify M json (signed json secret issued) secret now token = .ok t →
      ∃ call ∈ issued, validRole call.role = true ∧ Authentic json secret now token t call) ∧
    ∀ l, JoinsGranted (Run.exec (Endpoint.step M json secret c) Endpoint.fresh l) := by
  refine ⟨fun issued now token t h => verify_authentic hM h, fun l => ?_⟩
  exact (Run.invariant (I := EndpointInv) (fun w l hw => endpointInv_step hM hw l) endpointInv_fresh l).joinsGranted

/-! ### A controller connects -/

/-- The sample ticket is issued and presented with its session, and the connection joins. -/
def controllerJoins : List (EndpointStep Json) :=
  [.issue sampleCall, .upgrade 1000000000 ⟨true, sampleToken, bytes "s1", []⟩ [], .advance 0]

/-- The ticket verifies, and the controller of `s1` is in the map. -/
theorem controller_joined :
    (verify sampleMac sampleTicketJson (signed sampleTicketJson sampleSecret [sampleCall]) sampleSecret
        1000000000 sampleToken = .ok sampleTicket ∧
      ∃ call ∈ [sampleCall], validRole call.role = true ∧
        Authentic sampleTicketJson sampleSecret 1000000000 sampleToken sampleTicket call) ∧
    ((Run.exec (Endpoint.step sampleMac sampleTicketJson sampleSecret (codec Json.documents)) Endpoint.fresh
        controllerJoins).hub.store.registered "s1" .controller = some ⟨0, "s1", .controller⟩ ∧
      JoinsGranted (Run.exec (Endpoint.step sampleMac sampleTicketJson sampleSecret (codec Json.documents))
        Endpoint.fresh controllerJoins)) := by
  have hsound := ticket_soundness (Mac.ofSign_unforgeable _ : sampleMac.Unforgeable) sampleTicketJson
    sampleSecret (codec Json.documents)
  have hverify : verify sampleMac sampleTicketJson (signed sampleTicketJson sampleSecret [sampleCall])
      sampleSecret 1000000000 sampleToken = .ok sampleTicket := by decide +kernel
  refine ⟨⟨hverify, hsound.1 _ _ _ _ hverify⟩, ?_, hsound.2 controllerJoins⟩
  decide +kernel

end DeskSync.Signaling
