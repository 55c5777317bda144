import DeskSync.Backend.Tickets
import DeskSync.Fleet.Contract

/-!
# Rooms of one account

The device, pairing and session services and the signaling service together: requests are in flight at the first,
upgrade requests with any strings come in at the second, and what connects them is the tickets. A step of a request
that goes on with new sessions signs their tickets (`signs`), and every ticket in an answer was signed so
(`Seals`).

`rooms_of_one_account`: in every run, whoever is in a room of the hub presented a ticket for a session of the
tables, which lies over a pairing between two devices of one user, and every ticket for that room was issued to this
user.
-/

namespace DeskSync.Backend

open Proc
open Fleet (Books Owned Paired Services)
open Signaling (TicketJson Secret IssueCall Endpoint EndpointInv)

variable {Raw : Type}

/-! ### What is signed -/

section Signs
variable (ttl : {t : Time // 0 < t})

/-- The calls of `Issue` with which a request goes on from a reply. -/
def signs : Fleet.Request → (c : Fleet.Cmd) → Fleet.Reply c → List IssueCall
  | .createSession userID _, .createSession _, (.ok x, here) => [issueCall ttl here.now x.id userID .controller]
  | .pendingForDevice userID _, .pendingSessionsForDevice _ _ _, (.ok xs, here) =>
    xs.map fun x => issueCall ttl here.now x.id userID .agent
  | _, _, _ => []

/-- What a step of the services signs. -/
def signedBy (w : Fleet.World) : Fleet.Step → List IssueCall
  | .advance i e =>
    match w.threads[i]? with
    | some ⟨q, .call c _⟩ => signs ttl q c (Fleet.exec e c w.store).1
    | _ => []
  | _ => []

end Signs

/-! ### The system -/

structure Cluster (Raw : Type) where
  services : Fleet.World
  endpoint : Endpoint Raw

/-- The tables at hand, no request in flight and nobody connected. -/
def Cluster.init (w : Fleet.Cloud) : Cluster Raw := ⟨⟨w, []⟩, .fresh⟩

inductive ClusterStep (Raw : Type)
  | service (l : Fleet.Step)
  | upgrade (now : ℤ) (req : Signaling.Upgrade) (reads : List (Signaling.Read Raw))
  | advance (i : ℕ)
  | drain (id : ℕ)

section System
variable (M : Mac Bytes) (json : TicketJson) (secret : Secret) (codec : Signaling.Codec Raw) (s : Services)
  (ttl : {t : Time // 0 < t})

def Cluster.step (b : Cluster Raw) : ClusterStep Raw → Cluster Raw
  | .service l =>
    { services := (Fleet.system s).step b.services l
      endpoint := (signedBy ttl b.services l).foldl (fun w call => w.step M json secret codec (.issue call))
        b.endpoint }
  | .upgrade now req reads => { b with endpoint := b.endpoint.step M json secret codec (.upgrade now req reads) }
  | .advance i => { b with endpoint := b.endpoint.step M json secret codec (.advance i) }
  | .drain id => { b with endpoint := b.endpoint.step M json secret codec (.drain id) }

/-! ### Answers -/

/-- The sessions an answer carries a ticket for. -/
def createds : Fleet.Response → List Fleet.Created
  | .created (.ok c) => [c]
  | .pending (.ok cs) => cs
  | _ => []

/-- The role of the tickets in the answer. -/
def ticketRole : Fleet.Request → Fleet.Role
  | .pendingForDevice _ _ => .agent
  | _ => .controller

/-- The answer was made at a time for the session, the user and the role, and its ticket was signed then. -/
def TicketOf (calls : List IssueCall) (q : Fleet.Request) (c : Fleet.Created) : Prop :=
  ∃ now, issueCall ttl now c.session.id q.userID (ticketRole q) ∈ calls ∧
    c.signalingTicket = ascii (ticketString M json secret
      ((issueCall ttl now c.session.id q.userID (ticketRole q)).ticket secret)) ∧
    c.signalingURL = s.session.signalingURL ∧ c.iceServers = s.session.ice.build now c.session.id

/-- The request answers with tickets of the given calls and of those it still makes; `view` are the sessions in its
result. -/
def Seals {α : Type} (q : Fleet.Request) (view : α → List Fleet.Created) :
    List IssueCall → Fleet.Handler α → Prop
  | calls, .ret r => ∀ c ∈ view r, TicketOf M json secret s ttl calls q c
  | calls, .call c k => ∀ r, Seals q view (calls ++ signs ttl q c r) (k r)

end System

section Seals
variable {M : Mac Bytes} {json : TicketJson} {secret : Secret} {s : Services} {ttl : {t : Time // 0 < t}}
  {α : Type} {q : Fleet.Request} {view : α → List Fleet.Created} {calls calls' : List IssueCall}
  {p : Fleet.Handler α}

theorem TicketOf.mono {c : Fleet.Created} (h : TicketOf M json secret s ttl calls q c)
    (hsub : ∀ call ∈ calls, call ∈ calls') : TicketOf M json secret s ttl calls' q c := by
  obtain ⟨now, hcall, hrest⟩ := h
  exact ⟨now, hsub _ hcall, hrest⟩

theorem Seals.mono (h : Seals M json secret s ttl q view calls p) (hsub : ∀ call ∈ calls, call ∈ calls') :
    Seals M json secret s ttl q view calls' p := by
  induction p generalizing calls calls' with
  | ret r => exact fun c hc => (h c hc).mono hsub
  | call c k ih =>
    refine fun r => ih r (h r) fun call hcall => ?_
    rcases List.mem_append.1 hcall with hcall | hcall
    · exact List.mem_append_left _ (hsub call hcall)
    · exact List.mem_append_right _ hcall

theorem Seals.map {β : Type} {view' : β → List Fleet.Created} (h : Seals M json secret s ttl q view calls p)
    (g : α → β) (hg : ∀ a, view' (g a) = view a) : Seals M json secret s ttl q view' calls (g <$> p) := by
  induction p generalizing calls with
  | ret r =>
    intro c hc
    rw [hg r] at hc
    exact h c hc
  | call c k ih => exact fun r => ih r (h r)

/-- A request that answers without tickets. -/
theorem Seals.none (p : Fleet.Handler α) : Seals M json secret s ttl q (fun _ => []) calls p := by
  induction p generalizing calls with
  | ret r => exact fun c hc => absurd hc List.not_mem_nil
  | call c k ih => exact fun r => ih r

/-- The ticket that is handed out is the one that is signed. -/
theorem ticketOf_issue (hs : s.session.tickets = packageIssuer M json secret ttl) {now : Time}
    {x : Fleet.Session} {ticket : String} (hticket : s.session.tickets.issue now x.id q.userID (ticketRole q) = .ok ticket)
    (hcall : issueCall ttl now x.id q.userID (ticketRole q) ∈ calls) :
    TicketOf M json secret s ttl calls q
      { session := x, signalingURL := s.session.signalingURL, signalingTicket := ticket
        iceServers := s.session.ice.build now x.id } := by
  rw [hs, packageIssuer_issue] at hticket
  exact ⟨now, hcall, (Except.ok.inj hticket).symm, rfl, rfl⟩

/-- The sessions in the result of `CreateSession`, and of `PendingForDevice`. -/
def viewCreated : Except AppError Fleet.Created → List Fleet.Created
  | .ok c => [c]
  | .error _ => []

def viewPending : Except AppError (List Fleet.Created) → List Fleet.Created
  | .ok cs => cs
  | .error _ => []

theorem createSession_seals (hs : s.session.tickets = packageIssuer M json secret ttl) (userID pairingID : String) :
    Seals M json secret s ttl (.createSession userID pairingID) viewCreated []
      (s.session.createSession userID pairingID) := by
  have hnone {calls : List IssueCall} : ∀ c ∈ ([] : List Fleet.Created),
      TicketOf M json secret s ttl calls (.createSession userID pairingID) c := fun c hc => absurd hc List.not_mem_nil
  unfold Fleet.SessionService.createSession
  split_ifs
  · exact hnone
  · rintro ⟨e | pairing, here⟩
    · cases e <;> exact hnone
    · dsimp only [Prog.bind]
      split_ifs
      · exact hnone
      · rintro ⟨_ | x, here'⟩
        · exact hnone
        · dsimp only [Prog.bind]
          split
          · exact hnone
          · rename_i ticket hticket
            rintro r c hc
            obtain rfl := List.mem_singleton.1 hc
            exact ticketOf_issue hs hticket (by simp [signs, Fleet.Request.userID, ticketRole])

theorem pendingForDevice_seals (hs : s.session.tickets = packageIssuer M json secret ttl) (userID desktop : String) :
    Seals M json secret s ttl (.pendingForDevice userID desktop) viewPending []
      (s.session.pendingForDevice userID desktop) := by
  unfold Fleet.SessionService.pendingForDevice
  split_ifs
  · exact fun c hc => absurd hc List.not_mem_nil
  · rintro ⟨_ | xs, here⟩
    · exact fun c hc => absurd hc List.not_mem_nil
    · show ∀ c ∈ viewPending (s.session.answer here.now userID xs), _
      cases hcs : s.session.answer here.now userID xs with
      | error _ => exact fun c hc => absurd hc List.not_mem_nil
      | ok cs =>
        intro c hc
        obtain ⟨x, hx, hok⟩ := Fleet.mem_mapM_ok hcs c hc
        split at hok
        · cases hok
        · rename_i ticket hticket
          obtain rfl := Except.ok.inj hok
          refine ticketOf_issue hs hticket ?_
          exact List.mem_append_right _ (List.mem_map_of_mem hx)

/-- Every request answers with tickets it signs. -/
theorem start_seals (hs : s.session.tickets = packageIssuer M json secret ttl) (q : Fleet.Request) :
    Seals M json secret s ttl q createds [] (q.start s) := by
  cases q with
  | createSession userID pairingID =>
    exact (createSession_seals hs userID pairingID).map _ fun r => by cases r <;> rfl
  | pendingForDevice userID desktop =>
    exact (pendingForDevice_seals hs userID desktop).map _ fun r => by cases r <;> rfl
  | initiate userID desktop =>
    show Seals M json secret s ttl _ createds [] (Fleet.Response.challenge <$> s.pairing.initiate userID desktop)
    generalize s.pairing.initiate userID desktop = p
    exact (Seals.none p).map _ fun _ => rfl
  | confirm userID pairingID code mobile =>
    show Seals M json secret s ttl _ createds [] (Fleet.Response.pairing <$> s.pairing.confirm userID pairingID code mobile)
    generalize s.pairing.confirm userID pairingID code mobile = p
    exact (Seals.none p).map _ fun _ => rfl
  | registerDevice | listDevices | getDevice | revokeDevice | heartbeat | listPairings | revokePairing | getSession
  | listSessions | endSession => exact (Seals.none _).map _ fun _ => rfl

end Seals

/-! ### Runs -/

/-- The ticket of the call is for a session of the tables, and goes to its user. -/
def ForOwner (w : Fleet.Cloud) (call : IssueCall) : Prop :=
  ∃ pairingID, Fleet.SessionOf w.db call.sessionID pairingID call.userID

/-- The services keep their contract, tickets go to the owners of their sessions, requests answer with tickets they
sign, and the hub is joined with tickets only. -/
structure Joint (M : Mac Bytes) (json : TicketJson) (secret : Secret) (s : Services) (ttl : {t : Time // 0 < t})
    (b : Cluster Raw) : Prop where
  services : (Fleet.contract s).Holds b.services
  owners : ∀ call ∈ b.endpoint.issued, ForOwner b.services.store call
  seals : b.services.All fun q p => Seals M json secret s ttl q createds b.endpoint.issued p
  endpoint : EndpointInv b.endpoint

section Run
variable {M : Mac Bytes} {json : TicketJson} {secret : Secret} {codec : Signaling.Codec Raw} {s : Services}
  {ttl : {t : Time // 0 < t}}

/-- Issuing tickets leaves the hub as it is. -/
theorem issue_foldl (calls : List IssueCall) (w : Endpoint Raw) :
    calls.foldl (fun w call => w.step M json secret codec (.issue call)) w =
      { w with issued := w.issued ++ calls } := by
  induction calls generalizing w with
  | nil => simp
  | cons call calls ih =>
    rw [List.foldl_cons, ih]
    simp [Endpoint.step]

theorem endpointInv_issue (hM : M.Unforgeable) {w : Endpoint Raw} (h : EndpointInv w) (calls : List IssueCall) :
    EndpointInv (calls.foldl (fun w call => w.step M json secret codec (.issue call)) w) := by
  induction calls generalizing w with
  | nil => exact h
  | cons call calls ih => exact ih (Signaling.endpointInv_step hM h (.issue call))

/-- A request signs tickets for sessions of its user. -/
theorem signs_owner {q : Fleet.Request} {c : Fleet.Cmd} {e : Fleet.Env} {w : Fleet.Cloud} (hw : Books w)
    (hc : Fleet.Allowed q c w) : ∀ call ∈ signs ttl q c (Fleet.exec e c w).1, ForOwner (Fleet.exec e c w).2 call := by
  intro call hcall
  cases hr : (Fleet.exec e c w).1 with
  | mk r here =>
    rw [hr] at hcall
    have habout (x : c.Res) (hx : r = .ok x) : c.about (Fleet.exec e c w).2 x :=
      Fleet.exec_about hw hc ((congrArg Prod.fst hr).trans hx)
    unfold signs at hcall
    split at hcall
    · rename_i userID pairingID x y here' heq
      obtain ⟨rfl, rfl⟩ := Prod.mk.inj heq
      obtain rfl := List.mem_singleton.1 hcall
      obtain ⟨⟨-, hsession⟩, -⟩ := habout y rfl
      have huser : x.userID = userID := hc.2.1
      rw [huser] at hsession
      exact ⟨_, hsession⟩
    · rename_i userID desktop userID' id limit xs here' heq
      obtain ⟨rfl, rfl⟩ := Prod.mk.inj heq
      obtain ⟨x, hx, rfl⟩ := List.mem_map.1 hcall
      obtain rfl : userID' = userID := hc.1.1
      exact ⟨_, (habout xs rfl x hx).2⟩
    · exact absurd hcall List.not_mem_nil

theorem ForOwner.later {w w' : Fleet.Cloud} {call : IssueCall} (h : ForOwner w call) (hle : Fleet.Grows w w') :
    ForOwner w' call := by
  obtain ⟨pairingID, hsession⟩ := h
  exact ⟨pairingID, hle.sessions _ _ _ hsession⟩

/-- What a step signs is for the owners of the sessions. -/
theorem signedBy_owner {w : Fleet.World} (hw : (Fleet.contract s).Holds w) (l : Fleet.Step) :
    ∀ call ∈ signedBy ttl w l, ForOwner ((Fleet.system s).step w l).store call := by
  intro call hcall
  cases l with
  | advance i e =>
    unfold signedBy at hcall
    dsimp only at hcall
    split at hcall
    · rename_i q c k hi
      rw [(Fleet.system s).step_advance hi e]
      exact signs_owner hw.inv (hw.keeps i q _ hi).1 call hcall
    · exact absurd hcall List.not_mem_nil
  | spawn q e => exact absurd hcall List.not_mem_nil
  | env d => exact absurd hcall List.not_mem_nil

/-- A request that goes on has signed what it answers with. -/
theorem seals_step (hs : s.session.tickets = packageIssuer M json secret ttl) {w : Fleet.World}
    {calls : List IssueCall} (h : w.All fun q p => Seals M json secret s ttl q createds calls p) (l : Fleet.Step) :
    ((Fleet.system s).step w l).All fun q p => Seals M json secret s ttl q createds (calls ++ signedBy ttl w l) p := by
  have hmono {q : Fleet.Request} {p : Fleet.Handler Fleet.Response} {calls' : List IssueCall}
      (hp : Seals M json secret s ttl q createds calls p) : Seals M json secret s ttl q createds (calls ++ calls') p :=
    hp.mono fun call hcall => List.mem_append_left _ hcall
  intro j q p hj
  rcases (Fleet.system s).thread_cases hj with hj | ⟨q', e, rfl, -, ht⟩ | ⟨e, q', c, k, rfl, hi, ht⟩
  · exact hmono (h j q p hj)
  · cases ht
    exact (start_seals hs q).mono fun call hcall => absurd hcall List.not_mem_nil
  · cases ht
    have hsigned : signedBy ttl w (.advance j e) = signs ttl q c (Fleet.exec e c w.store).1 := by
      simp only [signedBy, hi]
    rw [hsigned]
    exact h j q _ hi _

theorem joint_step (hM : M.Unforgeable) (hs : s.session.tickets = packageIssuer M json secret ttl) {b : Cluster Raw}
    (h : Joint M json secret s ttl b) (l : ClusterStep Raw) :
    Joint M json secret s ttl (b.step M json secret codec s ttl l) := by
  cases l with
  | service l =>
    obtain ⟨hservices, hle⟩ := h.services.step (fun q e w _ => Fleet.start_keeps s q e w) l
    have hissued : (b.step M json secret codec s ttl (.service l)).endpoint.issued =
        b.endpoint.issued ++ signedBy ttl b.services l := by
      simp only [Cluster.step, issue_foldl]
    refine ⟨hservices, fun call hcall => ?_, ?_, endpointInv_issue hM h.endpoint _⟩
    · rw [hissued] at hcall
      rcases List.mem_append.1 hcall with hcall | hcall
      · exact (h.owners call hcall).later hle
      · exact signedBy_owner h.services l call hcall
    · rw [hissued]
      exact seals_step hs h.seals l
  | upgrade now req reads =>
    have hinv : EndpointInv (b.endpoint.step M json secret codec (.upgrade now req reads)) :=
      Signaling.endpointInv_step hM h.endpoint _
    have hissued : (b.endpoint.step M json secret codec (.upgrade now req reads)).issued = b.endpoint.issued := by
      simp only [Endpoint.step]
      split <;> rfl
    refine ⟨h.services, ?_, ?_, hinv⟩
    · exact hissued ▸ h.owners
    · exact hissued ▸ h.seals
  | advance i =>
    have hinv : EndpointInv (b.endpoint.step M json secret codec (.advance i)) :=
      Signaling.endpointInv_step hM h.endpoint _
    exact ⟨h.services, h.owners, h.seals, hinv⟩
  | drain id =>
    have hinv : EndpointInv (b.endpoint.step M json secret codec (.drain id)) :=
      Signaling.endpointInv_step hM h.endpoint _
    exact ⟨h.services, h.owners, h.seals, hinv⟩

theorem joint_init {w : Fleet.Cloud} (hw : Books w) : Joint M json secret s ttl (.init w : Cluster Raw) where
  services := ⟨hw, Pool.All.nil w⟩
  owners := fun _ hcall => absurd hcall List.not_mem_nil
  seals := Pool.All.nil w
  endpoint := Signaling.endpointInv_fresh

theorem joint_run (hM : M.Unforgeable) (hs : s.session.tickets = packageIssuer M json secret ttl) {w : Fleet.Cloud}
    (hw : Books w) (l : List (ClusterStep Raw)) :
    Joint M json secret s ttl (Run.exec (Cluster.step M json secret codec s ttl) (.init w) l) :=
  Run.invariant (I := Joint M json secret s ttl) (fun _ l h => joint_step hM hs h l) (joint_init hw) l

end Run

/-- The room is that of a session of the tables: it lies over a pairing between two devices of its user, somebody was
given a ticket for the role, and all tickets for the room went to this user. -/
def RoomOfOne (b : Cluster Raw) (sessionID : String) (role : Signaling.Role) : Prop :=
  ∃ x ∈ b.services.store.db.sessions, x.id = sessionID ∧
    (∃ mobile desktop, Paired b.services.store.db x.pairingID x.userID mobile desktop ∧
      Owned b.services.store.db mobile x.userID ∧ Owned b.services.store.db desktop x.userID) ∧
    Signaling.Granted b.endpoint.issued sessionID role ∧
    ∀ call ∈ b.endpoint.issued, call.sessionID = sessionID → call.userID = x.userID

/-- The tickets of the answers were signed for their user, session and role. -/
def AnswersSigned (M : Mac Bytes) (json : TicketJson) (secret : Secret) (s : Services) (ttl : {t : Time // 0 < t})
    (b : Cluster Raw) : Prop :=
  ∀ (i : ℕ) q r, b.services.threads[i]? = some ⟨q, .ret r⟩ → ∀ c ∈ createds r,
    TicketOf M json secret s ttl b.endpoint.issued q c ∧ c.session.about q.userID b.services.store

section Joint
variable {M : Mac Bytes} {json : TicketJson} {secret : Secret} {s : Services} {ttl : {t : Time // 0 < t}}
  {b : Cluster Raw}

theorem Joint.room (h : Joint M json secret s ttl b) {sessionID : String} {role : Signaling.Role}
    {p : Signaling.Peer} (hp : b.endpoint.hub.store.registered sessionID role = some p) :
    RoomOfOne b sessionID role := by
  have hgranted := h.endpoint.peers sessionID role p hp
  obtain ⟨call, hcall, rfl, -⟩ := id hgranted
  obtain ⟨pairingID, x, hx, hid, -, huser⟩ := h.owners call hcall
  obtain ⟨mobile, desktop, hpaired⟩ := h.services.inv.paired x hx
  obtain ⟨pr, hpr, -, hpu, hpm, hpd⟩ := id hpaired
  obtain ⟨hm, hd⟩ := h.services.inv.ledger.owned pr hpr
  rw [hpu] at hm hd
  refine ⟨x, hx, hid, ⟨mobile, desktop, hpaired, hpm ▸ hm, hpd ▸ hd⟩, hgranted, fun call' hcall' hsession => ?_⟩
  obtain ⟨pairingID', y, hy, hyid, -, hyuser⟩ := h.owners call' hcall'
  have hxy : y = x := List.inj_on_of_nodup_map h.services.inv.sessions hy hx
    (hyid.trans (hsession.trans hid.symm))
  rw [← hyuser, hxy]

theorem about_of_mem_createds {r : Fleet.Response} {userID : String} {w : Fleet.Cloud} (h : r.about userID w)
    {c : Fleet.Created} (hc : c ∈ createds r) : c.session.about userID w := by
  cases r with
  | created result =>
    cases result with
    | ok c' =>
      obtain rfl := List.mem_singleton.1 hc
      exact h
    | error _ => exact absurd hc List.not_mem_nil
  | pending result =>
    cases result with
    | ok cs => exact h c hc
    | error _ => exact absurd hc List.not_mem_nil
  | _ => exact absurd hc List.not_mem_nil

theorem Joint.answers (h : Joint M json secret s ttl b) : AnswersSigned M json secret s ttl b := by
  intro i q r hi c hc
  exact ⟨h.seals i q _ hi c hc, about_of_mem_createds (h.services.returned hi) hc⟩

end Joint

/-- **In every run of the services and the hub, whoever is in a room has a ticket for a session of the tables, over
a pairing between two devices of one user; all tickets for the room went to this user, and so did every ticket in
an answer.** -/
theorem rooms_of_one_account {M : Mac Bytes} (hM : M.Unforgeable) (json : TicketJson) (secret : Secret)
    (codec : Signaling.Codec Raw) (s : Services) (ttl : {t : Time // 0 < t})
    (hs : s.session.tickets = packageIssuer M json secret ttl) (w : Fleet.Cloud) (hw : Books w)
    (l : List (ClusterStep Raw)) :
    (∀ sessionID role p,
      (Run.exec (Cluster.step M json secret codec s ttl) (.init w) l).endpoint.hub.store.registered sessionID role =
        some p →
      RoomOfOne (Run.exec (Cluster.step M json secret codec s ttl) (.init w) l) sessionID role) ∧
    AnswersSigned M json secret s ttl (Run.exec (Cluster.step M json secret codec s ttl) (.init w) l) := by
  have h : Joint M json secret s ttl (Run.exec (Cluster.step M json secret codec s ttl) (.init w) l) :=
    joint_run hM hs hw l
  exact ⟨fun sessionID role p hp => h.room hp, h.answers⟩

/-! ### A controller connects -/

theorem sampleTtl_pos : (0 : Time) < 60000 := by decide

/-- The sample services with the sample secret. -/
def sampleServices : Services :=
  { Fleet.sampleServices with
    session := .new
      { tickets := packageIssuer Signaling.sampleMac Signaling.sampleTicketJson Signaling.sampleSecret
          ⟨60000, sampleTtl_pos⟩
        ice := ⟨[], [], "", 0, id⟩
        signalingURL := "wss://signal"
        defaultTimeout := 0 } }

/-- The sample devices, paired. -/
def pairedDb : Fleet.FleetDb :=
  { Fleet.sampleDb with
    pairings := [{ id := "p1", userID := "u1", mobileDeviceID := "m1", desktopDeviceID := "d1", status := .active
                   trusted := true, createdAt := 0, confirmedAt := some 0, revokedAt := none }] }

theorem pairedBooks : Books (.init pairedDb 0) where
  ledger := by
    refine Fleet.Ledger.init (by decide) (by decide) (by decide) (fun p hp => ?_) 0
    obtain rfl := List.mem_singleton.1 hp
    exact ⟨⟨Fleet.sampleDevice "m1" "u1" .mobile, by decide, rfl, rfl⟩,
      ⟨Fleet.sampleDevice "d1" "u1" .desktop, by decide, rfl, rfl⟩⟩
  accounts := by decide
  presence := by decide
  pairs := by decide
  revoked := by decide
  sessions := by decide
  paired := by rintro x ⟨⟩
  coherent := by rintro x ⟨⟩
  events := by rintro ev ⟨⟩

/-- A session is created, and its ticket is presented. -/
def firstSession : List (ClusterStep Json) :=
  [.service (.spawn (.createSession "u1" "p1") (Fleet.goes "")), .service (.advance 0 (Fleet.goes "")),
    .service (.advance 0 (Fleet.goes "s1")), .service (.advance 0 (Fleet.goes "")),
    .upgrade 1000000000 ⟨true, Signaling.sampleToken, bytes "s1", []⟩ [], .advance 0]

theorem firstSession_room :
    (Run.exec (Cluster.step Signaling.sampleMac Signaling.sampleTicketJson Signaling.sampleSecret
        (Signaling.codec Json.documents) sampleServices ⟨60000, sampleTtl_pos⟩) (.init (.init pairedDb 0))
        firstSession).endpoint.hub.store.registered "s1" .controller = some ⟨0, "s1", .controller⟩ ∧
    RoomOfOne (Run.exec (Cluster.step Signaling.sampleMac Signaling.sampleTicketJson Signaling.sampleSecret
        (Signaling.codec Json.documents) sampleServices ⟨60000, sampleTtl_pos⟩) (.init (.init pairedDb 0))
        firstSession) "s1" .controller := by
  have hregistered : (Run.exec (Cluster.step Signaling.sampleMac Signaling.sampleTicketJson Signaling.sampleSecret
      (Signaling.codec Json.documents) sampleServices ⟨60000, sampleTtl_pos⟩) (.init (.init pairedDb 0))
      firstSession).endpoint.hub.store.registered "s1" .controller = some ⟨0, "s1", .controller⟩ := by
    decide +kernel
  exact ⟨hregistered, (rooms_of_one_account (Mac.ofSign_unforgeable _ : Signaling.sampleMac.Unforgeable)
    Signaling.sampleTicketJson Signaling.sampleSecret (Signaling.codec Json.documents) sampleServices
    ⟨60000, sampleTtl_pos⟩ rfl _ pairedBooks firstSession).1 _ _ _ hregistered⟩

end DeskSync.Backend
