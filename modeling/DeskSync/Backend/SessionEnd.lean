import DeskSync.Fleet.Books

/-!
# Ending a session

`EndSession` of the session service (`session_service.go`) over the statements of its repository
(`postgres.go`). Every statement takes effect at once; only the one that appends the audit event may be
lost, which the service logs and goes on.

`idempotent_iff`: in a sequence of calls on one session the row is ended by the owner's first call and
stays as it is, and other users change nothing; the event log agrees with the row if and only if at most
one of the owner's calls has got its event written, and that one gave the reason of the first.

`exec_ofFleet`: these are the runs of the services' handler on their tables.
-/

namespace DeskSync.SessionService

open Backend Run

/-! ### Tables -/

inductive Status
  | initiating
  | connecting
  | active
  | ended
  | failed
  deriving DecidableEq, Repr

inductive ConnectionType
  | p2p
  | relay
  deriving DecidableEq, Repr

structure Session where
  id : String
  pairingID : String
  userID : String
  status : Status
  connectionType : Option ConnectionType
  startedAt : Time
  endedAt : Option Time
  endReason : Option String
  timeoutSeconds : ℤ
  createdAt : Time
  deriving DecidableEq, Repr

structure SessionEvent where
  sessionID : String
  eventType : String
  detail : List (String × String)
  deriving DecidableEq, Repr

structure Store where
  sessions : List Session
  events : List SessionEvent
  deriving DecidableEq

/-- `domain.ErrSessionNotFound`. -/
inductive RepoError
  | sessionNotFound
  deriving DecidableEq, Repr

/-- `status NOT IN ('ended', 'failed')`. -/
def Session.live (s : Session) : Bool := s.status != .ended && s.status != .failed

/-- What the `UPDATE` sets. -/
def Session.close (s : Session) (reason : String) (now : Time) : Session :=
  { s with status := .ended, endedAt := some now, endReason := some reason }

/-- The first row of a result. -/
def scanSession (rows : List Session) : Except RepoError Session :=
  match rows.head? with
  | some s => .ok s
  | none => .error .sessionNotFound

namespace Store

/-- `SELECT … WHERE id = $1 AND user_id = $2`. -/
def getSession (w : Store) (id userID : String) : Except RepoError Session :=
  scanSession (w.sessions.filter fun s => s.id = id ∧ s.userID = userID)

/-- The rows of the `UPDATE`. -/
def ends (id userID : String) (s : Session) : Bool := s.id = id ∧ s.userID = userID ∧ s.live

def endSession (w : Store) (id userID reason : String) (now : Time) :
    Store × Except RepoError Session :=
  let rows := w.sessions.map fun s => if ends id userID s then s.close reason now else s
  let w' := { w with sessions := rows }
  match scanSession ((w.sessions.filter (ends id userID)).map (·.close reason now)) with
  | .ok s => (w', .ok s)
  | .error .sessionNotFound => (w', w'.getSession id userID)

def appendEvent (w : Store) (sessionID eventType : String) (detail : List (String × String)) : Store :=
  { w with events := w.events ++ [⟨sessionID, eventType, detail⟩] }

end Store

/-! ### The service -/

/-- A call of `EndSession`, the clock of its `UPDATE`, and whether its event is written. -/
structure Call where
  userID : String
  reason : String
  now : Time
  written : Bool
  deriving DecidableEq, Repr

/-- The reason, or the default for none. -/
def Call.given (c : Call) : String := if c.reason = "" then "client_ended" else c.reason

def endSession (id : String) (w : Store) (c : Call) : Store × Except AppError Session :=
  match w.endSession id c.userID c.given c.now with
  | (w', .error .sessionNotFound) => (w', .error ⟨.notFound, "session not found"⟩)
  | (w', .ok session) =>
    (if c.written then w'.appendEvent id "ended" [("reason", c.given)] else w', .ok session)

/-- The tables after a call. -/
def step (id : String) (w : Store) (c : Call) : Store := (endSession id w c).1

/-! ### What is expected of the calls -/

/-- The row of the session. -/
def Store.row (w : Store) (id : String) : Option Session := w.sessions.find? (·.id = id)

/-- The `ended` events of the session. -/
def Store.ended (w : Store) (id : String) : List SessionEvent :=
  w.events.filter fun e => e.sessionID = id ∧ e.eventType = "ended"

/-- The row as the owner's first call leaves it. -/
def closedBy (r : Session) (calls : List Call) : Session :=
  match calls.find? (·.userID = r.userID) with
  | some c => r.close c.given c.now
  | none => r

/-- A session that has not been ended: its row is live, and no event says otherwise. -/
structure Open (w : Store) (r : Session) : Prop where
  unique : (w.sessions.map (·.id)).Nodup
  mem : r ∈ w.sessions
  live : r.live
  silent : w.ended r.id = []

/-- Ending the session is idempotent along the calls. -/
structure Idempotent (w : Store) (r : Session) (calls : List Call) : Prop where
  row : ∀ l, l <+: calls → (exec (step r.id) w l).row r.id = some (closedBy r l)
  others : ∀ l c, l ++ [c] <+: calls → c.userID ≠ r.userID →
    step r.id (exec (step r.id) w l) c = exec (step r.id) w l
  returned : ∀ l c, l ++ [c] <+: calls → c.userID = r.userID →
    (endSession r.id (exec (step r.id) w l) c).2 = .ok (closedBy r (l ++ [c]))
  once : ((exec (step r.id) w calls).ended r.id).length ≤ 1
  agrees : ∀ e ∈ (exec (step r.id) w calls).ended r.id, ∃ reason,
    e.detail = [("reason", reason)] ∧ (closedBy r calls).endReason = some reason

/-- The owner's calls whose event is written. -/
def audited (r : Session) (calls : List Call) : List Call :=
  calls.filter fun c => c.userID = r.userID ∧ c.written

/-- At most one of the owner's calls gets its event written, with the reason of the first. -/
def Once (r : Session) (calls : List Call) : Prop :=
  (audited r calls).length ≤ 1 ∧ ∀ c ∈ audited r calls, ∀ c₀ ∈ calls.find? (·.userID = r.userID),
    c.given = c₀.given

/-! ### One call -/

section Step

variable {before after : List Session} {r : Session} {events : List SessionEvent} {c : Call}

/-- The tables with the row `s` in the place of the session's. -/
def tables (before after : List Session) (events : List SessionEvent) (s : Session) : Store :=
  ⟨before ++ s :: after, events⟩

/-- No row beside the session's has its id. -/
def Apart (before after : List Session) (id : String) : Prop :=
  (∀ s ∈ before, s.id ≠ id) ∧ ∀ s ∈ after, s.id ≠ id

/-- A row among rows with distinct ids. -/
theorem split_apart {rows : List Session} (h : (rows.map (·.id)).Nodup) (hr : r ∈ rows) :
    ∃ before after, Apart before after r.id ∧ rows = before ++ r :: after := by
  obtain ⟨before, after, hsplit⟩ := List.append_of_mem hr
  rw [hsplit, List.map_append, List.map_cons, List.nodup_append] at h
  obtain ⟨-, hcons, hdisj⟩ := h
  refine ⟨before, after, ⟨fun s hs heq => ?_, fun s hs heq => ?_⟩, hsplit⟩
  · exact hdisj _ (List.mem_map_of_mem hs) _ List.mem_cons_self heq
  · exact (List.nodup_cons.1 hcons).1 (List.mem_map.2 ⟨s, hs, heq⟩)

theorem filter_apart {p : Session → Bool} (h : Apart before after r.id)
    (hp : ∀ s, p s → s.id = r.id) :
    (before ++ r :: after).filter p = if p r then [r] else [] := by
  have hnone {l : List Session} (hl : ∀ s ∈ l, s.id ≠ r.id) : l.filter p = [] :=
    List.filter_eq_nil_iff.2 fun s hs hps => hl s hs (hp s hps)
  rw [List.filter_append, List.filter_cons, hnone h.1, hnone h.2]
  rfl

theorem map_apart {p : Session → Bool} {f : Session → Session} (h : Apart before after r.id)
    (hp : ∀ s, p s → s.id = r.id) :
    (before ++ r :: after).map (fun s => if p s then f s else s) =
      before ++ (if p r then f r else r) :: after := by
  have hsame {l : List Session} (hl : ∀ s ∈ l, s.id ≠ r.id) :
      l.map (fun s => if p s then f s else s) = l := by
    refine (List.map_congr_left fun s hs => ?_).trans (List.map_id l)
    rw [if_neg fun hps => hl s hs (hp s hps)]
    rfl
  rw [List.map_append, List.map_cons, hsame h.1, hsame h.2]

theorem ends_id (id userID : String) (s : Session) (h : Store.ends id userID s) : s.id = id :=
  (of_decide_eq_true h).1

/-- A call by someone else finds no row. -/
theorem endSession_other (h : Apart before after r.id) (hc : c.userID ≠ r.userID) :
    endSession r.id (tables before after events r) c =
      (tables before after events r, .error ⟨.notFound, "session not found"⟩) := by
  have hends : Store.ends r.id c.userID r = false :=
    decide_eq_false fun hr => hc hr.2.1.symm
  have hget : (before ++ r :: after).filter (fun s => s.id = r.id ∧ s.userID = c.userID) = [] := by
    rw [filter_apart h fun s hs => (of_decide_eq_true hs).1, if_neg]
    exact fun hr => hc (of_decide_eq_true hr).2.symm
  unfold endSession Store.endSession tables
  simp only [filter_apart h (ends_id _ _), map_apart h (ends_id _ _), hends]
  simp only [Bool.false_eq_true, if_false, List.map_nil, scanSession, List.head?_nil,
    Store.getSession, hget]

/-- The owner's call ends a live row and returns it. -/
theorem endSession_live (h : Apart before after r.id) (hc : c.userID = r.userID) (hlive : r.live) :
    endSession r.id (tables before after events r) c =
      (tables before after
        (if c.written then events ++ [⟨r.id, "ended", [("reason", c.given)]⟩] else events)
        (r.close c.given c.now), .ok (r.close c.given c.now)) := by
  have hends : Store.ends r.id c.userID r = true := decide_eq_true ⟨rfl, hc.symm, hlive⟩
  unfold endSession Store.endSession tables
  simp only [filter_apart h (ends_id _ _), map_apart h (ends_id _ _), hends]
  simp only [if_true, List.map_cons, List.map_nil, scanSession, List.head?_cons, Store.appendEvent]
  cases c.written <;> rfl

/-- The owner's call on a row that has been ended returns it, and writes its event again. -/
theorem endSession_ended (h : Apart before after r.id) (hc : c.userID = r.userID)
    (hlive : r.live = false) :
    endSession r.id (tables before after events r) c =
      (tables before after
        (if c.written then events ++ [⟨r.id, "ended", [("reason", c.given)]⟩] else events) r,
        .ok r) := by
  have hends : Store.ends r.id c.userID r = false :=
    decide_eq_false fun hr => Bool.false_ne_true (hlive.symm.trans hr.2.2)
  have hget : (before ++ r :: after).filter (fun s => s.id = r.id ∧ s.userID = c.userID) = [r] := by
    rw [filter_apart h fun s hs => (of_decide_eq_true hs).1, if_pos]
    exact decide_eq_true ⟨rfl, hc.symm⟩
  unfold endSession Store.endSession tables
  simp only [filter_apart h (ends_id _ _), map_apart h (ends_id _ _), hends]
  simp only [Bool.false_eq_true, if_false, List.map_nil, scanSession, List.head?_nil,
    Store.getSession, hget, List.head?_cons, Store.appendEvent]
  cases c.written <;> rfl

end Step

/-! ### Sequences of calls -/

section Calls

variable {before after : List Session} {r : Session} {events : List SessionEvent} {l : List Call}
  {c : Call}

@[simp] theorem close_id (s : Session) (reason : String) (now : Time) : (s.close reason now).id = s.id :=
  rfl

@[simp] theorem close_userID (s : Session) (reason : String) (now : Time) :
    (s.close reason now).userID = s.userID := rfl

@[simp] theorem closedBy_id (r : Session) (l : List Call) : (closedBy r l).id = r.id := by
  unfold closedBy
  split <;> rfl

@[simp] theorem closedBy_userID (r : Session) (l : List Call) : (closedBy r l).userID = r.userID := by
  unfold closedBy
  split <;> rfl

theorem closedBy_append_other (hc : c.userID ≠ r.userID) : closedBy r (l ++ [c]) = closedBy r l := by
  unfold closedBy
  rw [List.find?_append, List.find?_cons_of_neg (by simpa using hc), List.find?_nil, Option.or_none]

/-- The owner's call finds the session as it was, or as the first call has left it. -/
theorem closedBy_append_owner (hc : c.userID = r.userID) :
    (closedBy r l = r ∧ closedBy r (l ++ [c]) = r.close c.given c.now) ∨
      ((closedBy r l).live = false ∧ closedBy r (l ++ [c]) = closedBy r l) := by
  unfold closedBy
  rw [List.find?_append]
  cases l.find? (·.userID = r.userID) with
  | none =>
    rw [List.find?_cons_of_pos (by simpa using hc)]
    exact .inl ⟨rfl, rfl⟩
  | some c₀ => exact .inr ⟨rfl, rfl⟩

/-- What the service writes for a call. -/
def eventOf (r : Session) (c : Call) : SessionEvent := ⟨r.id, "ended", [("reason", c.given)]⟩

theorem audited_append (r : Session) (l : List Call) (c : Call) :
    audited r (l ++ [c]) = audited r l ++ if c.userID = r.userID ∧ c.written then [c] else [] := by
  unfold audited
  rw [List.filter_append, List.filter_cons, List.filter_nil]
  simp only [decide_eq_true_eq]

/-- The owner's call after any others returns the row as the first call has left it. -/
theorem endSession_owner (h : Apart before after r.id) (hlive : r.live) (l : List Call)
    (hc : c.userID = r.userID) :
    endSession r.id (tables before after events (closedBy r l)) c =
      (tables before after (if c.written then events ++ [eventOf r c] else events)
        (closedBy r (l ++ [c])), .ok (closedBy r (l ++ [c]))) := by
  obtain ⟨hsame, hclosed⟩ | ⟨hended, hsame⟩ := closedBy_append_owner (l := l) hc
  · rw [hsame, hclosed]
    exact endSession_live h hc hlive
  · rw [hsame]
    have hid := closedBy_id r l
    have hcall : endSession _ (tables before after events (closedBy r l)) c = _ :=
      endSession_ended (hid ▸ h) (hc.trans (closedBy_userID r l).symm) hended
    rwa [hid] at hcall

theorem endSession_stranger (h : Apart before after r.id) (l : List Call) (hc : c.userID ≠ r.userID) :
    endSession r.id (tables before after events (closedBy r l)) c =
      (tables before after events (closedBy r l), .error ⟨.notFound, "session not found"⟩) := by
  have hid := closedBy_id r l
  have hcall : endSession _ (tables before after events (closedBy r l)) c = _ := endSession_other (hid ▸ h)
    (by rwa [closedBy_userID])
  rwa [hid] at hcall

/-- The tables after the calls. -/
theorem exec_tables (h : Apart before after r.id) (hlive : r.live) (l : List Call) :
    exec (step r.id) (tables before after events r) l =
      tables before after (events ++ (audited r l).map (eventOf r)) (closedBy r l) := by
  induction l using List.reverseRecOn with
  | nil => simp [audited, closedBy]
  | append_singleton l c ih =>
    rw [exec_append, ih, audited_append]
    show (endSession r.id _ c).1 = _
    by_cases hc : c.userID = r.userID
    · rw [endSession_owner h hlive l hc]
      cases hw : c.written <;> simp [hc]
    · rw [endSession_stranger h l hc, closedBy_append_other hc, if_neg fun hcw => hc hcw.1]
      simp

theorem row_tables (h : Apart before after r.id) (s : Session) (hs : s.id = r.id) :
    (tables before after events s).row r.id = some s := by
  have hnone : before.find? (·.id = r.id) = none :=
    List.find?_eq_none.2 fun x hx => by simpa using h.1 x hx
  rw [Store.row, tables, List.find?_append, hnone, List.find?_cons_of_pos (by simpa using hs)]
  rfl

theorem ended_tables (hsilent : events.filter (fun e => e.sessionID = r.id ∧ e.eventType = "ended") = [])
    (s : Session) (l : List Call) :
    (tables before after (events ++ (audited r l).map (eventOf r)) s).ended r.id =
      (audited r l).map (eventOf r) := by
  show List.filter _ (events ++ _) = _
  rw [List.filter_append, hsilent, List.nil_append, List.filter_eq_self]
  intro e he
  obtain ⟨c, -, rfl⟩ := List.mem_map.1 he
  simp [eventOf]

end Calls

/-- The session's row among the others. -/
theorem Open.split {w : Store} {r : Session} (h : Open w r) :
    ∃ before after, Apart before after r.id ∧ w = tables before after w.events r := by
  obtain ⟨before, after, hapart, hsplit⟩ := split_apart h.unique h.mem
  exact ⟨before, after, hapart, by rw [tables, ← hsplit]⟩

/-- The calls are idempotent if and only if at most one of the owner's writes its event, with the reason
of the first. -/
theorem idempotent_iff (w : Store) (r : Session) (h : Open w r) (calls : List Call) :
    Idempotent w r calls ↔ Once r calls := by
  obtain ⟨before, after, hapart, hw⟩ := h.split
  have hexec (l : List Call) : exec (step r.id) w l =
      tables before after (w.events ++ (audited r l).map (eventOf r)) (closedBy r l) := by
    conv_lhs => rw [hw]
    exact exec_tables hapart h.live l
  have hended : (exec (step r.id) w calls).ended r.id = (audited r calls).map (eventOf r) := by
    rw [hexec]
    exact ended_tables h.silent _ calls
  have hreason {c c₀ : Call} (hc₀ : c₀ ∈ calls.find? (·.userID = r.userID)) :
      (closedBy r calls).endReason = some c₀.given := by
    unfold closedBy
    rw [hc₀]
    rfl
  constructor
  · intro hi
    refine ⟨by simpa [hended] using hi.once, fun c hc c₀ hc₀ => ?_⟩
    obtain ⟨reason, hdetail, heq⟩ := hi.agrees (eventOf r c) (hended ▸ List.mem_map_of_mem hc)
    rw [hreason (c := c) hc₀] at heq
    simp only [eventOf, List.cons.injEq, Prod.mk.injEq, true_and, and_true] at hdetail
    rw [hdetail, Option.some.inj heq]
  · rintro ⟨honce, hagree⟩
    exact {
      row := fun l _ => by
        rw [hexec]
        exact row_tables hapart _ (closedBy_id r l)
      others := fun l c _ hc => by
        rw [hexec]
        exact congrArg Prod.fst (endSession_stranger hapart l hc)
      returned := fun l c _ hc => by
        rw [hexec]
        exact congrArg Prod.snd (endSession_owner hapart h.live l hc)
      once := by simpa [hended] using honce
      agrees := fun e he => by
        rw [hended] at he
        obtain ⟨c, hc, rfl⟩ := List.mem_map.1 he
        have howner : c.userID = r.userID := (of_decide_eq_true (List.mem_filter.1 hc).2).1
        obtain ⟨c₀, hc₀⟩ : ∃ c₀, calls.find? (·.userID = r.userID) = some c₀ := by
          refine Option.isSome_iff_exists.1 (List.find?_isSome.2 ⟨c, (List.mem_filter.1 hc).1, ?_⟩)
          exact decide_eq_true howner
        exact ⟨c.given, rfl, by rw [hreason (c := c) hc₀, hagree c hc c₀ hc₀]⟩ }

/-! ### Two calls -/

def sampleSession : Session where
  id := "s1"
  pairingID := "p1"
  userID := "u1"
  status := .connecting
  connectionType := none
  startedAt := 0
  endedAt := none
  endReason := none
  timeoutSeconds := 900
  createdAt := 0

def sampleStore : Store := ⟨[sampleSession], [⟨"s1", "created", [("pairing_id", "p1")]⟩]⟩

theorem sampleStore_open : Open sampleStore sampleSession where
  unique := by decide
  mem := List.mem_singleton_self _
  live := rfl
  silent := by decide

/-- The owner and a stranger. -/
theorem endedOnce_idempotent :
    Idempotent sampleStore sampleSession [⟨"u2", "", 1, true⟩, ⟨"u1", "done", 2, true⟩] :=
  (idempotent_iff sampleStore sampleSession sampleStore_open _).2 ⟨by decide, by decide⟩

/-- The owner ends the session twice, with two reasons. -/
theorem endedTwice : ¬∀ (w : Store) (r : Session), Open w r → ∀ calls, Idempotent w r calls := by
  intro h
  have honce := (h sampleStore sampleSession sampleStore_open
    [⟨"u1", "done", 1, true⟩, ⟨"u1", "", 2, true⟩]).once
  exact absurd honce (by decide)

/-! ### Among the tables of the services -/

def Status.ofFleet : Fleet.SessionStatus → Status
  | .initiating => .initiating
  | .connecting => .connecting
  | .active => .active
  | .ended => .ended
  | .failed => .failed

def ConnectionType.ofFleet : Fleet.ConnectionType → ConnectionType
  | .p2p => .p2p
  | .relay => .relay

def Session.ofFleet (s : Fleet.Session) : Session where
  id := s.id
  pairingID := s.pairingID
  userID := s.userID
  status := .ofFleet s.status
  connectionType := s.connectionType.map .ofFleet
  startedAt := s.startedAt
  endedAt := s.endedAt
  endReason := s.endReason
  timeoutSeconds := s.timeoutSeconds
  createdAt := s.createdAt

/-- The tables of the sessions, without the clocks of the events. -/
def Store.ofFleet (db : Fleet.FleetDb) : Store where
  sessions := db.sessions.map .ofFleet
  events := db.sessionEvents.map fun ev => ⟨ev.sessionID, ev.eventType, ev.detail⟩

/-- The result of a statement; that there is no session is its only error. -/
def resultOfFleet : Except Fleet.RepoError Fleet.Session → Except RepoError Session
  | .ok s => .ok (.ofFleet s)
  | .error _ => .error .sessionNotFound

/-- A request to end the session, with the outcomes of its two statements. -/
structure Ending where
  userID : String
  reason : String
  es : ℕ → Fleet.Env

namespace Ending

def op (id : String) (e : Ending) : Fleet.Op := .request (.endSession e.userID id e.reason) e.es

def call (e : Ending) : Call := ⟨e.userID, e.reason, (e.es 0).dbNow, (e.es 1).fault ≠ .lost⟩

end Ending

section Fleet
variable {db : Fleet.FleetDb} {id userID reason : String} {now : Time}

theorem ofFleet_endRow (s : Fleet.Session) :
    Session.ofFleet (Fleet.SessionRepo.endRow now id userID reason s) =
      if Store.ends id userID (.ofFleet s) then (Session.ofFleet s).close reason now else .ofFleet s := by
  have hlive : (Session.ofFleet s).live = true ↔ s.status ≠ .ended ∧ s.status ≠ .failed := by
    cases hstatus : s.status <;> simp [Session.live, Session.ofFleet, Status.ofFleet, hstatus]
  unfold Fleet.SessionRepo.endRow
  by_cases h : s.id = id ∧ s.userID = userID ∧ s.status ≠ .ended ∧ s.status ≠ .failed
  · have hends : Store.ends id userID (.ofFleet s) = true := decide_eq_true ⟨h.1, h.2.1, hlive.2 h.2.2⟩
    rw [if_pos h, if_pos hends]
    rfl
  · have hends : Store.ends id userID (.ofFleet s) = false :=
      decide_eq_false fun hs => h ⟨hs.1, hs.2.1, hlive.1 hs.2.2⟩
    rw [if_neg h, hends]
    rfl

/-- `getSession` finds the row the service's finds, or none. -/
theorem getSession_ofFleet (db : Fleet.FleetDb) :
    (Store.ofFleet db).getSession id userID = resultOfFleet (Fleet.SessionRepo.getSession id userID db).1 := by
  have hrow : (Store.ofFleet db).sessions.find? (fun s => s.id = id ∧ s.userID = userID) =
      (db.sessions.find? fun s => s.id == id && s.userID == userID).map .ofFleet := by
    rw [Store.ofFleet, List.find?_map]
    congr 2
    funext s
    exact Bool.decide_and _ _
  unfold Store.getSession Fleet.SessionRepo.getSession scanSession
  rw [List.head?_filter, hrow]
  cases db.sessions.find? fun s => s.id == id && s.userID == userID <;> rfl

theorem endSession_store (w : Store) (id userID reason : String) (now : Time) :
    (w.endSession id userID reason now).1 =
      { w with sessions := w.sessions.map fun s => if Store.ends id userID s then s.close reason now else s } := by
  unfold Store.endSession
  split <;> rfl

/-- Among rows with distinct ids the `UPDATE` returns what a `SELECT` finds after it. -/
theorem endSession_returns {w : Store} (h : (w.sessions.map (·.id)).Nodup) :
    (w.endSession id userID reason now).2 = (w.endSession id userID reason now).1.getSession id userID := by
  rw [endSession_store]
  unfold Store.endSession
  cases hrows : w.sessions.filter (Store.ends id userID) with
  | nil => rfl
  | cons r rest =>
    obtain ⟨hr, hends⟩ := List.mem_filter.1 (hrows ▸ List.mem_cons_self : r ∈ w.sessions.filter _)
    obtain ⟨hid, huser, hlive⟩ := of_decide_eq_true hends
    obtain ⟨before, after, hapart, hsplit⟩ := split_apart h hr
    subst hid huser
    have hselect : (before ++ r.close reason now :: after).filter
        (fun s => s.id = r.id ∧ s.userID = r.userID) = [r.close reason now] :=
      (filter_apart (r := r.close reason now) hapart fun s hs => (of_decide_eq_true hs).1).trans
        (if_pos (decide_eq_true ⟨rfl, rfl⟩))
    unfold Store.getSession
    rw [hsplit, map_apart hapart (ends_id _ _), if_pos hends, hselect]
    rfl

theorem endSession_ofFleet (h : (db.sessions.map (·.id)).Nodup) :
    (Store.ofFleet db).endSession id userID reason now =
      (.ofFleet (Fleet.SessionRepo.endSession now id userID reason db).2,
        resultOfFleet (Fleet.SessionRepo.endSession now id userID reason db).1) := by
  have hids : ((Store.ofFleet db).sessions.map (·.id)).Nodup := by
    rw [Store.ofFleet, List.map_map]
    exact h
  have hstore : ((Store.ofFleet db).endSession id userID reason now).1 =
      Store.ofFleet (Fleet.SessionRepo.endSession now id userID reason db).2 := by
    rw [endSession_store]
    unfold Store.ofFleet Fleet.SessionRepo.endSession
    simp only [List.map_map, Function.comp_def, ofFleet_endRow]
  refine Prod.ext hstore ?_
  rw [endSession_returns hids, hstore]
  exact getSession_ofFleet _

/-- Reading a session finds a row with its id, or reports that there is none. -/
theorem getSession_cases (id userID : String) (db : Fleet.FleetDb) :
    (Fleet.SessionRepo.getSession id userID db).1 = .error .sessionNotFound ∨
      ∃ s, (Fleet.SessionRepo.getSession id userID db).1 = .ok s ∧ db.sessions.any (·.id == id) = true := by
  unfold Fleet.SessionRepo.getSession
  cases hrow : db.sessions.find? fun s => s.id == id && s.userID == userID with
  | none => exact .inl rfl
  | some s =>
    have hid : s.id == id := (Bool.and_eq_true_iff.1 (List.find?_some (p := fun s => _ && _) hrow)).1
    exact .inr ⟨s, rfl, List.any_eq_true.2 ⟨s, List.mem_of_find?_eq_some hrow, hid⟩⟩

/-- The event of a session that exists is written unless its statement is lost. -/
theorem appendEvent_ofFleet (e : Fleet.Env) {w : Fleet.Cloud} (h : w.db.sessions.any (·.id == id) = true)
    (ty : String) (detail : List (String × String)) :
    Store.ofFleet (Fleet.exec e (.appendEvent id ty detail) w).2.db =
      if e.fault ≠ .lost then (Store.ofFleet w.db).appendEvent id ty detail else .ofFleet w.db := by
  by_cases hf : e.fault = .lost
  · rw [Fleet.exec_lost hf, if_neg fun hne => hne hf]
  · have happly : (Fleet.exec e (.appendEvent id ty detail) w).2 =
        (Fleet.Cmd.effect e (.appendEvent id ty detail) w).2 := Fault.apply_applied hf
    rw [happly, if_pos hf]
    simp only [Fleet.Cmd.effect, Fleet.onDb, Fleet.SessionRepo.appendEvent, if_pos h]
    unfold Store.ofFleet Store.appendEvent
    rw [List.map_append, List.map_singleton]

variable {w : Fleet.Cloud} {e : Ending}

/-- The handler of the services ends the session as `endSession` does, with the same answer. -/
theorem run_ofFleet (h : (w.db.sessions.map (·.id)).Nodup) (he : (e.es 0).fault = .none) :
    endSession id (.ofFleet w.db) e.call =
      let out := (Fleet.SessionService.endSession e.userID id e.reason).run Fleet.exec e.es w
      (.ofFleet out.2.db, out.1.map .ofFleet) := by
  have hgiven : (if e.reason == "" then "client_ended" else e.reason) = e.call.given := by
    by_cases hr : e.reason = "" <;> simp [Call.given, Ending.call, hr]
  have hended : (Fleet.exec (e.es 0) (.endSession id e.userID e.call.given) w).1.1 =
      (Fleet.SessionRepo.endSession e.call.now id e.call.userID e.call.given w.db).1 :=
    (Fleet.exec_goes he _).1
  have hstore : (Fleet.exec (e.es 0) (.endSession id e.userID e.call.given) w).2.db =
      (Fleet.SessionRepo.endSession e.call.now id e.call.userID e.call.given w.db).2 :=
    congrArg (·.db) (Fleet.exec_goes he _).2
  unfold endSession Fleet.SessionService.endSession
  simp only [Proc.Prog.perform_bind, Proc.Prog.run_call]
  rw [hgiven, hended, endSession_ofFleet h, ← hstore]
  obtain hnone | ⟨s, hsome, hany⟩ := getSession_cases id e.call.userID
    (Fleet.SessionRepo.endSession e.call.now id e.call.userID e.call.given w.db).2
  · have hres : (Fleet.SessionRepo.endSession e.call.now id e.call.userID e.call.given w.db).1 =
        .error .sessionNotFound := hnone
    rw [hres]
    rfl
  · have hres : (Fleet.SessionRepo.endSession e.call.now id e.call.userID e.call.given w.db).1 = .ok s := hsome
    rw [← hstore] at hany
    rw [hres, resultOfFleet]
    refine Prod.ext ?_ rfl
    rw [Proc.Prog.run_call, Proc.Prog.pure_eq, Proc.Prog.run_ret,
      appendEvent_ofFleet (e.es 1) hany "ended" [("reason", e.call.given)]]
    simp only [Ending.call, decide_eq_true_eq]

/-- A request to end a session adds no row. -/
theorem op_ids (s : Fleet.Services) (id : String) (e : Ending) (w : Fleet.Cloud) :
    (Fleet.Op.step s w (e.op id)).db.sessions.map (·.id) = w.db.sessions.map (·.id) := by
  let q : Fleet.Request := .endSession e.userID id e.reason
  have hcalls : (q.start s).Along Fleet.exec (fun _ c _ => q.mayCall c) e.es w :=
    (Fleet.start_only s q).along (fun _ _ _ hc => hc) e.es w
  refine hcalls.invariant (I := fun w' => w'.db.sessions.map (·.id) = w.db.sessions.map (·.id)) ?_ rfl
  intro env c w' hc hw
  rw [← hw]
  obtain hsame | ⟨x, rfl, -, -⟩ | ⟨id', u, reason, rfl, hends⟩ := Fleet.exec_sessions env c w'
  · rw [hsame]
  · exact hc.elim
  · rw [hends, List.map_map]
    exact List.map_congr_left fun x _ => (Fleet.endRow_same env.dbNow id' u reason x).1

/-- Requests that end one session, in the tables of the services: the calls of `endSession`. -/
theorem exec_ofFleet (s : Fleet.Services) (id : String) (es : List Ending) (w : Fleet.Cloud)
    (h : (w.db.sessions.map (·.id)).Nodup) (hes : ∀ e ∈ es, (e.es 0).fault = .none) :
    exec (step id) (.ofFleet w.db) (es.map Ending.call) =
      .ofFleet (exec (Fleet.Op.step s) w (es.map (Ending.op id))).db := by
  induction es generalizing w with
  | nil => rfl
  | cons e es ih =>
    have hstep : step id (.ofFleet w.db) e.call = .ofFleet (Fleet.Op.step s w (e.op id)).db := by
      rw [step, run_ofFleet h (hes e List.mem_cons_self)]
      simp only [Fleet.Op.step, Fleet.Op.run, Ending.op, Fleet.Request.start, Proc.Prog.run_map]
    simp only [List.map_cons, List.foldl_cons]
    rw [hstep]
    exact ih _ ((op_ids s id e w).symm ▸ h) fun e he => hes e (List.mem_cons_of_mem _ he)

end Fleet

end DeskSync.SessionService
