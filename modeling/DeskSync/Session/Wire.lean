import DeskSync.Fleet.Service
import DeskSync.Lib.Serde
import DeskSync.Mobile.Json

/-!
# Sessions on the wire

The answers of the session service to the two clients (`transport/dto.go`): the phone reads the session it has
created with `SessionCreated.fromJson`, the agent its pending sessions with the readers serde derives. An ICE server
without credentials is written without them, and read as `null` by the one and as an empty text by the other.

`fromJson_created`, `deserialize_pendingResponse`: each reads what the service has put there.
-/

namespace DeskSync.Wire

open Backend (Time)
open Json (Members)

/-! ### The service -/

def Status.name : Fleet.SessionStatus → String
  | .initiating => "initiating"
  | .connecting => "connecting"
  | .active => "active"
  | .ended => "ended"
  | .failed => "failed"

def ConnectionType.name : Fleet.ConnectionType → String
  | .p2p => "p2p"
  | .relay => "relay"

/-- A pointer, `null` when it is nil. -/
def nullable {α : Type} (write : α → Json) : Option α → Json
  | none => .null
  | some a => write a

/-- A text with `omitempty`. -/
def omitEmpty (name value : String) : Members := if value = "" then [] else [(name, .str value)]

/-- `ice.Server`. -/
def serverMembers (s : Fleet.IceServer) : Members :=
  ("urls", .arr (s.urls.map .str)) :: (omitEmpty "username" s.username ++ omitEmpty "credential" s.credential)

section Service
variable (rfc3339 : Time → String)

/-- `toSessionResponse`. -/
def sessionMembers (s : Fleet.Session) : Members :=
  [("id", .str s.id), ("pairing_id", .str s.pairingID), ("status", .str (Status.name s.status)),
    ("connection_type", nullable (fun t => .str (ConnectionType.name t)) s.connectionType),
    ("started_at", .str (rfc3339 s.startedAt)), ("ended_at", nullable (fun t => .str (rfc3339 t)) s.endedAt)]

/-- `toCreatedResponse`. -/
def createdMembers (c : Fleet.Created) : Members :=
  [("session", .obj (sessionMembers rfc3339 c.session)), ("signaling_url", .str c.signalingURL),
    ("signaling_ticket", .str c.signalingTicket),
    ("ice_servers", .arr (c.iceServers.map fun s => .obj (serverMembers s)))]

/-- What `Handler.pending` answers. -/
def pendingResponse (cs : List Fleet.Created) : Json :=
  .obj [("sessions", .arr (cs.map fun c => .obj (createdMembers rfc3339 c)))]

end Service

/-! ### The agent -/

namespace Agent

open Serde (required defaulted)

structure IceServer where
  urls : List String
  username : String
  credential : String
  deriving DecidableEq

structure SessionRef where
  id : String
  pairingID : String
  status : String
  deriving DecidableEq

structure PendingSession where
  session : SessionRef
  signalingURL : String
  signalingTicket : String
  iceServers : List IceServer
  deriving DecidableEq

/-- A `Vec`. -/
def vec {α : Type} (read : Json → Option α) : Json → Option (List α)
  | .arr items => items.mapM read
  | _ => none

def IceServer.deserialize (j : Json) : Option IceServer :=
  match Serde.fields ["urls", "username", "credential"] j with
  | some [urls, username, credential] => do
    let urls ← defaulted [] (vec Json.string) urls
    let username ← defaulted "" Json.string username
    let credential ← defaulted "" Json.string credential
    some { urls, username, credential }
  | _ => none

def SessionRef.deserialize (j : Json) : Option SessionRef :=
  match Serde.fields ["id", "pairing_id", "status"] j with
  | some [id, pairingID, status] => do
    let id ← required Json.string id
    let pairingID ← defaulted "" Json.string pairingID
    let status ← defaulted "" Json.string status
    some { id, pairingID, status }
  | _ => none

def PendingSession.deserialize (j : Json) : Option PendingSession :=
  match Serde.fields ["session", "signaling_url", "signaling_ticket", "ice_servers"] j with
  | some [session, signalingURL, signalingTicket, iceServers] => do
    let session ← required SessionRef.deserialize session
    let signalingURL ← defaulted "" Json.string signalingURL
    let signalingTicket ← defaulted "" Json.string signalingTicket
    let iceServers ← defaulted [] (vec IceServer.deserialize) iceServers
    some { session, signalingURL, signalingTicket, iceServers }
  | _ => none

/-- `PendingSessions`. -/
def deserializePending (j : Json) : Option (List PendingSession) :=
  match Serde.fields ["sessions"] j with
  | some [sessions] => defaulted [] (vec PendingSession.deserialize) sessions
  | _ => none

/-- What the agent is to read. -/
def PendingSession.ofCreated (c : Fleet.Created) : PendingSession where
  session := ⟨c.session.id, c.session.pairingID, Status.name c.session.status⟩
  signalingURL := c.signalingURL
  signalingTicket := c.signalingTicket
  iceServers := c.iceServers.map fun s => ⟨s.urls, s.username, s.credential⟩

end Agent

/-! ### The phone -/

namespace Phone

open Mobile (get asString?)

inductive SessionStatus where
  | initiating
  | connecting
  | active
  | ended
  | failed
  | unknown
  deriving DecidableEq

/-- `_statusFrom`. -/
def statusFrom : Option String → SessionStatus
  | some "initiating" => .initiating
  | some "connecting" => .connecting
  | some "active" => .active
  | some "ended" => .ended
  | some "failed" => .failed
  | _ => .unknown

structure Session (DateTime : Type) where
  id : String
  pairingID : String
  status : SessionStatus
  connectionType : Option String
  startedAt : Option DateTime
  endedAt : Option DateTime
  deriving DecidableEq

structure IceServer where
  urls : List String
  username : Option String
  credential : Option String
  deriving DecidableEq

structure SessionCreated (DateTime : Type) where
  session : Session DateTime
  signalingURL : String
  signalingTicket : String
  iceServers : List IceServer
  deriving DecidableEq

/-- `whereType<Map<String, dynamic>>`. -/
def asMap? : Json → Option Members
  | .obj ms => some ms
  | _ => none

def IceServer.fromJson (ms : Members) : Option IceServer := do
  let urls := match get "urls" ms with
    | .arr items => items.filterMap Json.string
    | .str url => [url]
    | _ => []
  let username ← asString? (get "username" ms)
  let credential ← asString? (get "credential" ms)
  some { urls, username, credential }

section Read
variable {DateTime : Type} (tryParse : String → Option DateTime)

/-- `parse` of `Session.fromJson`, which brings the time to the local zone. -/
def parse : Json → Option DateTime
  | .str s => tryParse s
  | _ => none

def Session.fromJson (ms : Members) : Option (Session DateTime) := do
  let id ← Json.string (get "id" ms)
  let pairingID ← Json.string (get "pairing_id" ms)
  let status ← asString? (get "status" ms)
  let connectionType ← asString? (get "connection_type" ms)
  some { id, pairingID, status := statusFrom status, connectionType, startedAt := parse tryParse (get "started_at" ms)
         endedAt := parse tryParse (get "ended_at" ms) }

def SessionCreated.fromJson (ms : Members) : Option (SessionCreated DateTime) := do
  let iceServers ← match get "ice_servers" ms with
    | .arr items => (items.filterMap asMap?).mapM IceServer.fromJson
    | _ => some []
  let session ← Session.fromJson tryParse (← asMap? (get "session" ms))
  let signalingURL ← Json.string (get "signaling_url" ms)
  let signalingTicket ← Json.string (get "signaling_ticket" ms)
  some { session, signalingURL, signalingTicket, iceServers }

/-- An empty text is not there. -/
def ofText (s : String) : Option String := if s = "" then none else some s

/-- What the phone is to read. -/
def SessionCreated.ofCreated (rfc3339 : Time → String) (c : Fleet.Created) : SessionCreated DateTime where
  session :=
    { id := c.session.id
      pairingID := c.session.pairingID
      status := statusFrom (some (Status.name c.session.status))
      connectionType := c.session.connectionType.map ConnectionType.name
      startedAt := tryParse (rfc3339 c.session.startedAt)
      endedAt := c.session.endedAt.bind fun t => tryParse (rfc3339 t) }
  signalingURL := c.signalingURL
  signalingTicket := c.signalingTicket
  iceServers := c.iceServers.map fun s => ⟨s.urls, ofText s.username, ofText s.credential⟩

end Read

end Phone

/-! ### Both read what was written -/

theorem mapM_map {α β γ : Type} {f : α → β} {g : β → Option γ} {h : α → γ} (hg : ∀ a, g (f a) = some (h a))
    (l : List α) : (l.map f).mapM g = some (l.map h) := by
  induction l with
  | nil => rfl
  | cons a l ih => rw [List.map_cons, List.mapM_cons, hg, ih]; rfl

section Members
variable (rfc3339 : Time → String)

/-- The members of a server, with and without credentials. -/
theorem server_nodup (s : Fleet.IceServer) : ((serverMembers s).map Prod.fst).Nodup := by
  unfold serverMembers omitEmpty
  split_ifs <;> simp

theorem server_lookup (s : Fleet.IceServer) :
    (serverMembers s).lookup "urls" = some (.arr (s.urls.map .str)) ∧
    (serverMembers s).lookup "username" = (if s.username = "" then none else some (.str s.username)) ∧
    (serverMembers s).lookup "credential" = (if s.credential = "" then none else some (.str s.credential)) := by
  unfold serverMembers omitEmpty
  split_ifs <;> simp [List.lookup]

theorem session_nodup (s : Fleet.Session) : ((sessionMembers rfc3339 s).map Prod.fst).Nodup := by
  simp [sessionMembers]

theorem created_nodup (c : Fleet.Created) : ((createdMembers rfc3339 c).map Prod.fst).Nodup := by
  simp [createdMembers]

end Members

namespace Agent

theorem deserialize_server (s : Fleet.IceServer) :
    IceServer.deserialize (.obj (serverMembers s)) = some ⟨s.urls, s.username, s.credential⟩ := by
  obtain ⟨hurls, husername, hcredential⟩ := server_lookup s
  have hread (value : String) :
      Serde.defaulted "" Json.string (if value = "" then none else some (.str value)) = some value := by
    split_ifs with h
    · rw [h]; rfl
    · rfl
  have hvec : vec Json.string (.arr (s.urls.map .str)) = some s.urls := by
    have hstring (url : String) : Json.string (.str url) = some (id url) := rfl
    rw [vec, mapM_map hstring, List.map_id]
  unfold IceServer.deserialize
  rw [Serde.fields_obj (server_nodup s)]
  simp only [List.map_cons, List.map_nil, hurls, husername, hcredential, hread]
  simp only [Serde.defaulted, hvec]
  rfl

variable (rfc3339 : Time → String)

theorem deserialize_created (c : Fleet.Created) :
    PendingSession.deserialize (.obj (createdMembers rfc3339 c)) = some (PendingSession.ofCreated c) := by
  have hservers : vec IceServer.deserialize (.arr (c.iceServers.map fun s => .obj (serverMembers s))) =
      some (c.iceServers.map fun s => ⟨s.urls, s.username, s.credential⟩) := mapM_map deserialize_server _
  have hsession : SessionRef.deserialize (.obj (sessionMembers rfc3339 c.session)) =
      some ⟨c.session.id, c.session.pairingID, Status.name c.session.status⟩ := by
    unfold SessionRef.deserialize
    rw [Serde.fields_obj (session_nodup rfc3339 c.session)]
    rfl
  unfold PendingSession.deserialize
  rw [Serde.fields_obj (created_nodup rfc3339 c)]
  show (do
    let session ← SessionRef.deserialize (.obj (sessionMembers rfc3339 c.session))
    let signalingURL ← some c.signalingURL
    let signalingTicket ← some c.signalingTicket
    let iceServers ← vec IceServer.deserialize (.arr (c.iceServers.map fun s => .obj (serverMembers s)))
    some (⟨session, signalingURL, signalingTicket, iceServers⟩ : PendingSession)) = _
  rw [hsession, hservers]
  rfl

/-- The agent reads the sessions it is to answer. -/
theorem deserialize_pendingResponse (cs : List Fleet.Created) :
    deserializePending (pendingResponse rfc3339 cs) = some (cs.map PendingSession.ofCreated) := by
  unfold deserializePending pendingResponse
  rw [Serde.fields_obj (by simp)]
  exact mapM_map (deserialize_created rfc3339) cs

end Agent

namespace Phone

open Mobile (asString?)

theorem last_eq {ms : Members} (hms : (ms.map Prod.fst).Nodup) (name : String) :
    Json.last (·.1 = name) ms = ms.lookup name := by
  induction ms with
  | nil => rfl
  | cons m ms ih =>
    obtain ⟨key, v⟩ := m
    obtain ⟨hnot, hnodup⟩ := List.nodup_cons.1 hms
    rw [Json.last, ih hnodup, List.lookup_cons]
    by_cases heq : key = name
    · subst heq
      have hnone : ms.lookup key = none :=
        List.lookup_eq_none_iff.2 fun m hm => by
          have hne : m.1 ≠ key := fun h => hnot (List.mem_map.2 ⟨m, hm, h⟩)
          simpa using Ne.symm hne
      simp [hnone]
    · have hne : (name == key) = false := beq_false_of_ne (Ne.symm heq)
      simp [heq, hne]

/-- In an object without repeated names a member is looked up. -/
theorem get_eq {ms : Members} (hms : (ms.map Prod.fst).Nodup) (name : String) :
    Mobile.get name ms = (ms.lookup name).getD .null := by
  rw [Mobile.get, last_eq hms]

theorem fromJson_server (s : Fleet.IceServer) :
    IceServer.fromJson (serverMembers s) = some ⟨s.urls, ofText s.username, ofText s.credential⟩ := by
  obtain ⟨hurls, husername, hcredential⟩ := server_lookup s
  have hread (value : String) :
      asString? ((if value = "" then none else some (Json.str value)).getD .null) = some (ofText value) := by
    unfold ofText
    split_ifs <;> rfl
  have hstrings : (s.urls.map Json.str).filterMap Json.string = s.urls := by
    rw [List.filterMap_map]
    exact List.filterMap_some
  unfold IceServer.fromJson
  simp only [get_eq (server_nodup s), hurls, husername, hcredential, hread, Option.getD_some, hstrings]
  rfl

section Read
variable {DateTime : Type} (tryParse : String → Option DateTime) (rfc3339 : Time → String)

theorem fromJson_session (s : Fleet.Session) : Session.fromJson tryParse (sessionMembers rfc3339 s) =
    some
      { id := s.id
        pairingID := s.pairingID
        status := statusFrom (some (Status.name s.status))
        connectionType := s.connectionType.map ConnectionType.name
        startedAt := tryParse (rfc3339 s.startedAt)
        endedAt := s.endedAt.bind fun t => tryParse (rfc3339 t) } := by
  unfold Session.fromJson
  simp only [get_eq (session_nodup rfc3339 s)]
  cases hct : s.connectionType <;> cases hended : s.endedAt <;> simp only [sessionMembers, hct, hended] <;> rfl

/-- The phone reads the session it has created. -/
theorem fromJson_created (c : Fleet.Created) : SessionCreated.fromJson tryParse (createdMembers rfc3339 c) =
    some (.ofCreated tryParse rfc3339 c) := by
  have hmaps : (c.iceServers.map fun s => Json.obj (serverMembers s)).filterMap asMap? =
      c.iceServers.map serverMembers := by
    rw [List.filterMap_map]
    exact congrFun List.filterMap_eq_map _
  have hservers : ((c.iceServers.map fun s => Json.obj (serverMembers s)).filterMap asMap?).mapM IceServer.fromJson =
      some (c.iceServers.map fun s => ⟨s.urls, ofText s.username, ofText s.credential⟩) := by
    rw [hmaps]
    exact mapM_map fromJson_server _
  have hsession := fromJson_session tryParse rfc3339 c.session
  unfold SessionCreated.fromJson
  simp only [get_eq (created_nodup rfc3339 c)]
  show (((c.iceServers.map fun s => Json.obj (serverMembers s)).filterMap asMap?).mapM IceServer.fromJson).bind
    (fun iceServers => (Session.fromJson tryParse (sessionMembers rfc3339 c.session)).bind fun session =>
      some (⟨session, c.signalingURL, c.signalingTicket, iceServers⟩ : SessionCreated DateTime)) = _
  rw [hservers, hsession]
  rfl

end Read

end Phone

end DeskSync.Wire
