import DeskSync.Fleet.Domain

/-!
# The device, pairing and session repositories

The three `internal/repository/postgres.go` on the tables of the migrations `000003` to `000005`. As
for the auth tables, a table is the list of its rows and a statement checks the constraints it runs
into. A repository call is one transaction, hence one step.
-/

namespace DeskSync.Fleet

open Backend

/-- The tables the three services share; of `users` only the keys matter here. -/
structure FleetDb where
  users : List String
  devices : List DeviceRow
  pairings : List PairingRow
  sessions : List Session
  sessionEvents : List SessionEvent
  deriving DecidableEq, Repr

/-- What a handler reads locally before its next call: the clock, `uuid.NewString()`, and the draws of
`rand.Int` below ten. -/
structure Here where
  now : Time
  uuid : String
  digit : ℕ → Option (Fin 10)

/-- What a call finds outside the stores: how it ends, the database's clock and generated key, and what
the handler reads after it. -/
structure Env where
  fault : Fault
  dbNow : Time
  genUUID : String
  here : Here

/-- `ORDER BY key DESC`. -/
def newestFirst {α : Type} (key : α → Time) (rows : List α) : List α :=
  rows.insertionSort fun a b => key b ≤ key a

/-! ### `DeviceRepo` -/

namespace DeviceRepo

/-- A device of the user that is not revoked: the `WHERE` clause of every lookup by id. -/
def owns (id userID : String) (row : DeviceRow) : Bool :=
  row.id == id && row.userID == userID && row.revokedAt.isNone

/-- `DO UPDATE SET kind = EXCLUDED.kind, …, revoked_at = NULL`. -/
def reregister (dbNow : Time) (reg : Registration) (row : DeviceRow) : DeviceRow :=
  if row.publicKey = reg.publicKey then
    { row with
      kind := reg.kind
      platform := reg.platform
      name := reg.name
      fcmToken := reg.fcmToken
      revokedAt := none
      updatedAt := dbNow }
  else row

/-- The row a registration inserts. -/
def inserted (e : Env) (reg : Registration) : DeviceRow :=
  { id := e.genUUID
    userID := reg.userID
    kind := reg.kind
    platform := reg.platform
    name := reg.name
    publicKey := reg.publicKey
    status := .offline
    lastSeenAt := none
    fcmToken := reg.fcmToken
    createdAt := e.dbNow
    updatedAt := e.dbNow
    revokedAt := none }

/-- `ON CONFLICT (public_key) DO UPDATE … WHERE devices.user_id = EXCLUDED.user_id`. -/
def register (e : Env) (reg : Registration) (db : FleetDb) : Except RepoError Device × FleetDb :=
  match db.devices.find? fun row => row.publicKey == reg.publicKey with
  | some row =>
    if row.userID = reg.userID then
      (.ok (reregister e.dbNow reg row).toDevice,
        { db with devices := db.devices.map (reregister e.dbNow reg) })
    else (.error .publicKeyTaken, db)
  | none =>
    if !db.users.contains reg.userID || db.devices.any (fun row => row.id == e.genUUID) then
      (.error .other, db)
    else (.ok (inserted e reg).toDevice, { db with devices := db.devices ++ [inserted e reg] })

def get (id userID : String) (db : FleetDb) : Except RepoError Device × FleetDb :=
  match db.devices.find? (owns id userID) with
  | some row => (.ok row.toDevice, db)
  | none => (.error .deviceNotFound, db)

def list (userID : String) (db : FleetDb) : Except RepoError (List Device) × FleetDb :=
  let rows := db.devices.filter fun row => row.userID == userID && row.revokedAt.isNone
  (.ok (newestFirst (·.createdAt) (rows.map (·.toDevice))), db)

def revokeDevice (dbNow : Time) (id userID : String) (row : DeviceRow) : DeviceRow :=
  if owns id userID row then
    { row with revokedAt := some dbNow, status := .offline, updatedAt := dbNow }
  else row

/-- The cascade of a device revocation: the user's pairings that reference the device. -/
def revokePairingOf (dbNow : Time) (id userID : String) (row : PairingRow) : PairingRow :=
  if row.userID = userID ∧ (row.mobileDeviceID = id ∨ row.desktopDeviceID = id) ∧
      row.status ≠ .revoked then
    { row with status := .revoked, revokedAt := some dbNow }
  else row

def revoke (dbNow : Time) (id userID : String) (db : FleetDb) : Except RepoError Unit × FleetDb :=
  if db.devices.any (owns id userID) then
    (.ok (), { db with
      devices := db.devices.map (revokeDevice dbNow id userID)
      pairings := db.pairings.map (revokePairingOf dbNow id userID) })
  else (.error .deviceNotFound, db)

def beat (dbNow : Time) (id userID : String) (status : Presence) (row : DeviceRow) : DeviceRow :=
  if owns id userID row then { row with status, lastSeenAt := some dbNow, updatedAt := dbNow } else row

def heartbeat (dbNow : Time) (id userID : String) (status : Presence) (db : FleetDb) :
    Except RepoError Device × FleetDb :=
  match db.devices.find? (owns id userID) with
  | some row =>
    (.ok (beat dbNow id userID status row).toDevice,
      { db with devices := db.devices.map (beat dbNow id userID status) })
  | none => (.error .deviceNotFound, db)

end DeviceRepo

/-! ### `PairingRepo` -/

namespace PairingRepo

def deviceForUser (deviceID userID : String) (db : FleetDb) : Except RepoError DeviceRef × FleetDb :=
  match db.devices.find? (DeviceRepo.owns deviceID userID) with
  | some row => (.ok { id := row.id, userID := row.userID, kind := row.kind }, db)
  | none => (.error .deviceNotFound, db)

/-- `DO UPDATE SET status = 'active', …, revoked_at = NULL`. -/
def reactivate (dbNow : Time) (mobileDeviceID desktopDeviceID : String) (row : PairingRow) :
    PairingRow :=
  if row.mobileDeviceID = mobileDeviceID ∧ row.desktopDeviceID = desktopDeviceID then
    { row with status := .active, trusted := true, confirmedAt := some dbNow, revokedAt := none }
  else row

/-- The row a confirmation inserts. -/
def inserted (e : Env) (userID mobileDeviceID desktopDeviceID : String) : PairingRow :=
  { id := e.genUUID
    userID, mobileDeviceID, desktopDeviceID
    status := .active
    trusted := true
    createdAt := e.dbNow
    confirmedAt := some e.dbNow
    revokedAt := none }

/-- `ON CONFLICT (mobile_device_id, desktop_device_id) DO UPDATE`. -/
def upsertActivePairing (e : Env) (userID mobileDeviceID desktopDeviceID : String) (db : FleetDb) :
    Except RepoError Pairing × FleetDb :=
  match db.pairings.find? fun row =>
      row.mobileDeviceID == mobileDeviceID && row.desktopDeviceID == desktopDeviceID with
  | some row =>
    (.ok (reactivate e.dbNow mobileDeviceID desktopDeviceID row).toPairing,
      { db with pairings := db.pairings.map (reactivate e.dbNow mobileDeviceID desktopDeviceID) })
  | none =>
    if !db.users.contains userID || !db.devices.any (fun row => row.id == mobileDeviceID) ||
        !db.devices.any (fun row => row.id == desktopDeviceID) ||
        db.pairings.any (fun row => row.id == e.genUUID) then
      (.error .other, db)
    else
      (.ok (inserted e userID mobileDeviceID desktopDeviceID).toPairing,
        { db with pairings := db.pairings ++ [inserted e userID mobileDeviceID desktopDeviceID] })

def listPairings (userID : String) (db : FleetDb) : Except RepoError (List Pairing) × FleetDb :=
  let rows := db.pairings.filter fun row => row.userID == userID && row.status != .revoked
  (.ok (newestFirst (·.createdAt) (rows.map (·.toPairing))), db)

/-- `WHERE id = $1 AND user_id = $2 AND status <> 'revoked'`. -/
def revocable (id userID : String) (row : PairingRow) : Bool :=
  row.id == id && row.userID == userID && row.status != .revoked

def revokeRow (dbNow : Time) (id userID : String) (row : PairingRow) : PairingRow :=
  if revocable id userID row then { row with status := .revoked, revokedAt := some dbNow } else row

def revokePairing (dbNow : Time) (id userID : String) (db : FleetDb) : Except RepoError Unit × FleetDb :=
  if db.pairings.any (revocable id userID) then
    (.ok (), { db with pairings := db.pairings.map (revokeRow dbNow id userID) })
  else (.error .pairingNotFound, db)

end PairingRepo

/-! ### `SessionRepo` -/

namespace SessionRepo

def pairingForUser (pairingID userID : String) (db : FleetDb) : Except RepoError PairingView × FleetDb :=
  match db.pairings.find? fun row => row.id == pairingID && row.userID == userID with
  | some row =>
    (.ok { id := row.id
           mobileDeviceID := row.mobileDeviceID
           desktopDeviceID := row.desktopDeviceID
           status := row.status }, db)
  | none => (.error .pairingNotFound, db)

/-- The row an `INSERT` creates: the columns it does not set take their defaults. -/
def inserted (e : Env) (s : Session) : Session :=
  { id := e.genUUID
    pairingID := s.pairingID
    userID := s.userID
    status := s.status
    connectionType := none
    startedAt := e.dbNow
    endedAt := none
    endReason := none
    timeoutSeconds := s.timeoutSeconds
    createdAt := e.dbNow }

def createSession (e : Env) (s : Session) (db : FleetDb) : Except RepoError Session × FleetDb :=
  if !db.pairings.any (fun row => row.id == s.pairingID) || !db.users.contains s.userID ||
      db.sessions.any (fun row => row.id == e.genUUID) then
    (.error .other, db)
  else (.ok (inserted e s), { db with sessions := db.sessions ++ [inserted e s] })

def getSession (id userID : String) (db : FleetDb) : Except RepoError Session × FleetDb :=
  match db.sessions.find? fun row => row.id == id && row.userID == userID with
  | some row => (.ok row, db)
  | none => (.error .sessionNotFound, db)

def listSessions (userID : String) (limit : ℤ) (db : FleetDb) :
    Except RepoError (List Session) × FleetDb :=
  let limit := if limit ≤ 0 ∨ 200 < limit then 50 else limit
  (.ok ((newestFirst (·.startedAt) (db.sessions.filter fun row => row.userID == userID)).take
    limit.toNat), db)

/-- `JOIN pairings p ON p.id = s.pairing_id WHERE …`: the status of the pairing is not asked for. -/
def isPending (userID desktopDeviceID : String) (db : FleetDb) (s : Session) : Bool :=
  s.userID == userID && s.status == .connecting &&
    db.pairings.any fun p => p.id == s.pairingID && p.desktopDeviceID == desktopDeviceID

def pendingSessionsForDevice (userID desktopDeviceID : String) (limit : ℤ) (db : FleetDb) :
    Except RepoError (List Session) × FleetDb :=
  let limit := if limit ≤ 0 ∨ 50 < limit then 10 else limit
  (.ok ((newestFirst (·.startedAt) (db.sessions.filter (isPending userID desktopDeviceID db))).take
    limit.toNat), db)

def endRow (dbNow : Time) (id userID reason : String) (row : Session) : Session :=
  if row.id = id ∧ row.userID = userID ∧ row.status ≠ .ended ∧ row.status ≠ .failed then
    { row with status := .ended, endedAt := some dbNow, endReason := some reason }
  else row

/-- A session that is terminal already is returned as it is. -/
def endSession (dbNow : Time) (id userID reason : String) (db : FleetDb) :
    Except RepoError Session × FleetDb :=
  let db' := { db with sessions := db.sessions.map (endRow dbNow id userID reason) }
  ((getSession id userID db').1, db')

def appendEvent (dbNow : Time) (sessionID eventType : String) (detail : List (String × String))
    (db : FleetDb) : Except RepoError Unit × FleetDb :=
  if db.sessions.any fun row => row.id == sessionID then
    (.ok (), { db with sessionEvents := db.sessionEvents ++ [⟨sessionID, eventType, detail, dbNow⟩] })
  else (.error .other, db)

end SessionRepo

end DeskSync.Fleet
