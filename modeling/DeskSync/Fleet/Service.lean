import DeskSync.Fleet.ChallengeStore
import DeskSync.Backend.Url

/-!
# The device, pairing and session services

The handlers of the three `internal/service` packages over one store: the tables they share and the
Redis instance of the pairing service. The system lets any number of requests be in flight; `Op.step`
runs one request to its end.

`Confirm` is cut at its calls (`checkChallenge`, `recordFailure`, `burn`, `authorize`, `establish`,
`spend`): these are the points another request can come in between.
-/

namespace DeskSync.Fleet

open Backend Proc
open Proc.Prog (perform)

/-! ### Calls -/

structure Cloud where
  db : FleetDb
  redis : Redis

/-- The given tables and no challenge stored. -/
def Cloud.init (db : FleetDb) (now : Time) : Cloud := ⟨db, ⟨now, fun _ => none, fun _ => none⟩⟩

/-- The calls of the three `domain.Repository` ports and of `domain.ChallengeStore`. -/
inductive Cmd where
  | registerDevice (reg : Registration)
  | getDevice (id userID : String)
  | listDevices (userID : String)
  | revokeDevice (id userID : String)
  | heartbeat (id userID : String) (status : Presence)
  | deviceForUser (deviceID userID : String)
  | upsertActivePairing (userID mobileDeviceID desktopDeviceID : String)
  | listPairings (userID : String)
  | revokePairing (id userID : String)
  | save (ch : Challenge) (ttl : Time)
  | get (pairingID : String)
  | recordFailedAttempt (pairingID : String)
  | consume (pairingID : String)
  | pairingForUser (pairingID userID : String)
  | createSession (s : Session)
  | getSession (id userID : String)
  | listSessions (userID : String) (limit : ℤ)
  | pendingSessionsForDevice (userID desktopDeviceID : String) (limit : ℤ)
  | endSession (id userID reason : String)
  | appendEvent (sessionID eventType : String) (detail : List (String × String))
  deriving DecidableEq, Repr

abbrev Cmd.Res : Cmd → Type
  | .registerDevice _ | .getDevice _ _ | .heartbeat _ _ _ => Device
  | .listDevices _ => List Device
  | .deviceForUser _ _ => DeviceRef
  | .upsertActivePairing _ _ _ => Pairing
  | .listPairings _ => List Pairing
  | .get _ => Challenge
  | .recordFailedAttempt _ => ℕ
  | .pairingForUser _ _ => PairingView
  | .createSession _ | .getSession _ _ | .endSession _ _ _ => Session
  | .listSessions _ _ | .pendingSessionsForDevice _ _ _ => List Session
  | .revokeDevice _ _ | .revokePairing _ _ | .save _ _ | .consume _ | .appendEvent _ _ _ => Unit

/-- A handler resumes with the call's result and what it reads locally. -/
abbrev Reply (c : Cmd) : Type := Except RepoError c.Res × Here

section Calls
variable {ρ : Type}

def onDb (f : FleetDb → Except RepoError ρ × FleetDb) (s : Cloud) : Except RepoError ρ × Cloud :=
  ((f s.db).1, { s with db := (f s.db).2 })

def onRedis (f : Redis → Except RepoError ρ × Redis) (s : Cloud) : Except RepoError ρ × Cloud :=
  ((f s.redis).1, { s with redis := (f s.redis).2 })

end Calls

/-- The call itself, when it goes through. -/
def Cmd.effect (e : Env) : (c : Cmd) → Cloud → Except RepoError c.Res × Cloud
  | .registerDevice reg => onDb (DeviceRepo.register e reg)
  | .getDevice id userID => onDb (DeviceRepo.get id userID)
  | .listDevices userID => onDb (DeviceRepo.list userID)
  | .revokeDevice id userID => onDb (DeviceRepo.revoke e.dbNow id userID)
  | .heartbeat id userID status => onDb (DeviceRepo.heartbeat e.dbNow id userID status)
  | .deviceForUser deviceID userID => onDb (PairingRepo.deviceForUser deviceID userID)
  | .upsertActivePairing userID mobileDeviceID desktopDeviceID =>
    onDb (PairingRepo.upsertActivePairing e userID mobileDeviceID desktopDeviceID)
  | .listPairings userID => onDb (PairingRepo.listPairings userID)
  | .revokePairing id userID => onDb (PairingRepo.revokePairing e.dbNow id userID)
  | .save ch ttl => onRedis (RedisStore.save ch ttl)
  | .get pairingID => onRedis (RedisStore.get pairingID)
  | .recordFailedAttempt pairingID => onRedis (RedisStore.recordFailedAttempt pairingID)
  | .consume pairingID => onRedis (RedisStore.consume pairingID)
  | .pairingForUser pairingID userID => onDb (SessionRepo.pairingForUser pairingID userID)
  | .createSession s => onDb (SessionRepo.createSession e s)
  | .getSession id userID => onDb (SessionRepo.getSession id userID)
  | .listSessions userID limit => onDb (SessionRepo.listSessions userID limit)
  | .pendingSessionsForDevice userID desktopDeviceID limit =>
    onDb (SessionRepo.pendingSessionsForDevice userID desktopDeviceID limit)
  | .endSession id userID reason => onDb (SessionRepo.endSession e.dbNow id userID reason)
  | .appendEvent sessionID eventType detail =>
    onDb (SessionRepo.appendEvent e.dbNow sessionID eventType detail)

/-- The call under the fault of its step. -/
def exec (e : Env) (c : Cmd) (s : Cloud) : Reply c × Cloud :=
  let out := e.fault.apply RepoError.other (c.effect e) s
  ((out.1, e.here), out.2)

abbrev Handler := Prog Reply

def err {α : Type} (code : Code) (message : String) : Except AppError α := .error ⟨code, message⟩

/-! ### The device service -/

namespace DeviceService

def register (userID : String) (reg : Registration) : Handler (Except AppError Device) :=
  let reg := { reg with userID, name := trimSpace reg.name }
  if !validKind reg.kind then return err .invalidInput "kind must be desktop or mobile"
  else if !validPlatform reg.platform then return err .invalidInput "platform is invalid"
  else if reg.name == "" || decide (maxNameLen < reg.name.utf8ByteSize) then
    return err .invalidInput "name is required and must be at most 120 characters"
  else if !validPublicKey reg.publicKey then
    return err .invalidInput "public_key must be a base64-encoded 32-byte X25519 key"
  else do
    let (device, _) ← perform (Cmd.registerDevice reg)
    match device with
    | .ok device => return .ok device
    | .error .publicKeyTaken => return err .conflict "device public key is already registered"
    | .error _ => return err .internal "failed to register device"

def list (userID : String) : Handler (Except AppError (List Device)) := do
  let (devices, _) ← perform (Cmd.listDevices userID)
  match devices with
  | .ok devices => return .ok devices
  | .error _ => return err .internal "failed to list devices"

def get (userID id : String) : Handler (Except AppError Device) := do
  let (device, _) ← perform (Cmd.getDevice id userID)
  match device with
  | .ok device => return .ok device
  | .error .deviceNotFound => return err .notFound "device not found"
  | .error _ => return err .internal "failed to load device"

def revoke (userID id : String) : Handler (Except AppError Unit) := do
  let (revoked, _) ← perform (Cmd.revokeDevice id userID)
  match revoked with
  | .ok () => return .ok ()
  | .error .deviceNotFound => return err .notFound "device not found"
  | .error _ => return err .internal "failed to revoke device"

def heartbeat (userID id : String) (status : Presence) : Handler (Except AppError Device) := do
  let status := if status ≠ .online ∧ status ≠ .offline then .online else status
  let (device, _) ← perform (Cmd.heartbeat id userID status)
  match device with
  | .ok device => return .ok device
  | .error .deviceNotFound => return err .notFound "device not found"
  | .error _ => return err .internal "failed to update device presence"

end DeviceService

/-! ### The pairing service -/

/-- `GenerateNumericCode`: one draw below ten for each digit. -/
def generateNumericCode (digits : ℕ) (digit : ℕ → Option (Fin 10)) : Option String :=
  ((List.range digits).mapM digit).map fun ds => String.ofList (ds.map fun d => Char.ofNat (0x30 + d))

def qrScheme : String := "desksync"
def qrHost : String := "pair"
def qrVersion : String := "1"

/-- `buildQRPayload`, with `url.URL.String` for a scheme, a host that needs no escaping and a query. -/
def buildQRPayload (pairingID code : String) : String :=
  let q : Values := []
  let q := q.set "v" qrVersion
  let q := q.set "pid" pairingID
  let q := q.set "code" code
  qrScheme ++ "://" ++ qrHost ++ "?" ++ q.encode

/-- `Challenge` of the pairing service: what the desktop displays. -/
structure Displayed where
  pairingID : String
  qrPayload : String
  manualCode : String
  expiresAt : Time
  deriving DecidableEq, Repr

structure PairingConfig where
  codeTTL : ℤ
  codeDigits : ℤ
  maxAttempts : ℤ

structure PairingService where
  codeTTL : Time
  codeDigits : ℕ
  maxAttempts : ℕ
  hashToken : TokenHash
  codeTTL_pos : 0 < codeTTL
  codeDigits_pos : 0 < codeDigits
  maxAttempts_pos : 0 < maxAttempts

/-- A configured number, or its default when it is not positive. -/
def orDefault (n : ℤ) (default : ℕ) : ℕ := if n ≤ 0 then default else n.toNat

theorem orDefault_pos (n : ℤ) {default : ℕ} (h : 0 < default) : 0 < orDefault n default := by
  unfold orDefault
  split
  · exact h
  · omega

namespace PairingService

/-- `New`. -/
def new (c : PairingConfig) (hashToken : TokenHash) : PairingService where
  codeTTL := orDefault c.codeTTL (5 * 60 * 1000)
  codeDigits := orDefault c.codeDigits 8
  maxAttempts := orDefault c.maxAttempts 5
  hashToken
  codeTTL_pos := orDefault_pos _ (by decide)
  codeDigits_pos := orDefault_pos _ (by decide)
  maxAttempts_pos := orDefault_pos _ (by decide)

variable (s : PairingService)

def initiate (userID desktopDeviceID : String) : Handler (Except AppError Displayed) :=
  if blank desktopDeviceID then return err .invalidInput "desktop_device_id is required"
  else do
    let (dev, here) ← perform (Cmd.deviceForUser desktopDeviceID userID)
    match dev with
    | .error .deviceNotFound => return err .notFound "desktop device not found"
    | .error _ => return err .internal "failed to load device"
    | .ok dev =>
      if dev.kind ≠ .desktop then return err .invalidInput "device is not a desktop"
      else match generateNumericCode s.codeDigits here.digit with
        | none => return err .internal "failed to generate code"
        | some code => do
          let pairingID := here.uuid
          let expiresAt := here.now + s.codeTTL
          let (saved, _) ← perform (Cmd.save
            { pairingID, userID, desktopDeviceID, codeHash := s.hashToken code, expiresAt } s.codeTTL)
          match saved with
          | .error _ => return err .internal "failed to store challenge"
          | .ok () =>
            return .ok { pairingID, qrPayload := buildQRPayload pairingID code, manualCode := code
                         expiresAt }

def invalidCode {α : Type} : Except AppError α := err .invalidInput "invalid or expired pairing code"

/-- `Confirm` refuses and consumes the challenge: it has expired, or was guessed at too often. -/
def burn (pairingID : String) : Handler (Except AppError Pairing) := do
  let _ ← perform (Cmd.consume pairingID)
  return invalidCode

/-- `Confirm` after a wrong code. -/
def recordFailure (pairingID : String) : Handler (Except AppError Pairing) := do
  let (attempts, _) ← perform (Cmd.recordFailedAttempt pairingID)
  match attempts with
  | .error _ => return invalidCode
  | .ok attempts => if s.maxAttempts ≤ attempts then burn pairingID else return invalidCode

/-- `Confirm` once the pairing is persisted: the result of `Consume` is dropped. -/
def spend (pairingID : String) (pairing : Pairing) : Handler (Except AppError Pairing) := do
  let _ ← perform (Cmd.consume pairingID)
  return .ok pairing

/-- `Confirm` once the mobile device has been checked. -/
def establish (userID pairingID mobileDeviceID desktopDeviceID : String) :
    Handler (Except AppError Pairing) := do
  let (pairing, _) ← perform (Cmd.upsertActivePairing userID mobileDeviceID desktopDeviceID)
  match pairing with
  | .error _ => return err .internal "failed to persist pairing"
  | .ok pairing => spend pairingID pairing

/-- `Confirm` after a right code. -/
def authorize (userID pairingID mobileDeviceID desktopDeviceID : String) :
    Handler (Except AppError Pairing) := do
  let (dev, _) ← perform (Cmd.deviceForUser mobileDeviceID userID)
  match dev with
  | .error .deviceNotFound => return err .notFound "mobile device not found"
  | .error _ => return err .internal "failed to load device"
  | .ok dev =>
    if dev.kind ≠ .mobile then return err .invalidInput "device is not a mobile device"
    else establish userID pairingID mobileDeviceID desktopDeviceID

/-- `Confirm` once the challenge has been looked up. -/
def checkChallenge (here : Here) (userID pairingID code mobileDeviceID : String)
    (ch : Except RepoError Challenge) : Handler (Except AppError Pairing) :=
  match ch with
  | .error .challengeNotFound => return invalidCode
  | .error _ => return err .internal "failed to load challenge"
  | .ok ch =>
    if ch.userID ≠ userID then return invalidCode
    else if ch.expiresAt < here.now then burn pairingID
    else if !equalTokenHash s.hashToken code ch.codeHash then s.recordFailure pairingID
    else authorize userID pairingID mobileDeviceID ch.desktopDeviceID

def confirm (userID pairingID code mobileDeviceID : String) : Handler (Except AppError Pairing) :=
  if blank pairingID || blank code || blank mobileDeviceID then
    return err .invalidInput "pairing_id, code and mobile_device_id are required"
  else do
    let (ch, here) ← perform (Cmd.get pairingID)
    s.checkChallenge here userID pairingID code mobileDeviceID ch

def list (userID : String) : Handler (Except AppError (List Pairing)) := do
  let (pairings, _) ← perform (Cmd.listPairings userID)
  match pairings with
  | .ok pairings => return .ok pairings
  | .error _ => return err .internal "failed to list pairings"

def revoke (userID id : String) : Handler (Except AppError Unit) := do
  let (revoked, _) ← perform (Cmd.revokePairing id userID)
  match revoked with
  | .ok () => return .ok ()
  | .error .pairingNotFound => return err .notFound "pairing not found"
  | .error _ => return err .internal "failed to revoke pairing"

end PairingService

/-! ### The session service -/

structure SessionConfig where
  tickets : Issuer
  ice : IceBuilder
  signalingURL : String
  defaultTimeout : ℤ

structure SessionService where
  tickets : Issuer
  ice : IceBuilder
  signalingURL : String
  timeout : Time
  timeout_pos : 0 < timeout

/-- A session with what its client needs to connect. -/
structure Created where
  session : Session
  signalingURL : String
  signalingTicket : String
  iceServers : List IceServer
  deriving DecidableEq, Repr

namespace SessionService

/-- `New`. -/
def new (c : SessionConfig) : SessionService where
  tickets := c.tickets
  ice := c.ice
  signalingURL := c.signalingURL
  timeout := orDefault c.defaultTimeout (15 * 60 * 1000)
  timeout_pos := orDefault_pos _ (by decide)

variable (s : SessionService)

def createSession (userID pairingID : String) : Handler (Except AppError Created) :=
  if pairingID == "" then return err .invalidInput "pairing_id is required"
  else do
    let (pairing, _) ← perform (Cmd.pairingForUser pairingID userID)
    match pairing with
    | .error .pairingNotFound => return err .notFound "pairing not found"
    | .error _ => return err .internal "failed to load pairing"
    | .ok pairing =>
      if pairing.status ≠ .active then return err .preconditionF "pairing is not active"
      else do
        let (session, here) ← perform (Cmd.createSession
          { id := "", pairingID, userID, status := .connecting, connectionType := none, startedAt := 0
            endedAt := none, endReason := none, timeoutSeconds := s.timeout / 1000, createdAt := 0 })
        match session with
        | .error _ => return err .internal "failed to create session"
        | .ok session =>
          match s.tickets.issue here.now session.id userID .controller with
          | .error _ => return err .internal "failed to issue signaling ticket"
          | .ok ticket => do
            let iceServers := s.ice.build here.now session.id
            let _ ← perform (Cmd.appendEvent session.id "created" [("pairing_id", pairingID)])
            return .ok { session, signalingURL := s.signalingURL, signalingTicket := ticket, iceServers }

def getSession (userID id : String) : Handler (Except AppError Session) := do
  let (session, _) ← perform (Cmd.getSession id userID)
  match session with
  | .ok session => return .ok session
  | .error .sessionNotFound => return err .notFound "session not found"
  | .error _ => return err .internal "failed to load session"

def listSessions (userID : String) : Handler (Except AppError (List Session)) := do
  let (sessions, _) ← perform (Cmd.listSessions userID 50)
  match sessions with
  | .ok sessions => return .ok sessions
  | .error _ => return err .internal "failed to list sessions"

/-- The loop of `PendingForDevice`: an agent ticket for each session, or the first failure. -/
def answer (now : Time) (userID : String) (sessions : List Session) : Except AppError (List Created) :=
  sessions.mapM fun session =>
    match s.tickets.issue now session.id userID .agent with
    | .error _ => err .internal "failed to issue signaling ticket"
    | .ok ticket => .ok
        { session, signalingURL := s.signalingURL, signalingTicket := ticket
          iceServers := s.ice.build now session.id }

def pendingForDevice (userID desktopDeviceID : String) : Handler (Except AppError (List Created)) :=
  if desktopDeviceID == "" then return err .invalidInput "device_id is required"
  else do
    let (sessions, here) ← perform (Cmd.pendingSessionsForDevice userID desktopDeviceID 10)
    match sessions with
    | .error _ => return err .internal "failed to list pending sessions"
    | .ok sessions => return s.answer here.now userID sessions

def endSession (userID id reason : String) : Handler (Except AppError Session) := do
  let reason := if reason == "" then "client_ended" else reason
  let (session, _) ← perform (Cmd.endSession id userID reason)
  match session with
  | .error .sessionNotFound => return err .notFound "session not found"
  | .error _ => return err .internal "failed to end session"
  | .ok session => do
    let _ ← perform (Cmd.appendEvent id "ended" [("reason", reason)])
    return .ok session

end SessionService

/-! ### Requests -/

structure Services where
  pairing : PairingService
  session : SessionService

inductive Request where
  | registerDevice (userID : String) (reg : Registration)
  | listDevices (userID : String)
  | getDevice (userID id : String)
  | revokeDevice (userID id : String)
  | heartbeat (userID id : String) (status : Presence)
  | initiate (userID desktopDeviceID : String)
  | confirm (userID pairingID code mobileDeviceID : String)
  | listPairings (userID : String)
  | revokePairing (userID id : String)
  | createSession (userID pairingID : String)
  | getSession (userID id : String)
  | listSessions (userID : String)
  | pendingForDevice (userID desktopDeviceID : String)
  | endSession (userID id reason : String)
  deriving DecidableEq, Repr

inductive Response where
  | device (result : Except AppError Device)
  | devices (result : Except AppError (List Device))
  | done (result : Except AppError Unit)
  | challenge (result : Except AppError Displayed)
  | pairing (result : Except AppError Pairing)
  | pairings (result : Except AppError (List Pairing))
  | created (result : Except AppError Created)
  | pending (result : Except AppError (List Created))
  | session (result : Except AppError Session)
  | sessions (result : Except AppError (List Session))

def Request.start (s : Services) : Request → Handler Response
  | .registerDevice userID reg => .device <$> DeviceService.register userID reg
  | .listDevices userID => .devices <$> DeviceService.list userID
  | .getDevice userID id => .device <$> DeviceService.get userID id
  | .revokeDevice userID id => .done <$> DeviceService.revoke userID id
  | .heartbeat userID id status => .device <$> DeviceService.heartbeat userID id status
  | .initiate userID desktopDeviceID => .challenge <$> s.pairing.initiate userID desktopDeviceID
  | .confirm userID pairingID code mobileDeviceID =>
    .pairing <$> s.pairing.confirm userID pairingID code mobileDeviceID
  | .listPairings userID => .pairings <$> PairingService.list userID
  | .revokePairing userID id => .done <$> PairingService.revoke userID id
  | .createSession userID pairingID => .created <$> s.session.createSession userID pairingID
  | .getSession userID id => .session <$> SessionService.getSession userID id
  | .listSessions userID => .sessions <$> SessionService.listSessions userID
  | .pendingForDevice userID desktopDeviceID =>
    .pending <$> s.session.pendingForDevice userID desktopDeviceID
  | .endSession userID id reason => .session <$> SessionService.endSession userID id reason

/-- Redis's clock goes on. -/
abbrev Tick := Time

/-- Any number of requests in flight. -/
def system (s : Services) : System Cloud Request Reply Response Env Tick where
  start q _ := q.start s
  exec := exec
  env d w := { w with redis := w.redis.tick d }

abbrev World := Pool Cloud Request Reply Response

abbrev Step := Label Request Env Tick

/-! ### One request after the other -/

/-- A request with the outcomes of its calls, or the passing of time. -/
inductive Op where
  | request (q : Request) (es : ℕ → Env)
  | tick (d : Tick)

/-- The response of an operation that is run to its end, and the store it leaves. -/
def Op.run (s : Services) (w : Cloud) : Op → Option Response × Cloud
  | .request q es => let out := (q.start s).run exec es w; (some out.1, out.2)
  | .tick d => (none, { w with redis := w.redis.tick d })

def Op.step (s : Services) (w : Cloud) (op : Op) : Cloud := (op.run s w).2

/-! ### A sample deployment -/

/-- One-digit codes and a single attempt. -/
def sampleServices : Services where
  pairing := .new ⟨0, 1, 1⟩ fun token => "#" ++ token
  session := .new
    { tickets := { ttl := 60000, encode := fun t => .ok (t.sessionID ++ "/" ++ t.userID)
                   ttl_pos := by decide }
      ice := ⟨[], [], "", 0, id⟩
      signalingURL := "wss://signal"
      defaultTimeout := 0 }

def sampleDevice (id userID : String) (kind : Kind) : DeviceRow :=
  { id, userID, kind, platform := .linux, name := id, publicKey := id, status := .offline
    lastSeenAt := none, fcmToken := none, createdAt := 0, updatedAt := 0, revokedAt := none }

/-- A user with a desktop and two phones. -/
def sampleDb : FleetDb where
  users := ["u1"]
  devices := [sampleDevice "d1" "u1" .desktop, sampleDevice "m1" "u1" .mobile,
    sampleDevice "m2" "u1" .mobile]
  pairings := []
  sessions := []
  sessionEvents := []

/-- A call that goes through; keys drawn are `uuid`, code digits are `7`. -/
def goes (uuid : String) : Env := ⟨.none, 0, uuid, ⟨0, uuid, fun _ => some 7⟩⟩

end DeskSync.Fleet
