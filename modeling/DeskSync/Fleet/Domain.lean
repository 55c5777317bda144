import DeskSync.Backend.Basic

/-!
# Devices, pairings and sessions

The entities of the device, pairing and session services (`services/{device,pairing,session}/internal/
domain`), the checks of a device registration, and the two pure helpers of the session service: the
signaling ticket and the ICE server list. Identifiers are the canonical texts of UUIDs; times and
durations are in milliseconds.
-/

namespace DeskSync.Fleet

open Backend

/-! ### Devices -/

inductive Kind where
  | desktop
  | mobile
  | other (text : String)
  deriving DecidableEq, Repr

inductive Platform where
  | windows
  | macos
  | linux
  | android
  | ios
  | other (text : String)
  deriving DecidableEq, Repr

/-- The device service's `Status`: presence. -/
inductive Presence where
  | online
  | offline
  | other (text : String)
  deriving DecidableEq, Repr

structure Device where
  id : String
  userID : String
  kind : Kind
  platform : Platform
  name : String
  publicKey : String
  status : Presence
  lastSeenAt : Option Time
  fcmToken : Option String
  createdAt : Time
  updatedAt : Time
  deriving DecidableEq, Repr

/-- A row of `devices`. -/
structure DeviceRow extends Device where
  revokedAt : Option Time
  deriving DecidableEq, Repr

structure Registration where
  userID : String
  kind : Kind
  platform : Platform
  name : String
  publicKey : String
  fcmToken : Option String
  deriving DecidableEq, Repr

def x25519KeyLen : ℕ := 32

def maxNameLen : ℕ := 120

def validKind (k : Kind) : Bool := k == .desktop || k == .mobile

def validPlatform : Platform → Bool
  | .windows | .macos | .linux | .android | .ios => true
  | .other _ => false

/-- The alphabet of `base64.StdEncoding`. -/
def isBase64 (b : UInt8) : Bool :=
  (0x41 ≤ b && b ≤ 0x5A) || (0x61 ≤ b && b ≤ 0x7A) || (0x30 ≤ b && b ≤ 0x39) || b == 0x2B || b == 0x2F

/-- The number of bytes `DecodeString` yields, with padding (`StdEncoding`) or without
(`RawStdEncoding`); line breaks are skipped, and the unused bits of the last character are not
checked. -/
def decodedLen (padded : Bool) (key : String) : Option ℕ :=
  let input := (bytes key).filter fun b => b != 0x0A && b != 0x0D
  let body := input.takeWhile isBase64
  let rest := input.dropWhile isBase64
  let padding := if padded then (4 - body.length % 4) % 4 else 0
  if body.length % 4 ≠ 1 ∧ rest = List.replicate padding 0x3D then some (body.length * 6 / 8) else none

def validPublicKey (key : String) : Bool :=
  let key := trimSpace key
  key != "" && (decodedLen true key == some x25519KeyLen || decodedLen false key == some x25519KeyLen)

/-! ### Pairings -/

inductive PairingStatus where
  | pending
  | active
  | revoked
  deriving DecidableEq, Repr

structure Pairing where
  id : String
  userID : String
  mobileDeviceID : String
  desktopDeviceID : String
  status : PairingStatus
  trusted : Bool
  createdAt : Time
  confirmedAt : Option Time
  deriving DecidableEq, Repr

/-- A row of `pairings`. -/
structure PairingRow extends Pairing where
  revokedAt : Option Time
  deriving DecidableEq, Repr

structure DeviceRef where
  id : String
  userID : String
  kind : Kind
  deriving DecidableEq, Repr

structure Challenge where
  pairingID : String
  userID : String
  desktopDeviceID : String
  codeHash : String
  expiresAt : Time
  deriving DecidableEq, Repr

/-! ### Sessions -/

inductive SessionStatus where
  | initiating
  | connecting
  | active
  | ended
  | failed
  deriving DecidableEq, Repr

inductive ConnectionType where
  | p2p
  | relay
  deriving DecidableEq, Repr

structure Session where
  id : String
  pairingID : String
  userID : String
  status : SessionStatus
  connectionType : Option ConnectionType
  startedAt : Time
  endedAt : Option Time
  endReason : Option String
  timeoutSeconds : ℕ
  createdAt : Time
  deriving DecidableEq, Repr

/-- The session service's view of a pairing. -/
structure PairingView where
  id : String
  mobileDeviceID : String
  desktopDeviceID : String
  status : PairingStatus
  deriving DecidableEq, Repr

/-- A row of `session_events`. -/
structure SessionEvent where
  sessionID : String
  eventType : String
  detail : List (String × String)
  createdAt : Time
  deriving DecidableEq, Repr

/-- The sentinel errors of the three domains; anything else a driver reports is `other`. -/
inductive RepoError where
  | deviceNotFound
  | publicKeyTaken
  | pairingNotFound
  | sessionNotFound
  | challengeNotFound
  | other
  deriving DecidableEq, Repr

/-! ### `pkg/signalticket` -/

inductive Role where
  | controller
  | agent
  deriving DecidableEq, Repr

structure Ticket where
  sessionID : String
  userID : String
  role : Role
  /-- Unix seconds. -/
  expiresAt : ℕ
  deriving DecidableEq, Repr

/-- `Issuer`; `encode` is the JSON payload with its HMAC. -/
structure Issuer where
  ttl : Time
  encode : Ticket → Except Unit String
  ttl_pos : 0 < ttl

def Issuer.issue (i : Issuer) (now : Time) (sessionID userID : String) (role : Role) :
    Except Unit String :=
  i.encode { sessionID, userID, role, expiresAt := (now + i.ttl) / 1000 }

/-! ### `internal/ice` -/

structure IceServer where
  urls : List String
  username : String
  credential : String
  deriving DecidableEq, Repr

/-- `Builder`; `mac` is the base64 of the HMAC-SHA1 under the TURN secret. -/
structure IceBuilder where
  stunURLs : List String
  turnURLs : List String
  turnSecret : String
  credentialTTL : ℤ
  mac : String → String

def IceBuilder.turnCredentials (b : IceBuilder) (now : Time) (sessionID : String) : String × String :=
  let ttl := if b.credentialTTL ≤ 0 then 60 * 60 * 1000 else b.credentialTTL.toNat
  let username := toString ((now + ttl) / 1000) ++ ":" ++ sessionID
  (username, b.mac username)

def IceBuilder.build (b : IceBuilder) (now : Time) (sessionID : String) : List IceServer :=
  let stun := if b.stunURLs.isEmpty then [] else [⟨b.stunURLs, "", ""⟩]
  if !b.turnURLs.isEmpty && b.turnSecret != "" then
    let (username, credential) := b.turnCredentials now sessionID
    stun ++ [⟨b.turnURLs, username, credential⟩]
  else stun

end DeskSync.Fleet
