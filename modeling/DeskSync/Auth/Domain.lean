import DeskSync.Backend.Basic

/-!
# Users, identities and refresh tokens

The entities of the auth service (`services/auth/internal/domain`) and the JWT manager
(`pkg/jwtauth`). The JWT library is a parameter: a token carries its claims as a payload
(`JwtLib.payload`), and whether the library accepts it (signature, method, issuer, time) is
`JwtLib.valid`.
-/

namespace DeskSync.Auth

open Backend

/-! ### `domain` -/

inductive Provider where
  | google
  | github
  deriving DecidableEq, Repr

structure User where
  id : String
  email : String
  passwordHash : Option String
  displayName : String
  emailVerified : Bool
  isActive : Bool
  createdAt : Time
  updatedAt : Time
  deriving DecidableEq, Repr

def User.hasPassword (u : User) : Bool :=
  match u.passwordHash with
  | some h => h != ""
  | none => false

structure OAuthIdentity where
  userID : String
  provider : Provider
  providerUserID : String
  deriving DecidableEq, Repr

structure RefreshToken where
  id : String
  userID : String
  tokenHash : String
  issuedAt : Time
  expiresAt : Time
  revokedAt : Option Time
  replacedBy : Option String
  userAgent : String
  ipAddress : String
  deriving DecidableEq, Repr

/-- `RefreshToken.Active`. -/
def RefreshToken.active (t : RefreshToken) (now : Time) : Bool :=
  t.revokedAt.isNone && decide (now < t.expiresAt)

/-- The sentinel errors of the repositories; `other` stands for any further failure. -/
inductive RepoError where
  | userNotFound
  | emailTaken
  | refreshNotFound
  | other
  deriving DecidableEq, Repr

/-! ### `jwtauth` -/

inductive TokenType where
  | access
  | refresh
  deriving DecidableEq, Repr

structure Claims where
  issuer : String
  subject : String
  id : String
  issuedAt : Time
  expiresAt : Time
  userID : String
  type : TokenType
  deriving DecidableEq, Repr

/-- The JWT library, as `sign` and `verify` use it. -/
structure JwtLib where
  signedString : (secret : String) → Claims → Except Unit String
  payload : (token : String) → Option Claims
  valid : (now : Time) → (secret issuer token : String) → Bool

/-- `jwtauth.Manager`: `NewManager` refuses short secrets. -/
structure Manager where
  lib : JwtLib
  accessSecret : String
  refreshSecret : String
  accessTTL : Time
  refreshTTL : Time
  issuer : String
  accessSecret_len : 16 ≤ accessSecret.utf8ByteSize
  refreshSecret_len : 16 ≤ refreshSecret.utf8ByteSize

structure TokenPair where
  accessToken : String
  refreshToken : String
  expiresIn : ℕ
  refreshJTI : String
  deriving DecidableEq, Repr

namespace Manager
variable (m : Manager)

def claims (now : Time) (userID id : String) (ttl : Time) (type : TokenType) : Claims :=
  { issuer := m.issuer, subject := userID, id, issuedAt := now, expiresAt := now + ttl, userID, type }

/-- `Manager.Issue`; the access token carries no JTI. -/
def issue (now : Time) (userID refreshJTI : String) : Except Unit TokenPair := do
  let access ← m.lib.signedString m.accessSecret (m.claims now userID "" m.accessTTL .access)
  let refresh ← m.lib.signedString m.refreshSecret (m.claims now userID refreshJTI m.refreshTTL .refresh)
  return { accessToken := access, refreshToken := refresh, expiresIn := m.accessTTL / 1000, refreshJTI }

inductive VerifyError where
  | invalidToken
  | wrongTokenType
  deriving DecidableEq, Repr

def verify (now : Time) (token secret : String) (want : TokenType) : Except VerifyError Claims :=
  match m.lib.payload token with
  | none => .error .invalidToken
  | some claims =>
    if !m.lib.valid now secret m.issuer token then .error .invalidToken
    else if claims.type ≠ want then .error .wrongTokenType
    else .ok claims

/-- `Manager.VerifyRefresh`. -/
def verifyRefresh (now : Time) (token : String) : Except VerifyError Claims :=
  m.verify now token m.refreshSecret .refresh

/-- The claims a token verifies to are its payload, whenever it verifies. -/
theorem payload_of_verifyRefresh {m : Manager} {now : Time} {token : String} {claims : Claims}
    (h : m.verifyRefresh now token = .ok claims) : m.lib.payload token = some claims := by
  unfold verifyRefresh verify at h
  split at h
  · cases h
  · rename_i c hc
    split_ifs at h
    cases h
    exact hc

end Manager

end DeskSync.Auth
