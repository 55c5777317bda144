import DeskSync.Auth.Repository

/-!
# The auth service

`services/auth/internal/service/auth_service.go`: register, login, refresh, logout and the OAuth
upsert, each a handler over the repository calls, and the system in which any number of requests are
in flight (`system`). Between two repository calls a handler only computes, so a step of the system is
one repository call together with the computation up to the next one.
-/

namespace DeskSync.Auth

open Backend Proc
open Proc.Prog (perform)

/-- `Service` with the password hashing and the string folding it uses. -/
structure Service where
  jwt : Manager
  refreshT : Time
  hashPassword : (password salt : String) → Except Unit String
  verifyPassword : (password encoded : String) → Except Unit Bool
  hashToken : TokenHash
  toLower : String → String
  citext : Citext

structure Metadata where
  userAgent : String
  ipAddress : String
  deriving DecidableEq, Repr

/-- The result of a successful authentication; `user` is the row the handler read or created. -/
structure Tokens where
  accessToken : String
  refreshToken : String
  expiresIn : ℕ
  user : User
  deriving DecidableEq, Repr

abbrev Handler := Prog Reply

/-! ### The calls, as the handlers make them -/

namespace Users

abbrev createUser (u : User) : Handler (Except RepoError User × Here) := perform (Cmd.createUser u)

abbrev getUserByEmail (email : String) : Handler (Except RepoError User × Here) :=
  perform (Cmd.getUserByEmail email)

abbrev getUserByID (id : String) : Handler (Except RepoError User × Here) :=
  perform (Cmd.getUserByID id)

abbrev getByProviderIdentity (p : Provider) (providerUserID : String) :
    Handler (Except RepoError User × Here) :=
  perform (Cmd.getByProviderIdentity p providerUserID)

abbrev linkOAuthIdentity (id : OAuthIdentity) : Handler (Except RepoError Unit × Here) :=
  perform (Cmd.linkOAuthIdentity id)

end Users

namespace RefreshTokens

abbrev create (t : RefreshToken) : Handler (Except RepoError Unit × Here) := perform (Cmd.create t)

abbrev getByID (jti : String) : Handler (Except RepoError RefreshToken × Here) :=
  perform (Cmd.getByID jti)

abbrev revoke (jti : String) (replacedBy : Option String) : Handler (Except RepoError Unit × Here) :=
  perform (Cmd.revoke jti replacedBy)

abbrev revokeAllForUser (userID : String) : Handler (Except RepoError Unit × Here) :=
  perform (Cmd.revokeAllForUser userID)

end RefreshTokens

/-! ### The service -/

def err {α : Type} (code : Code) (message : String) : Except AppError α := .error ⟨code, message⟩

/-- `validEmail`: something before the first `@`, something after it, and a `.` past its start. -/
def validEmail (email : String) : Bool :=
  let b := bytes email
  let at' := indexByte b 0x40
  if at' ≤ 0 ∨ at' = b.length - 1 then false
  else decide (0 < indexByte (b.drop (at'.toNat + 1)) 0x2E)

namespace Service
variable (s : Service)

def normalizeEmail (email : String) : String := s.toLower (trimSpace email)

/-- `mint`: issue a pair for the user, store the hashed refresh token, and return the new JTI. -/
def mint (here : Here) (user : User) (md : Metadata) : Handler (Except AppError (Tokens × String)) :=
  let jti := here.uuid
  match s.jwt.issue here.now user.id jti with
  | .error _ => return err .internal "failed to issue tokens"
  | .ok pair => do
    let (created, _) ← RefreshTokens.create
      { id := jti
        userID := user.id
        tokenHash := s.hashToken pair.refreshToken
        issuedAt := here.now
        expiresAt := here.now + s.refreshT
        revokedAt := none
        replacedBy := none
        userAgent := md.userAgent
        ipAddress := md.ipAddress }
    match created with
    | .error _ => return err .internal "failed to persist token"
    | .ok () =>
      return .ok ({ accessToken := pair.accessToken
                    refreshToken := pair.refreshToken
                    expiresIn := pair.expiresIn
                    user }, jti)

/-- `mint` returns the user it was given. -/
theorem mint_user {spec : (c : Cmd) → Reply c → Prop} (here : Here) (user : User) (md : Metadata) :
    (s.mint here user md).Post spec fun result =>
      ∀ tokens jti, result = .ok (tokens, jti) → tokens.user = user := by
  unfold mint
  dsimp only
  split
  · rintro tokens jti ⟨⟩
  · rintro ⟨_ | _, here'⟩ -
    · rintro tokens jti ⟨⟩
    · rintro tokens jti ⟨⟩
      rfl

def issueTokens (here : Here) (user : User) (md : Metadata) : Handler (Except AppError Tokens) := do
  let minted ← s.mint here user md
  return minted.map (·.1)

def register (here : Here) (email password displayName : String) (md : Metadata) :
    Handler (Except AppError Tokens) :=
  let email := s.normalizeEmail email
  if !validEmail email then return err .invalidInput "a valid email is required"
  else if password.utf8ByteSize < 12 then
    return err .invalidInput "password must be at least 12 characters"
  else match s.hashPassword password here.salt with
    | .error _ => return err .internal "failed to hash password"
    | .ok hash => do
      let (created, here) ← Users.createUser
        { id := "", email, passwordHash := some hash, displayName, emailVerified := false
          isActive := true, createdAt := 0, updatedAt := 0 }
      match created with
      | .error .emailTaken => return err .conflict "email is already registered"
      | .error _ => return err .internal "failed to create user"
      | .ok user => s.issueTokens here user md

def login (email password : String) (md : Metadata) : Handler (Except AppError Tokens) := do
  let (found, here) ← Users.getUserByEmail (s.normalizeEmail email)
  match found with
  | .error .userNotFound => return err .unauthorized "invalid credentials"
  | .error _ => return err .internal "lookup failed"
  | .ok user =>
    if !user.isActive then return err .forbidden "account is disabled"
    else if !user.hasPassword then return err .unauthorized "invalid credentials"
    else match s.verifyPassword password (user.passwordHash.getD "") with
      | .ok true => s.issueTokens here user md
      | _ => return err .unauthorized "invalid credentials"

def reuseDetected : AppError := ⟨.unauthorized, "refresh token reuse detected"⟩

/-- The last step of `Refresh`: revoke the old token, chaining it to the new one. -/
def rotate (stored : RefreshToken) (tokens : Tokens) (newJTI : String) :
    Handler (Except AppError Tokens) := do
  let (revoked, _) ← RefreshTokens.revoke stored.id (some newJTI)
  match revoked with
  | .error _ => return err .internal "failed to rotate token"
  | .ok () => return .ok tokens

/-- `Refresh` once the stored token has been read as usable. -/
def exchange (stored : RefreshToken) (md : Metadata) : Handler (Except AppError Tokens) := do
  let (found, here) ← Users.getUserByID stored.userID
  match found with
  | .error _ => return err .unauthorized "invalid refresh token"
  | .ok user =>
    let minted ← s.mint here user md
    match minted with
    | .error e => return .error e
    | .ok (tokens, newJTI) => rotate stored tokens newJTI

/-- `Refresh` once the row of the presented token has been looked up. -/
def checkStored (here : Here) (refreshToken : String) (md : Metadata)
    (stored : Except RepoError RefreshToken) : Handler (Except AppError Tokens) :=
  match stored with
  | .error _ => return err .unauthorized "invalid refresh token"
  | .ok stored =>
    if stored.revokedAt.isSome then do
      let _ ← RefreshTokens.revokeAllForUser stored.userID
      return .error reuseDetected
    else if !equalTokenHash s.hashToken refreshToken stored.tokenHash || !stored.active here.now then
      return err .unauthorized "invalid refresh token"
    else s.exchange stored md

def refresh (here : Here) (refreshToken : String) (md : Metadata) :
    Handler (Except AppError Tokens) :=
  match s.jwt.verifyRefresh here.now refreshToken with
  | .error _ => return err .unauthorized "invalid refresh token"
  | .ok claims => do
    let (stored, here) ← RefreshTokens.getByID claims.id
    s.checkStored here refreshToken md stored

def logout (here : Here) (refreshToken : String) : Handler (Except AppError Unit) :=
  match s.jwt.verifyRefresh here.now refreshToken with
  | .error _ => return .ok ()
  | .ok claims => do
    let (revoked, _) ← RefreshTokens.revoke claims.id none
    match revoked with
    | .ok () => return .ok ()
    | .error .refreshNotFound => return .ok ()
    | .error _ => return err .internal "failed to revoke token"

/-- The last step of `UpsertOAuthUser`: link the identity and issue tokens. -/
def linkAndIssue (p : Provider) (providerUserID : String) (user : User) (md : Metadata) :
    Handler (Except AppError Tokens) := do
  let (linked, here) ← Users.linkOAuthIdentity { userID := user.id, provider := p, providerUserID }
  match linked with
  | .error _ => return err .internal "failed to link identity"
  | .ok () => s.issueTokens here user md

def upsertOAuthUser (p : Provider) (providerUserID email displayName : String) (md : Metadata) :
    Handler (Except AppError Tokens) := do
  let email := s.normalizeEmail email
  let (known, here) ← Users.getByProviderIdentity p providerUserID
  match known with
  | .ok user => s.issueTokens here user md
  | .error .userNotFound => do
    let (found, _) ← Users.getUserByEmail email
    match found with
    | .ok user => s.linkAndIssue p providerUserID user md
    | .error .userNotFound => do
      let (created, _) ← Users.createUser
        { id := "", email, passwordHash := none, displayName, emailVerified := true
          isActive := true, createdAt := 0, updatedAt := 0 }
      match created with
      | .error _ => return err .internal "failed to create user"
      | .ok user => s.linkAndIssue p providerUserID user md
    | .error _ => return err .internal "lookup failed"
  | .error _ => return err .internal "identity lookup failed"

end Service

/-! ### Requests in flight -/

inductive Request where
  | register (email password displayName : String) (md : Metadata)
  | login (email password : String) (md : Metadata)
  | refresh (refreshToken : String) (md : Metadata)
  | logout (refreshToken : String)
  | upsertOAuthUser (p : Provider) (providerUserID email displayName : String) (md : Metadata)
  deriving DecidableEq, Repr

inductive Response where
  | tokens (result : Except AppError Tokens)
  | done (result : Except AppError Unit)

def Request.start (s : Service) (here : Here) : Request → Handler Response
  | .register email password displayName md =>
    .tokens <$> s.register here email password displayName md
  | .login email password md => .tokens <$> s.login email password md
  | .refresh refreshToken md => .tokens <$> s.refresh here refreshToken md
  | .logout refreshToken => .done <$> s.logout here refreshToken
  | .upsertOAuthUser p providerUserID email displayName md =>
    .tokens <$> s.upsertOAuthUser p providerUserID email displayName md

/-- What happens to the tables outside the service: an operator deactivates an account. -/
inductive Admin where
  | deactivate (userID : String)
  deriving DecidableEq, Repr

def Admin.apply : Admin → AuthDb → AuthDb
  | .deactivate userID, db =>
    { db with users := db.users.map fun u => if u.id = userID then { u with isActive := false } else u }

/-- Any number of requests in flight on the auth tables. -/
def system (s : Service) : System AuthDb Request Reply Response Env Admin where
  start q e := q.start s e.here
  exec := exec s.citext
  env := Admin.apply

abbrev World := Pool AuthDb Request Reply Response

abbrev Step := Label Request Env Admin

end DeskSync.Auth
