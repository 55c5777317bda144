import DeskSync.Auth.Service

/-!
# OAuth sign-in over HTTP

`oauthStart` and `oauthCallback` of `services/auth/internal/transport/http.go` over the state store of
`repository/state.go`. `oauthStart` saves a PKCE verifier under a random state; `oauthCallback` takes it
out again, exchanges the code at the provider, and goes on with `UpsertOAuthUser`.

Every call on the state store and at the provider is one step, and a value of the state store may expire
at any time. A request names the browser that sends it, which the handlers do not look at.
-/

namespace DeskSync.Auth

def Provider.id : Provider → String
  | .google => "google"
  | .github => "github"

namespace OAuth

open Backend Proc
open Proc.Prog (perform)

abbrev Browser := ℕ

/-- `oauth.UserInfo`. -/
structure UserInfo where
  providerUserID : String
  email : String
  name : String

/-- The providers with credentials; the OAuth library builds the consent URLs. -/
structure Registry where
  configured : Provider → Bool
  authCodeURL : Provider → (state verifier : String) → String

/-- `Registry.Get`. -/
def Registry.get (r : Registry) (provider : String) : Option Provider :=
  [Provider.google, .github].find? fun p => r.configured p && p.id == provider

/-! ### The state store -/

/-- The keys of Redis, and the auth tables. -/
structure Store where
  states : String → Option String
  db : AuthDb

namespace RedisStateStore

def key (state : String) : String := "oauth:state:" ++ state

def save (state verifier : String) (s : Store) : Except Unit Unit × Store :=
  (.ok (), { s with states := Function.update s.states (key state) (some verifier) })

/-- `GETDEL`. -/
def consume (state : String) (s : Store) : Except Unit String × Store :=
  match s.states (key state) with
  | none => (.error (), s)
  | some verifier => (.ok verifier, { s with states := Function.update s.states (key state) none })

end RedisStateStore

/-! ### Calls -/

inductive Call where
  | save (state verifier : String) (ttl : Time)
  | consume (state : String)
  | exchange (p : Provider) (code verifier : String)
  | repo (c : Cmd)

@[reducible] def Answer : Call → Type
  | .save .. => Except Unit Unit
  | .consume _ => Except Unit String
  | .exchange .. => Except Unit UserInfo
  | .repo c => Reply c

/-- What a step reads from outside: the random tokens, how a call on Redis ends, what the provider
answers, and what the repository calls read. -/
structure Env where
  state : Except Unit String := .error ()
  verifier : Except Unit String := .error ()
  fault : Fault := .none
  exchanged : Except Unit UserInfo := .error ()
  repo : Auth.Env := ⟨.none, 0, "", ⟨0, "", ""⟩⟩

def exec (citext : Citext) (e : Env) : (c : Call) → Store → Answer c × Store
  | .save state verifier _, s => e.fault.apply () (RedisStateStore.save state verifier) s
  | .consume state, s => e.fault.apply () (RedisStateStore.consume state) s
  | .exchange .., s => (e.exchanged, s)
  | .repo c, s => ((Auth.exec citext e.repo c s.db).1, { s with db := (Auth.exec citext e.repo c s.db).2 })

abbrev Handler := Prog Answer

/-! ### The handlers -/

/-- `transport.Handler`, what the OAuth endpoints use of it. -/
structure Endpoints where
  svc : Service
  oauth : Registry

namespace Endpoints
variable (h : Endpoints)

def oauthStart (provider : String) (e : Env) : Handler (Except AppError String) :=
  match h.oauth.get provider with
  | none => return err .notFound "oauth provider not configured"
  | some prov =>
    match e.state with
    | .error () => return err .internal "state generation failed"
    | .ok state =>
      match e.verifier with
      | .error () => return err .internal "verifier generation failed"
      | .ok verifier => do
        let saved : Except Unit Unit ← perform (Call.save state verifier (10 * 60 * 1000))
        match saved with
        | .error () => return err .internal "failed to persist oauth state"
        | .ok () => return .ok (h.oauth.authCodeURL prov state verifier)

def oauthCallback (provider state code : String) (md : Metadata) : Handler (Except AppError Tokens) :=
  match h.oauth.get provider with
  | none => return err .notFound "oauth provider not configured"
  | some prov =>
    if state = "" ∨ code = "" then return err .invalidInput "missing state or code"
    else do
      let consumed : Except Unit String ← perform (Call.consume state)
      match consumed with
      | .error () => return err .unauthorized "invalid or expired oauth state"
      | .ok verifier => do
        let exchanged : Except Unit UserInfo ← perform (Call.exchange prov code verifier)
        match exchanged with
        | .error () => return err .unauthorized "oauth exchange failed"
        | .ok info =>
          if info.email = "" then return err .invalidInput "provider did not return a verified email"
          else (h.svc.upsertOAuthUser prov info.providerUserID info.email info.name md).lift .repo fun _ => id

end Endpoints

/-! ### Requests in flight -/

inductive Request where
  | oauthStart (browser : Browser) (provider : String)
  | oauthCallback (browser : Browser) (provider state code : String) (md : Metadata)

inductive Response where
  | redirect (result : Except AppError String)
  | tokens (result : Except AppError Tokens)

def Request.start (h : Endpoints) (e : Env) : Request → Handler Response
  | .oauthStart _ provider => .redirect <$> h.oauthStart provider e
  | .oauthCallback _ provider state code md => .tokens <$> h.oauthCallback provider state code md

/-- Any number of requests in flight. On its own, the key given by the step expires. -/
def system (h : Endpoints) : System Store Request Answer Response Env String where
  start q e := q.start h e
  exec := exec h.svc.citext
  env key s := { s with states := Function.update s.states key none }

abbrev World := Pool Store Request Answer Response

abbrev Step := Label Request Env String

/-- No state is saved and no request has been made. -/
def fresh (db : AuthDb) : World := ⟨⟨fun _ => none, db⟩, []⟩

end OAuth

end DeskSync.Auth
