import DeskSync.Lib.Proc

/-!
# The tokens of the mobile client

`AuthInterceptor` (`core/network/auth_interceptor.dart`) and `AuthRepository`
(`features/auth/data/auth_repository.dart`) over the secure storage. A request reads the access token it
carries; when it fails with 401, `onError` refreshes the token pair, or clears it, and sends the request
again. `login` and `register` store a pair, `logout` clears it.

Every `await` is one call, so a step is what happens between two of them. The queue of the interceptor
runs one `onError` at a time: `turn` waits for the one before, and `complete` is what the handler that
`onError` is given does to let the next one run. Answers of the backend come with the step.

When a session expires the controller clears the tokens too, without anybody waiting for it. The model
does this after `complete`; nothing but the queue tells the two orders apart.
-/

namespace DeskSync.Mobile.Auth

open Proc
open Proc.Prog (perform)

/-! ### What is stored and sent -/

/-- `StorageKeys`, of the token pair. -/
inductive Key
  | accessToken
  | refreshToken
  deriving DecidableEq

abbrev SecureStore := Key → Option String

/-- The secure storage, whether an `onError` runs, and `_inFlightRefresh`. -/
structure Device where
  store : SecureStore
  busy : Bool := false
  inFlight : Bool := false

structure TokenPair where
  accessToken : String
  refreshToken : String
  deriving DecidableEq

/-- The body of a refresh, as far as its fields are there. -/
structure RefreshBody where
  accessToken : Option String
  refreshToken : Option String
  deriving DecidableEq

/-! ### Calls -/

inductive Call
  | read (k : Key)
  | write (k : Key) (v : String)
  | delete (k : Key)
  | send (token : Option String)
  | turn
  | complete
  /-- `_inFlightRefresh ??=`, true if there is one. -/
  | joinRefresh
  | awaitRefresh
  | refreshCompleted
  | postRefresh (refreshToken : String)
  | fetch (token : Option String)
  /-- `onSessionExpired`, true if the controller clears the session. -/
  | sessionExpired
  | login (email password : String)
  | register (email password : String) (displayName : Option String)
  | logout (refreshToken : String)
  deriving DecidableEq

/-- A request that fails has a status, or no response at all. -/
@[reducible] def Reply : Call → Type
  | .read _ => Option String
  | .send _ => Except (Option ℕ) Unit
  | .joinRefresh => Bool
  | .awaitRefresh => Bool
  | .postRefresh _ => Except Unit (Option RefreshBody)
  | .fetch _ => Except Unit Unit
  | .sessionExpired => Bool
  | .login .. => Except Unit TokenPair
  | .register .. => Except Unit TokenPair
  | .logout _ => Except Unit Unit
  | _ => Unit

/-- What the backend answers, the refresh in flight yields, and the controller decides. -/
structure Env where
  sent : Except (Option ℕ) Unit := .ok ()
  shared : Bool := false
  refreshed : Except Unit (Option RefreshBody) := .error ()
  fetched : Except Unit Unit := .ok ()
  clears : Bool := false
  tokens : Except Unit TokenPair := .error ()
  loggedOut : Except Unit Unit := .ok ()

def exec (e : Env) : (c : Call) → Device → Reply c × Device
  | .read k, d => (d.store k, d)
  | .write k v, d => ((), { d with store := Function.update d.store k (some v) })
  | .delete k, d => ((), { d with store := Function.update d.store k none })
  | .send _, d => (e.sent, d)
  | .turn, d => ((), { d with busy := true })
  | .complete, d => ((), { d with busy := false })
  | .joinRefresh, d => (d.inFlight, { d with inFlight := true })
  | .awaitRefresh, d => (e.shared, d)
  | .refreshCompleted, d => ((), { d with inFlight := false })
  | .postRefresh _, d => (e.refreshed, d)
  | .fetch _, d => (e.fetched, d)
  | .sessionExpired, d => (e.clears, d)
  | .login .., d => (e.tokens, d)
  | .register .., d => (e.tokens, d)
  | .logout _, d => (e.loggedOut, d)

abbrev Handler := Prog Reply

/-! ### `FlutterSecureStore` -/

def saveTokens (t : TokenPair) : Handler Unit := do
  perform (Call.write .accessToken t.accessToken)
  perform (Call.write .refreshToken t.refreshToken)

def clearTokens : Handler Unit := do
  perform (Call.delete .accessToken)
  perform (Call.delete .refreshToken)

/-! ### `AuthInterceptor` -/

def isPublicAuthPath (path : String) : Bool :=
  ["/auth/login", "/auth/register", "/auth/refresh", "/auth/oauth"].any fun part =>
    decide (part.toList <:+: path.toList)

/-- The token, if there is one and it is not empty. -/
def present (token : Option String) : Option String := token.filter (· != "")

/-- `onRequest`: the token the request carries. -/
def onRequest (path : String) : Handler (Option String) :=
  if isPublicAuthPath path then return none
  else do
    let token : Option String ← perform (Call.read .accessToken)
    return present token

/-- `_doRefresh`. -/
def doRefresh : Handler Bool := do
  let refreshToken : Option String ← perform (Call.read .refreshToken)
  match present refreshToken with
  | none => return false
  | some refreshToken =>
    let resp : Except Unit (Option RefreshBody) ← perform (Call.postRefresh refreshToken)
    match resp with
    | .error () => return false
    | .ok none => return false
    | .ok (some data) =>
      match present data.accessToken with
      | none => return false
      | some access => do
        perform (Call.write .accessToken access)
        match present data.refreshToken with
        | none => return true
        | some refresh => do
          perform (Call.write .refreshToken refresh)
          return true

/-- `_refresh`. -/
def refresh : Handler Bool := do
  let shared : Bool ← perform Call.joinRefresh
  if shared then perform Call.awaitRefresh
  else do
    let refreshed ← doRefresh
    perform Call.refreshCompleted
    return refreshed

/-- The stored token is there, and not the one the request carried. -/
def tokenAlreadyRotated (current used : Option String) : Bool :=
  (present current).isSome && current != used

/-- `onError`, for a request that carried the token `used` and failed with the status. -/
def onError (path : String) (used : Option String) (alreadyRetried : Bool) (status : Option ℕ) :
    Handler (Except Unit Unit) := do
  if status ≠ some 401 ∨ isPublicAuthPath path ∨ alreadyRetried then do
    perform Call.complete
    return .error ()
  else do
    let current : Option String ← perform (Call.read .accessToken)
    let refreshed ← if tokenAlreadyRotated current used then pure true else refresh
    if !refreshed then do
      clearTokens
      let clears : Bool ← perform Call.sessionExpired
      perform Call.complete
      if clears then clearTokens
      return .error ()
    else do
      let newToken : Option String ← perform (Call.read .accessToken)
      let response : Except Unit Unit ← perform (Call.fetch newToken)
      perform Call.complete
      return response

/-- `onError`, once it is known whether there are new tokens. -/
def replay (refreshed : Bool) : Handler (Except Unit Unit) := do
  if !refreshed then do
    clearTokens
    let clears : Bool ← perform Call.sessionExpired
    perform Call.complete
    if clears then clearTokens
    return .error ()
  else do
    let newToken : Option String ← perform (Call.read .accessToken)
    let response : Except Unit Unit ← perform (Call.fetch newToken)
    perform Call.complete
    return response

theorem onError_eq (path : String) (used : Option String) (alreadyRetried : Bool) (status : Option ℕ) :
    onError path used alreadyRetried status = (do
      if status ≠ some 401 ∨ isPublicAuthPath path ∨ alreadyRetried then do
        perform Call.complete
        return .error ()
      else do
        let current : Option String ← perform (Call.read .accessToken)
        let refreshed ← if tokenAlreadyRotated current used then pure true else refresh
        replay refreshed) :=
  rfl

/-- A request, from `onRequest` to `onError`. -/
def request (path : String) : Handler (Except Unit Unit) := do
  let used ← onRequest path
  let sent : Except (Option ℕ) Unit ← perform (Call.send used)
  match sent with
  | .ok () => return .ok ()
  | .error status => do
    perform Call.turn
    onError path used false status

/-! ### `AuthRepository` -/

/-- `login` and `register`, with the answer of the backend. -/
def persist (tokens : Except Unit TokenPair) : Handler (Except Unit Unit) :=
  match tokens with
  | .error () => return .error ()
  | .ok tokens => do
    saveTokens tokens
    return .ok ()

def login (email password : String) : Handler (Except Unit Unit) := do
  let tokens : Except Unit TokenPair ← perform (Call.login email password)
  persist tokens

def register (email password : String) (displayName : Option String) : Handler (Except Unit Unit) := do
  let tokens : Except Unit TokenPair ← perform (Call.register email password displayName)
  persist tokens

def logout : Handler (Except Unit Unit) := do
  let refresh : Option String ← perform (Call.read .refreshToken)
  let revoked : Except Unit Unit ←
    match present refresh with
    | none => pure (.ok ())
    | some refresh => perform (Call.logout refresh)
  clearTokens
  return revoked

/-! ### At once -/

inductive Request
  | request (path : String)
  | login (email password : String)
  | register (email password : String) (displayName : Option String)
  | logout
  deriving DecidableEq

def Request.start : Request → Handler (Except Unit Unit)
  | .request path => Auth.request path
  | .login email password => Auth.login email password
  | .register email password displayName => Auth.register email password displayName
  | .logout => Auth.logout

def system : System Device Request Reply (Except Unit Unit) Env Empty where
  start q _ := q.start
  exec := exec
  env := nofun

abbrev World := Pool Device Request Reply (Except Unit Unit)

abbrev Step := Label Request Env Empty

def storedPair (access refresh : String) : SecureStore
  | .accessToken => some access
  | .refreshToken => some refresh

def fresh (store : SecureStore) : World := ⟨{ store }, []⟩

/-- An `onError` starts when no other is running. -/
def Queued (w : World) : Step → Prop
  | .advance i _ =>
    match w.threads[i]? with
    | some ⟨_, .call .turn _⟩ => w.store.busy = false
    | _ => True
  | _ => True

instance (w : World) (l : Step) : Decidable (Queued w l) := by
  unfold Queued
  split
  · split <;> infer_instance
  · infer_instance

/-! ### Events -/

/-- A call of the operation `i`, and what was stored before it. -/
structure Event where
  i : ℕ
  req : Request
  before : SecureStore
  call : Call
  reply : Reply call

def event (w : World) : Step → Option Event
  | .advance i e =>
    match w.threads[i]? with
    | some ⟨q, .call c _⟩ => some ⟨i, q, w.store.store, c, (exec e c w.store).1⟩
    | _ => none
  | _ => none

abbrev Observed := World × List Event

/-- A step of the client, with what has happened. -/
abbrev observed : Observed → Step → Observed := Run.observe system.step event

/-- The client after the steps `l`, with what has happened. -/
def run (store : SecureStore) (l : List Step) : Observed := Run.exec observed (fresh store, []) l

/-! ### The stages of an operation -/

inductive Stage
  | attaching
  | sending (used : Option String)
  | queued (used : Option String)
  | entered (used : Option String)
  | joining
  | sharing
  | refreshing
  | posting (refresh : String)
  | writing (posted access : String) (refresh : Option String)
  | rotating (posted refresh : String)
  | completing (ok : Bool)
  | deleting
  | deletingRefresh
  | expiring
  | leaving (clears : Bool)
  | clearing
  | clearingRefresh
  | rereading
  | fetching
  | signingIn
  | saving (tokens : TokenPair)
  | savingRefresh (refresh : String)
  | loggingOut
  | revoking (refresh : String)
  | clearingOut
  | clearingOutRefresh
  | done

inductive Next : Stage → (c : Call) → Reply c → Stage → Prop
  | attaches (token) : Next .attaching (.read .accessToken) token (.sending (present token))
  | sends (used sent) : Next (.sending used) (.send used) (.ok sent) .done
  | unsent (used status) : Next (.sending used) (.send used) (.error status) (.queued used)
  | enters (used) : Next (.queued used) .turn () (.entered used)
  | passes (used) : Next (.entered used) .complete () .done
  | rotated (used current) (h : tokenAlreadyRotated current used = true) :
      Next (.entered used) (.read .accessToken) current .rereading
  | stale (used current) (h : tokenAlreadyRotated current used = false) :
      Next (.entered used) (.read .accessToken) current .joining
  | shares : Next .joining .joinRefresh true .sharing
  | starts : Next .joining .joinRefresh false .refreshing
  | shared : Next .sharing .awaitRefresh true .rereading
  | sharedFailure : Next .sharing .awaitRefresh false .deleting
  | lacks (token) (h : present token = none) :
      Next .refreshing (.read .refreshToken) token (.completing false)
  | has (token refresh) (h : present token = some refresh) :
      Next .refreshing (.read .refreshToken) token (.posting refresh)
  | refused (refresh resp) : Next (.posting refresh) (.postRefresh refresh) resp (.completing false)
  | answered (refresh access data) (h : present data.accessToken = some access) :
      Next (.posting refresh) (.postRefresh refresh) (.ok (some data))
        (.writing refresh access (present data.refreshToken))
  | writesOne (posted access) :
      Next (.writing posted access none) (.write .accessToken access) () (.completing true)
  | writes (posted access refresh) :
      Next (.writing posted access (some refresh)) (.write .accessToken access) ()
        (.rotating posted refresh)
  | rotates (posted refresh) :
      Next (.rotating posted refresh) (.write .refreshToken refresh) () (.completing true)
  | completes : Next (.completing true) .refreshCompleted () .rereading
  | gives : Next (.completing false) .refreshCompleted () .deleting
  | deletes : Next .deleting (.delete .accessToken) () .deletingRefresh
  | deletesRefresh : Next .deletingRefresh (.delete .refreshToken) () .expiring
  | expires (clears) : Next .expiring .sessionExpired clears (.leaving clears)
  | leaves : Next (.leaving false) .complete () .done
  | leavesClearing : Next (.leaving true) .complete () .clearing
  | clears : Next .clearing (.delete .accessToken) () .clearingRefresh
  | clearsRefresh : Next .clearingRefresh (.delete .refreshToken) () .done
  | rereads (token) : Next .rereading (.read .accessToken) token .fetching
  | fetches (token resp) : Next .fetching (.fetch token) resp (.leaving false)
  | loginFails (email password) : Next .signingIn (.login email password) (.error ()) .done
  | logsIn (email password tokens) : Next .signingIn (.login email password) (.ok tokens) (.saving tokens)
  | registerFails (email password name) :
      Next .signingIn (.register email password name) (.error ()) .done
  | registers (email password name tokens) :
      Next .signingIn (.register email password name) (.ok tokens) (.saving tokens)
  | saves (tokens) : Next (.saving tokens) (.write .accessToken tokens.accessToken) ()
      (.savingRefresh tokens.refreshToken)
  | savesRefresh (refresh) : Next (.savingRefresh refresh) (.write .refreshToken refresh) () .done
  | signedOut (token) (h : present token = none) :
      Next .loggingOut (.read .refreshToken) token .clearingOut
  | revokes (token refresh) (h : present token = some refresh) :
      Next .loggingOut (.read .refreshToken) token (.revoking refresh)
  | revoked (refresh resp) : Next (.revoking refresh) (.logout refresh) resp .clearingOut
  | clearsOut : Next .clearingOut (.delete .accessToken) () .clearingOutRefresh
  | clearsOutRefresh : Next .clearingOutRefresh (.delete .refreshToken) () .done

/-- The operation follows the stages. -/
abbrev Follows (x : Stage) (p : Handler (Except Unit Unit)) : Prop :=
  p.Conforms (fun _ _ => True) Next (fun x _ => x = .done) x

/-- The stage an operation starts in. -/
def Request.stage : Request → Stage
  | .request path => if isPublicAuthPath path then .sending none else .attaching
  | .login .. => .signingIn
  | .register .. => .signingIn
  | .logout => .loggingOut

theorem follows_doRefresh : doRefresh.Conforms (fun _ _ => True) Next (fun x ok => x = .completing ok)
    .refreshing := by
  intro token _
  cases htoken : present token with
  | none => exact ⟨_, .lacks token htoken, by simp [htoken]⟩
  | some refresh =>
    refine ⟨_, .has token refresh htoken, ?_⟩
    simp only [Prog.bind, htoken]
    intro resp _
    have hrefused : ∃ x, Next (.posting refresh) (.postRefresh refresh) resp x ∧
        x = .completing false := ⟨_, .refused refresh resp, rfl⟩
    match resp with
    | .error () => exact hrefused
    | .ok none => exact hrefused
    | .ok (some data) =>
      cases haccess : present data.accessToken with
      | none => simpa [haccess] using hrefused
      | some access =>
        refine ⟨_, .answered refresh access data haccess, ?_⟩
        simp only [Prog.bind, haccess]
        intro _ _
        cases hrefresh : present data.refreshToken with
        | none => exact ⟨_, .writesOne refresh access, by simp⟩
        | some rotated =>
          refine ⟨_, .writes refresh access rotated, ?_⟩
          simp only [Prog.bind]
          intro _ _
          exact ⟨_, .rotates refresh rotated, rfl⟩

theorem follows_refresh : refresh.Conforms (fun _ _ => True) Next
    (fun x ok => x = if ok then .rereading else .deleting) .joining := by
  intro inFlight _
  cases inFlight with
  | true =>
    refine ⟨_, .shares, fun ok _ => ?_⟩
    cases ok with
    | true => exact ⟨_, .shared, rfl⟩
    | false => exact ⟨_, .sharedFailure, rfl⟩
  | false =>
    refine ⟨_, .starts, follows_doRefresh.bind fun x ok hx => ?_⟩
    subst hx
    cases ok with
    | true => exact fun _ _ => ⟨_, .completes, rfl⟩
    | false => exact fun _ _ => ⟨_, .gives, rfl⟩

theorem follows_replay {x : Stage} {ok : Bool} (hx : x = if ok then .rereading else .deleting) :
    Follows x (replay ok) := by
  subst hx
  cases ok with
  | true =>
    exact fun token _ => ⟨_, .rereads token, fun resp _ => ⟨_, .fetches token resp, fun _ _ => ⟨_, .leaves, rfl⟩⟩⟩
  | false =>
    refine fun _ _ => ⟨_, .deletes, fun _ _ => ⟨_, .deletesRefresh, fun clears _ => ⟨_, .expires clears, ?_⟩⟩⟩
    cases clears with
    | false => exact fun _ _ => ⟨_, .leaves, rfl⟩
    | true =>
      exact fun _ _ => ⟨_, .leavesClearing, fun _ _ => ⟨_, .clears, fun _ _ => ⟨_, .clearsRefresh, rfl⟩⟩⟩

theorem follows_onError (path : String) (used : Option String) (alreadyRetried : Bool)
    (status : Option ℕ) : Follows (.entered used) (onError path used alreadyRetried status) := by
  rw [onError_eq]
  split
  · exact fun _ _ => ⟨_, .passes used, rfl⟩
  intro current _
  cases hrotated : tokenAlreadyRotated current used with
  | true =>
    refine ⟨_, .rotated used current hrotated, ?_⟩
    have hreplay : Follows .rereading (replay true) := follows_replay rfl
    simpa [hrotated] using hreplay
  | false =>
    refine ⟨_, .stale used current hrotated, ?_⟩
    simp only [Prog.bind, hrotated]
    exact follows_refresh.bind fun x ok hx => follows_replay hx

theorem follows_request (path : String) : Follows (Request.request path).stage (request path) := by
  have hsend (used : Option String) : Follows (.sending used) (do
      let sent : Except (Option ℕ) Unit ← perform (Call.send used)
      match sent with
      | .ok () => return .ok ()
      | .error status => do
        perform Call.turn
        onError path used false status) := by
    intro sent _
    cases sent with
    | ok sent => exact ⟨_, .sends used sent, rfl⟩
    | error status =>
      exact ⟨_, .unsent used status, fun _ _ => ⟨_, .enters used, follows_onError path used false status⟩⟩
  cases hpath : isPublicAuthPath path with
  | true => simpa [request, onRequest, Request.stage, hpath] using hsend none
  | false =>
    simp only [request, onRequest, Request.stage, hpath]
    exact fun token _ => ⟨_, .attaches token, hsend (present token)⟩

theorem follows_persist (tokens : TokenPair) : Follows (.saving tokens) (persist (.ok tokens)) :=
  fun _ _ => ⟨_, .saves tokens, fun _ _ => ⟨_, .savesRefresh tokens.refreshToken, rfl⟩⟩

theorem follows_start (q : Request) : Follows q.stage q.start := by
  cases q with
  | request path => exact follows_request path
  | login email password =>
    intro tokens _
    cases tokens with
    | error => exact ⟨_, .loginFails email password, rfl⟩
    | ok tokens => exact ⟨_, .logsIn email password tokens, follows_persist tokens⟩
  | register email password name =>
    intro tokens _
    cases tokens with
    | error => exact ⟨_, .registerFails email password name, rfl⟩
    | ok tokens => exact ⟨_, .registers email password name tokens, follows_persist tokens⟩
  | logout =>
    have hclear (revoked : Except Unit Unit) : Follows .clearingOut (do
        clearTokens
        return revoked) :=
      fun _ _ => ⟨_, .clearsOut, fun _ _ => ⟨_, .clearsOutRefresh, rfl⟩⟩
    intro token _
    cases htoken : present token with
    | none =>
      refine ⟨_, .signedOut token htoken, ?_⟩
      simpa [htoken] using hclear (.ok ())
    | some refresh =>
      refine ⟨_, .revokes token refresh htoken, ?_⟩
      simp only [Prog.bind, htoken]
      exact fun resp _ => ⟨_, .revoked refresh resp, hclear resp⟩

end DeskSync.Mobile.Auth
