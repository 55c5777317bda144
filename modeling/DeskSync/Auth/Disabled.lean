import DeskSync.Auth.Rotation

/-!
# Tokens for disabled accounts

`Login` refuses a user whose row it reads as inactive. `Refresh` and `UpsertOAuthUser` go from the row
they read to the token pair without looking at the flag, so they return tokens for an account that was
deactivated before they read it (`disabled_refresh`).

`readsActive` is the condition on a step under which this does not happen: a lookup by `Refresh` or
`UpsertOAuthUser` finds an active row. In the runs it guards, every token pair returned is for a user
that was read as active (`noDisabledTokens_of_readsActive`). The row minted for is the row the handler
has read or created, so the proof computes the result of each handler from the replies of its lookups
(`start_post`); nothing about the tables is used.
-/

namespace DeskSync.Auth

open Backend Proc

/-- Every token pair returned so far is for a user whose row was read, or created, as active. -/
def NoDisabledTokens (w : World) : Prop :=
  ∀ (i : ℕ) req (tokens : Tokens), w.threads[i]? = some ⟨req, .ret (.tokens (.ok tokens))⟩ →
    tokens.user.isActive = true

/-- The row a lookup finds. -/
def userRead (citext : Citext) (db : AuthDb) : Cmd → Option User
  | .getUserByEmail email => db.users.find? fun row => citext row.email == citext email
  | .getUserByID id => db.users.find? fun row => row.id == id
  | .getByProviderIdentity p providerUserID => UserRepo.identityUser p providerUserID db
  | _ => none

/-- The requests that do not look at `IsActive` themselves. -/
def Request.trusting : Request → Bool
  | .refresh _ _ | .upsertOAuthUser _ _ _ _ _ => true
  | _ => false

/-- A lookup of a user by `Refresh` or `UpsertOAuthUser` that goes through finds an active row. -/
def readsActive (s : Service) (w : World) : Step → Bool
  | .advance i e =>
    match w.threads[i]? with
    | some ⟨req, .call c _⟩ =>
      !req.trusting || e.fault != .none || (userRead s.citext w.store c).all (·.isActive)
    | _ => true
  | _ => true

/-! ### The handlers -/

/-- What the flag of a user in a reply is: that of the row created, and, for a trusting request, `true`
when the row was looked up. -/
def FlagSpec (trusting : Bool) : (c : Cmd) → Reply c → Prop
  | .createUser u, r => ∀ v, r.1 = .ok v → v.isActive = u.isActive
  | .getUserByEmail _, r => trusting → ∀ u, r.1 = .ok u → u.isActive
  | .getUserByID _, r => trusting → ∀ u, r.1 = .ok u → u.isActive
  | .getByProviderIdentity _ _, r => trusting → ∀ u, r.1 = .ok u → u.isActive
  | _, _ => True

/-- A token pair, if there is one, is for an active user. -/
def ForActive (result : Except AppError Tokens) : Prop :=
  ∀ tokens, result = .ok tokens → tokens.user.isActive = true

theorem forActive_err (code : Code) (message : String) : ForActive (err code message) := by
  rintro tokens ⟨⟩

def Response.forActive : Response → Prop
  | .tokens result => ForActive result
  | .done _ => True

section Handler
variable (s : Service) (here : Here) (user : User) (md : Metadata) (trusting : Bool)

theorem issueTokens_post (h : user.isActive = true) :
    (s.issueTokens here user md).Post (FlagSpec trusting) ForActive := by
  refine (s.mint_user here user md).bind ?_
  rintro (e | ⟨tokens, jti⟩) hminted
  · rintro tokens ⟨⟩
  · rintro tokens' ⟨⟩
    rw [hminted tokens jti rfl]
    exact h

theorem register_post (email password displayName : String) :
    (s.register here email password displayName md).Post (FlagSpec trusting) ForActive := by
  unfold Service.register
  dsimp only
  split_ifs
  · exact forActive_err _ _
  · exact forActive_err _ _
  · split
    · exact forActive_err _ _
    · rintro ⟨e | user, here'⟩ hcreated
      · cases e <;> exact forActive_err _ _
      · exact issueTokens_post s here' user md trusting (hcreated user rfl)

/-- `Login` looks at the flag itself. -/
theorem login_post (email password : String) :
    (s.login email password md).Post (FlagSpec trusting) ForActive := by
  rintro ⟨e | user, here'⟩ -
  · cases e <;> exact forActive_err _ _
  · dsimp only [Prog.bind]
    split_ifs with hactive
    · exact forActive_err _ _
    · exact forActive_err _ _
    · split
      · exact issueTokens_post s here' user md trusting (by simpa using hactive)
      · exact forActive_err _ _

theorem exchange_post (stored : RefreshToken) :
    (s.exchange stored md).Post (FlagSpec true) ForActive := by
  rintro ⟨_ | user, here'⟩ hread
  · exact forActive_err _ _
  · refine (s.mint_user here' user md).bind ?_
    rintro (e | ⟨tokens, jti⟩) hminted
    · rintro tokens ⟨⟩
    · rintro ⟨_ | _, here''⟩ -
      · exact forActive_err _ _
      · rintro tokens' ⟨⟩
        rw [hminted tokens jti rfl]
        exact hread rfl user rfl

theorem refresh_post (refreshToken : String) :
    (s.refresh here refreshToken md).Post (FlagSpec true) ForActive := by
  unfold Service.refresh
  split
  · exact forActive_err _ _
  · rintro ⟨_ | stored, here'⟩ -
    · exact forActive_err _ _
    · dsimp only [Prog.bind, Service.checkStored]
      split_ifs
      · rintro r - tokens ⟨⟩
      · exact forActive_err _ _
      · exact exchange_post s md stored

theorem linkAndIssue_post (p : Provider) (providerUserID : String) (h : user.isActive = true) :
    (s.linkAndIssue p providerUserID user md).Post (FlagSpec true) ForActive := by
  rintro ⟨_ | _, here'⟩ -
  · exact forActive_err _ _
  · exact issueTokens_post s here' user md true h

theorem upsertOAuthUser_post (p : Provider) (providerUserID email displayName : String) :
    (s.upsertOAuthUser p providerUserID email displayName md).Post (FlagSpec true) ForActive := by
  rintro ⟨e | user, here'⟩ hknown
  · cases e with
    | userNotFound =>
      rintro ⟨e | user, here''⟩ hfound
      · cases e with
        | userNotFound =>
          rintro ⟨_ | user, here'''⟩ hcreated
          · exact forActive_err _ _
          · exact linkAndIssue_post s user md p providerUserID (hcreated user rfl)
        | _ => exact forActive_err _ _
      · exact linkAndIssue_post s user md p providerUserID (hfound rfl user rfl)
    | _ => exact forActive_err _ _
  · exact issueTokens_post s here' user md true (hknown rfl user rfl)

/-- The result of every request is for an active user, provided its lookups are, where it trusts
them. -/
theorem start_post (req : Request) :
    (req.start s here).Post (FlagSpec req.trusting) Response.forActive := by
  cases req with
  | register email password displayName md =>
    exact (register_post s here md _ email password displayName).map fun _ h => h
  | login email password md => exact (login_post s md _ email password).map fun _ h => h
  | refresh refreshToken md => exact (refresh_post s here md refreshToken).map fun _ h => h
  | logout refreshToken =>
    have hpost : (s.logout here refreshToken).Post (FlagSpec false) fun _ => True := by
      unfold Service.logout
      split
      · trivial
      · rintro ⟨e | _, here'⟩ -
        · cases e <;> trivial
        · trivial
    exact hpost.map fun _ h => h
  | upsertOAuthUser p providerUserID email displayName md =>
    exact (upsertOAuthUser_post s md p providerUserID email displayName).map fun _ h => h

end Handler

/-! ### Runs -/

/-- Under the guard the replies satisfy `FlagSpec`. -/
theorem exec_flagSpec {s : Service} {w : World} {i : ℕ} {e : Env} {req : Request} {c : Cmd}
    {k : Reply c → Handler Response} (hi : w.threads[i]? = some ⟨req, .call c k⟩)
    (hg : readsActive s w (.advance i e) = true) :
    FlagSpec req.trusting c (exec s.citext e c w.store).1 := by
  have hread : req.trusting = true → e.fault = .none → ∀ u, userRead s.citext w.store c = some u →
      u.isActive = true := by
    intro ht hf u hu
    simpa [readsActive, hi, ht, hf, hu] using hg
  cases c with
  | createUser u =>
    intro v hv
    rw [createUser_ok hv]
  | getUserByEmail email => exact fun ht u hu => hread ht (exec_ok hu).1 u (scanUser_ok (exec_ok hu).2)
  | getUserByID id => exact fun ht u hu => hread ht (exec_ok hu).1 u (scanUser_ok (exec_ok hu).2)
  | getByProviderIdentity p puid =>
    exact fun ht u hu => hread ht (exec_ok hu).1 u (scanUser_ok (exec_ok hu).2)
  | _ => trivial

/-- In every run in which each lookup of a user by `Refresh` or `UpsertOAuthUser` finds an active row,
no request returns tokens for a user it read as inactive. -/
theorem noDisabledTokens_of_readsActive (s : Service) (db : AuthDb) (l : List Step)
    (h : Run.Guarded (system s).step (fun w l => readsActive s w l = true) ⟨db, []⟩ l) :
    NoDisabledTokens ((system s).run db l) := by
  have hrun : ((system s).run db l).All fun req p =>
      p.Post (FlagSpec req.trusting) Response.forActive := by
    refine h.invariant (I := Pool.All fun req p => p.Post (FlagSpec req.trusting) Response.forActive)
      (fun w l hw hg => ?_) (Pool.All.nil db)
    refine hw.step (fun q e _ => start_post s e.here q) ?_
    rintro i e q c k rfl hi hp
    exact hp _ (exec_flagSpec hi hg)
  exact fun i req tokens hi => hrun i req _ hi tokens rfl

/-! ### A deactivated account -/

def deactivated : List Step := registered ++ [.env (.deactivate "u1")]

set_option maxRecDepth 4000 in
/-- `Refresh` returns a pair for an account that was deactivated before the request. -/
theorem disabled_refresh :
    ¬ NoDisabledTokens ((system sampleService).run emptyDb
      (deactivated ++ [refreshT1, .advance 1 (goes ""), .advance 1 (goes "t2"), .advance 1 (goes ""),
        .advance 1 (goes "")])) := by
  intro h
  exact absurd (h 1 _ _ rfl) (by decide)

set_option maxRecDepth 4000 in
/-- The guard holds along a run in which the account is deactivated between two refreshes and the
second, whose token is revoked, never reads the user. -/
theorem noDisabledTokens_deactivated :
    NoDisabledTokens ((system sampleService).run emptyDb
      (sequentialRefresh ++ [.env (.deactivate "u1"),
        .spawn (.login "a@b.cd" "correct horse" ⟨"", ""⟩) (goes ""), .advance 3 (goes "")])) :=
  noDisabledTokens_of_readsActive sampleService emptyDb _ (by decide)

end DeskSync.Auth
