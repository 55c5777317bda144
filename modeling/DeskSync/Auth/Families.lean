import DeskSync.Auth.Accounts
import DeskSync.Lib.Rely

/-!
# The auth tables under interleaved requests

Any number of requests in flight, any call failing, and operators deactivating accounts. Between a lookup and the
insert that relies on it, and between the insert of a successor and the revocation that chains to it, the others
make their calls; a request keeps to the contract that the tables stay in order and only grow (`contract`).

That a successor is chained to once is not for the contract to say: the tokens that requests are about to chain are
kept apart (`FamilyInv`).

`accounts_kept`: in every run the tables are in order, rows of one user form chains without loops and without forks,
and every pair that was handed out is backed by its row.
-/

namespace DeskSync.Auth

open Backend Elements Proc

/-! ### What a reply says -/

/-- The user has this row, or had it before an operator cleared the flag. -/
def Registered (db : AuthDb) (u : User) : Prop := ∃ row ∈ db.users, row.account = u.account

/-- The token has this row, or had it before it was revoked. -/
def Held (db : AuthDb) (t : RefreshToken) : Prop := ∃ row ∈ db.refreshTokens, row.asIssued = t.asIssued

section Later
variable {db db' : AuthDb}

theorem Registered.later {u : User} (h : Registered db u) (hle : Grows db db') : Registered db' u := by
  obtain ⟨row, hrow, heq⟩ := h
  obtain ⟨row', hrow', heq'⟩ := hle.user hrow
  exact ⟨row', hrow', heq'.trans heq⟩

theorem Registered.hasUser {u : User} (h : Registered db u) : HasUser db u.id := by
  obtain ⟨row, hrow, heq⟩ := h
  have hid : row.account.id = u.account.id := congrArg User.id heq
  exact ⟨row, hrow, hid⟩

theorem Held.later {t : RefreshToken} (h : Held db t) (hle : Grows db db') : Held db' t := by
  obtain ⟨row, hrow, heq⟩ := h
  obtain ⟨i, hi⟩ := List.mem_iff_getElem?.1 hrow
  obtain ⟨row', hrow', heq'⟩ := getElem?_of_prefix hle.tokens hi
  exact ⟨row', List.mem_of_getElem? hrow', heq'.trans heq⟩

/-- A row that is added succeeds those of its user. -/
theorem Held.succeeds {old new : RefreshToken} (h : Held db old)
    (hdb : db'.refreshTokens = db.refreshTokens ++ [new]) (huser : old.userID = new.userID) :
    Succeeds db' old.id new.id := by
  obtain ⟨row, hrow, heq⟩ := h
  obtain ⟨i, hi⟩ := List.mem_iff_getElem?.1 hrow
  have hlt := (List.getElem?_eq_some_iff.1 hi).1
  have hid : row.asIssued.id = old.asIssued.id := congrArg RefreshToken.id heq
  have hu : row.asIssued.userID = old.asIssued.userID := congrArg RefreshToken.userID heq
  refine ⟨i, db.refreshTokens.length, row, new, hlt, ?_, ?_, hid, rfl, ?_⟩
  · rw [hdb]
    exact getElem?_concat_of_some new hi
  · rw [hdb]
    exact List.getElem?_concat_length
  · exact Eq.trans hu huser

end Later

/-- What a successful reply says about the tables before and after the call. -/
def Cmd.about (db db' : AuthDb) : (c : Cmd) → c.Res → Prop
  | .createUser _, u => Registered db' u
  | .getUserByEmail _, u => Registered db' u
  | .getUserByID id, u => u.id = id ∧ Registered db' u
  | .getByProviderIdentity _ _, u => Registered db' u
  | .getByID jti, t => t.id = jti ∧ Held db' t
  | .create t, () => db'.refreshTokens = db.refreshTokens ++ [t]
  | _, _ => True

theorem exec_about {citext : Citext} {e : Env} {db : AuthDb} {c : Cmd} {r : c.Res}
    (h : (exec citext e c db).1.1 = .ok r) : c.about db (exec citext e c db).2 r := by
  have hgrows := exec_grows citext e c db
  have hknown {u : User} (hu : u ∈ db.users) : Registered (exec citext e c db).2 u :=
    Registered.later ⟨u, hu, rfl⟩ hgrows
  obtain ⟨hf, heff⟩ := exec_ok h
  cases c with
  | createUser u =>
    refine ⟨r, ?_, rfl⟩
    rw [exec_store hf]
    simp only [Cmd.effect, UserRepo.createUser] at heff ⊢
    split at heff
    · cases heff
    · rename_i hn
      rw [if_neg hn]
      obtain rfl := Except.ok.inj heff
      exact List.mem_append_right _ (List.mem_singleton_self _)
  | getUserByEmail email => exact hknown (List.mem_of_find?_eq_some (scanUser_ok heff))
  | getUserByID id => exact ⟨(getUserByID_ok h).2, hknown (getUserByID_ok h).1⟩
  | getByProviderIdentity p providerUserID =>
    obtain ⟨oi, -, hfind⟩ := Option.bind_eq_some_iff.1 (scanUser_ok heff)
    exact hknown (List.mem_of_find?_eq_some hfind)
  | getByID jti => exact ⟨(getByID_ok h).2, Held.later ⟨r, (getByID_ok h).1, rfl⟩ hgrows⟩
  | create t =>
    show (exec citext e (.create t) db).2.refreshTokens = db.refreshTokens ++ [t]
    rw [exec_store hf]
    simp only [Cmd.effect, RefreshRepo.create] at heff ⊢
    split at heff
    · cases heff
    · rename_i hn
      rw [if_neg hn]
  | linkOAuthIdentity | revoke | revokeAllForUser => trivial

/-! ### Requests -/

/-- The pair was issued to its user, and its refresh token has the row of its JTI. -/
def Backed (s : Service) (db : AuthDb) (tokens : Tokens) : Prop :=
  Registered db tokens.user ∧ ∃ t, Held db t ∧ t.userID = tokens.user.id ∧
    t.tokenHash = s.hashToken tokens.refreshToken ∧
    s.jwt.issue t.issuedAt tokens.user.id t.id =
      .ok ⟨tokens.accessToken, tokens.refreshToken, tokens.expiresIn, t.id⟩

theorem Backed.later {s : Service} {db db' : AuthDb} {tokens : Tokens} (h : Backed s db tokens)
    (hle : Grows db db') : Backed s db' tokens := by
  obtain ⟨huser, t, ht, hrest⟩ := h
  exact ⟨huser.later hle, t, ht.later hle, hrest⟩

/-- The pair in an answer, if there is one, is backed. -/
def Served (s : Service) (result : Except AppError Tokens) (db : AuthDb) : Prop :=
  ∀ tokens, result = .ok tokens → Backed s db tokens

theorem served_err (s : Service) (code : Code) (message : String) (db : AuthDb) : Served s (err code message) db := by
  rintro tokens ⟨⟩

def Response.served (s : Service) (db : AuthDb) : Response → Prop
  | .tokens result => Served s result db
  | .done _ => True

/-- The requests grant each other that the tables stay in order and only grow, and hand out backed pairs. -/
def contract (s : Service) : Contract (system s) where
  inv := Accounts s.citext
  le := Grows
  pre := fun _ c db => Fits db c
  post := fun _ r db => r.served s db
  refl := Grows.refl
  trans := fun _ _ _ => Grows.trans
  pre_later := fun _ _ _ _ h hle => h.later hle
  post_later := by
    rintro _ (result | _) db db' h hle
    · exact fun tokens ht => (h tokens ht).later hle
    · trivial
  exec := fun _ e c db h hc => ⟨accounts_exec h hc, exec_grows s.citext e c db⟩
  env := fun a db h => ⟨accounts_admin h a, admin_grows a db⟩

/-- A part of a request: its calls fit, and its result satisfies `post`. -/
abbrev Within {α : Type} (s : Service) (post : α → AuthDb → Prop) (p : Handler α) (db : AuthDb) : Prop :=
  p.Safe (exec s.citext) (Accounts s.citext) Grows (fun c db => Fits db c) post db

section Requests
variable {α : Type} {s : Service} {post : α → AuthDb → Prop} {db : AuthDb}

/-- A call, and what is made of its reply. -/
theorem Within.call {c : Cmd} {k : Reply c → Handler α} (hc : Fits db c)
    (hok : ∀ r here db₁ db₂, Grows db db₁ → Grows db₁ db₂ → c.about db₁ db₂ r →
      Within s post (k (.ok r, here)) db₂)
    (herr : ∀ err here db₂, Grows db db₂ → Within s post (k (.error err, here)) db₂) :
    Within s post (.call c k) db := by
  refine ⟨hc, fun e db₁ hle _ => ?_⟩
  have hgrows := exec_grows s.citext e c db₁
  cases hr : (exec s.citext e c db₁).1 with
  | mk r here =>
    cases r with
    | error err => exact herr err here _ (hle.trans hgrows)
    | ok r => exact hok r here db₁ _ hle hgrows (exec_about (congrArg Prod.fst hr))

variable (s)

/-- `mint` stores the token of a known user, and it succeeds the tokens the user had before. -/
theorem mint_within (here : Here) {user : User} (md : Metadata) (huser : Registered db user) :
    Within s (fun result db' => ∀ tokens jti, result = .ok (tokens, jti) → Backed s db' tokens ∧
      ∀ old, Held db old → old.userID = user.id → Succeeds db' old.id jti) (s.mint here user md) db := by
  unfold Service.mint
  dsimp only
  cases hissue : s.jwt.issue here.now user.id here.uuid with
  | error _ => rintro tokens jti ⟨⟩
  | ok pair =>
    refine Within.call ⟨rfl, rfl, huser.hasUser⟩ (fun _ here' db₁ db₂ hle hle' hdb => ?_)
      fun err here' db₂ _ => ?_
    · have hmem : _ ∈ db₂.refreshTokens := hdb ▸ List.mem_append_right _ (List.mem_singleton_self _)
      rintro tokens jti ⟨⟩
      refine ⟨⟨huser.later (hle.trans hle'), _, ⟨_, hmem, rfl⟩, rfl, rfl, ?_⟩, fun old hold hu => ?_⟩
      · have hjti : pair.refreshJTI = here.uuid := by
          unfold Manager.issue at hissue
          simp only [bind, Except.bind, pure, Except.pure] at hissue
          split at hissue
          · cases hissue
          · split at hissue
            · cases hissue
            · obtain rfl := Except.ok.inj hissue
              rfl
        rw [hissue, ← hjti]
      · exact (hold.later hle).succeeds hdb hu
    · rintro tokens jti ⟨⟩

theorem issueTokens_within (here : Here) {user : User} (md : Metadata) (huser : Registered db user) :
    Within s (Served s) (s.issueTokens here user md) db := by
  refine (mint_within s here md huser).bind fun minted db' h => ?_
  rintro tokens htokens
  cases minted with
  | error _ => cases htokens
  | ok out =>
    obtain ⟨tokens', jti⟩ := out
    obtain rfl := Except.ok.inj htokens
    exact (h tokens' jti rfl).1

theorem register_within (here : Here) (email password displayName : String) (md : Metadata) :
    Within s (Served s) (s.register here email password displayName md) db := by
  unfold Service.register
  dsimp only
  split_ifs
  · exact served_err s _ _ db
  · exact served_err s _ _ db
  · split
    · exact served_err s _ _ db
    · refine Within.call trivial (fun user here' _ db₂ _ _ hknown => issueTokens_within s here' md hknown)
        fun err here' db₂ _ => ?_
      cases err <;> exact served_err s _ _ db₂

theorem login_within (email password : String) (md : Metadata) :
    Within s (Served s) (s.login email password md) db := by
  refine Within.call trivial (fun user here _ db₂ _ _ hknown => ?_) fun err here db₂ _ => ?_
  · dsimp only [Prog.bind]
    split_ifs
    · exact served_err s _ _ db₂
    · exact served_err s _ _ db₂
    · split
      · exact issueTokens_within s here md hknown
      · exact served_err s _ _ db₂
  · cases err <;> exact served_err s _ _ db₂

/-- The token that is exchanged is chained to the new one. -/
theorem exchange_within {stored : RefreshToken} (md : Metadata) (hstored : Held db stored) :
    Within s (Served s) (s.exchange stored md) db := by
  refine Within.call trivial (fun user here db₁ db₂ hle hle' hfound => ?_) fun err here db₂ _ => served_err s _ _ db₂
  obtain ⟨hid, hknown⟩ := hfound
  have hstored := hstored.later (hle.trans hle')
  refine (mint_within s here md hknown).bind fun minted db₃ h => ?_
  cases minted with
  | error e => rintro tokens ⟨⟩
  | ok out =>
    obtain ⟨tokens, jti⟩ := out
    obtain ⟨hbacked, hsucc⟩ := h tokens jti rfl
    refine Within.call (hsucc stored hstored hid.symm) (fun _ here' db₄ db₅ hle₄ hle₅ _ => ?_)
      fun err here' db₅ _ => served_err s _ _ db₅
    rintro tokens' ⟨⟩
    exact hbacked.later (hle₄.trans hle₅)

theorem refresh_within (here : Here) (refreshToken : String) (md : Metadata) :
    Within s (Served s) (s.refresh here refreshToken md) db := by
  unfold Service.refresh
  split
  · exact served_err s _ _ db
  · refine Within.call trivial (fun stored here' _ db₂ _ _ hstored => ?_) fun err here' db₂ _ => served_err s _ _ db₂
    dsimp only [Prog.bind, Service.checkStored]
    split_ifs
    · exact Within.call trivial (fun _ _ _ _ _ _ _ => by rintro tokens ⟨⟩) fun _ _ _ _ => by rintro tokens ⟨⟩
    · exact served_err s _ _ db₂
    · exact exchange_within s md hstored.2

theorem logout_within (here : Here) (refreshToken : String) :
    Within s (fun _ _ => True) (s.logout here refreshToken) db := by
  unfold Service.logout
  split
  · trivial
  · refine Within.call trivial (fun _ _ _ _ _ _ _ => trivial) fun err _ _ _ => ?_
    cases err <;> trivial

theorem linkAndIssue_within (p : Provider) (providerUserID : String) {user : User} (md : Metadata)
    (huser : Registered db user) : Within s (Served s) (s.linkAndIssue p providerUserID user md) db :=
  Within.call trivial (fun _ here _ _ hle hle' _ => issueTokens_within s here md (huser.later (hle.trans hle')))
    fun _ _ db₂ _ => served_err s _ _ db₂

theorem upsertOAuthUser_within (p : Provider) (providerUserID email displayName : String) (md : Metadata) :
    Within s (Served s) (s.upsertOAuthUser p providerUserID email displayName md) db := by
  unfold Service.upsertOAuthUser
  refine Within.call trivial (fun user here _ db₂ _ _ hknown => issueTokens_within s here md hknown)
    fun e here db₂ _ => ?_
  cases e with
  | userNotFound =>
    refine Within.call trivial (fun user here _ db₂ _ _ hknown => linkAndIssue_within s p providerUserID md hknown)
      fun e here db₂ _ => ?_
    cases e with
    | userNotFound =>
      exact Within.call trivial (fun user here _ db₂ _ _ hknown => linkAndIssue_within s p providerUserID md hknown)
        fun _ _ db₂ _ => served_err s _ _ db₂
    | _ => exact served_err s _ _ db₂
  | _ => exact served_err s _ _ db₂

/-- Every request keeps to the contract. -/
theorem start_keeps (q : Request) (e : Env) (db : AuthDb) : (contract s).Keeps q (q.start s e.here) db := by
  cases q with
  | register email password displayName md => exact (register_within s e.here email password displayName md).map _ fun _ _ h => h
  | login email password md => exact (login_within s email password md).map _ fun _ _ h => h
  | refresh refreshToken md => exact (refresh_within s e.here refreshToken md).map _ fun _ _ h => h
  | logout refreshToken => exact (logout_within s e.here refreshToken).map _ fun _ _ _ => trivial
  | upsertOAuthUser p providerUserID email displayName md =>
    exact (upsertOAuthUser_within s p providerUserID email displayName md).map _ fun _ _ h => h

end Requests

/-! ### Successors -/

/-- The handler is about to chain a token to the successor `new`. -/
def Chaining (old new : String) (p : Handler Response) : Prop := p.pending = some (.revoke old (some new))

/-- A token is chained right after its successor was created. -/
def ChainsCreated (c : Cmd) (r : Reply c) (q : Handler Response) : Prop :=
  ∀ old new, Chaining old new q → ∃ t, c = .create t ∧ t.id = new ∧ r.1.isOk = true

/-- A handler that chains no token. -/
abbrev Quiet {α : Type} (p : Handler α) : Prop := p.Only fun c => ∀ old new, c ≠ .revoke old (some new)

section Quiet
variable {α : Type} {p : Handler Response}

theorem Quiet.not_chaining (h : Quiet p) {old new : String} : ¬ Chaining old new p := by
  intro hp
  cases p with
  | ret a => cases hp
  | call c k => exact h.1 old new (Option.some.inj hp)

theorem Quiet.steps (h : Quiet p) : p.Steps (fun _ _ => True) ChainsCreated := by
  induction p with
  | ret a => trivial
  | call c k ih => exact fun r _ => ⟨fun old new hp => absurd hp (Quiet.not_chaining (h.2 r)), ih r (h.2 r)⟩

/-- The calls of a request that presents no refresh token. -/
def Cmd.signsIn : Cmd → Prop
  | .getByID _ | .revoke _ _ | .revokeAllForUser _ => False
  | _ => True

/-- A handler that makes no call on a token row but to store one. -/
abbrev SignsIn {α : Type} (p : Handler α) : Prop := p.Only Cmd.signsIn

theorem SignsIn.quiet {α : Type} {p : Handler α} (h : SignsIn p) : Quiet p :=
  h.mono fun _ hc old new heq => by
    rw [heq] at hc
    exact hc

variable (s : Service)

theorem mint_signsIn (here : Here) (user : User) (md : Metadata) : SignsIn (s.mint here user md) := by
  unfold Service.mint
  dsimp only
  split
  · trivial
  · refine ⟨trivial, ?_⟩
    rintro ⟨_ | _, here'⟩ <;> trivial

theorem issueTokens_signsIn (here : Here) (user : User) (md : Metadata) : SignsIn (s.issueTokens here user md) :=
  (mint_signsIn s here user md).bind fun _ => trivial

theorem linkAndIssue_signsIn (p : Provider) (providerUserID : String) (user : User) (md : Metadata) :
    SignsIn (s.linkAndIssue p providerUserID user md) := by
  refine ⟨trivial, ?_⟩
  rintro ⟨_ | _, here⟩
  · trivial
  · exact issueTokens_signsIn s here user md

theorem register_signsIn (here : Here) (email password displayName : String) (md : Metadata) :
    SignsIn (s.register here email password displayName md) := by
  unfold Service.register
  dsimp only
  split_ifs
  · trivial
  · trivial
  · split
    · trivial
    · refine ⟨trivial, ?_⟩
      rintro ⟨err | user, here'⟩
      · cases err <;> trivial
      · exact issueTokens_signsIn s here' user md

theorem login_signsIn (email password : String) (md : Metadata) : SignsIn (s.login email password md) := by
  refine ⟨trivial, ?_⟩
  rintro ⟨err | user, here⟩
  · cases err <;> trivial
  · dsimp only [Prog.bind]
    split_ifs
    · trivial
    · trivial
    · split
      · exact issueTokens_signsIn s here user md
      · trivial

theorem upsertOAuthUser_signsIn (p : Provider) (providerUserID email displayName : String) (md : Metadata) :
    SignsIn (s.upsertOAuthUser p providerUserID email displayName md) := by
  refine ⟨trivial, ?_⟩
  rintro ⟨err | user, here⟩
  · cases err with
    | userNotFound =>
      refine ⟨trivial, ?_⟩
      rintro ⟨err | user, here'⟩
      · cases err with
        | userNotFound =>
          refine ⟨trivial, ?_⟩
          rintro ⟨_ | user, here''⟩
          · trivial
          · exact linkAndIssue_signsIn s p providerUserID user md
        | _ => trivial
      · exact linkAndIssue_signsIn s p providerUserID user md
    | _ => trivial
  · exact issueTokens_signsIn s here user md

theorem logout_quiet (here : Here) (refreshToken : String) : Quiet (s.logout here refreshToken) := by
  unfold Service.logout
  split
  · trivial
  · refine ⟨fun _ _ => by simp, ?_⟩
    rintro ⟨err | _, here'⟩
    · cases err <;> trivial
    · trivial

theorem exchange_steps_created (stored : RefreshToken) (md : Metadata) :
    (Response.tokens <$> s.exchange stored md).Steps (fun _ _ => True) ChainsCreated := by
  rintro ⟨_ | user, here⟩ -
  · exact ⟨fun old new hp => (by cases hp), trivial⟩
  · simp only [Service.mint]
    cases hissue : s.jwt.issue here.now user.id here.uuid with
    | error _ =>
      simp only [hissue, Prog.ret_bind, Prog.pure_eq, Prog.bind, err, Function.comp]
      exact ⟨fun old new hp => (by cases hp), trivial⟩
    | ok pair =>
      simp only [hissue, Prog.perform_bind, Prog.call_bind, Prog.bind]
      refine ⟨fun old new hp => (by cases hp), ?_⟩
      rintro ⟨_ | _, here'⟩ -
      · exact ⟨fun old new hp => (by cases hp), trivial⟩
      · refine ⟨fun old new hp => ?_, ?_⟩
        · have hnew := (Cmd.revoke.inj (Option.some.inj hp)).2
          exact ⟨_, rfl, Option.some.inj hnew, rfl⟩
        · rintro ⟨_ | _, here''⟩ - <;> exact ⟨fun old new hp => (by cases hp), trivial⟩

theorem refresh_created (here : Here) (refreshToken : String) (md : Metadata) :
    (Response.tokens <$> s.refresh here refreshToken md).Steps (fun _ _ => True) ChainsCreated ∧
      ∀ old new, ¬ Chaining old new (Response.tokens <$> s.refresh here refreshToken md) := by
  unfold Service.refresh
  split
  · exact ⟨trivial, fun old new hp => (by cases hp)⟩
  · refine ⟨?_, fun old new hp => (by cases hp)⟩
    rintro ⟨_ | stored, here'⟩ -
    · exact ⟨fun old new hp => (by cases hp), trivial⟩
    · dsimp only [Prog.bind, Service.checkStored]
      split_ifs
      · exact ⟨fun old new hp => (by cases hp), fun r _ => ⟨fun old new hp => (by cases hp), trivial⟩⟩
      · exact ⟨fun old new hp => (by cases hp), trivial⟩
      · exact ⟨fun old new hp => (by cases hp), exchange_steps_created s stored md⟩

/-- Every request chains a token right after it created its successor. -/
theorem start_created (q : Request) (here : Here) :
    (q.start s here).Steps (fun _ _ => True) ChainsCreated ∧ ∀ old new, ¬ Chaining old new (q.start s here) := by
  have hquiet {β : Type} {p : Handler β} {g : β → Response} (hp : Quiet p) :
      (g <$> p).Steps (fun _ _ => True) ChainsCreated ∧ ∀ old new, ¬ Chaining old new (g <$> p) :=
    ⟨Quiet.steps (hp.map g), fun _ _ => Quiet.not_chaining (hp.map g)⟩
  cases q with
  | register email password displayName md => exact hquiet (register_signsIn s here email password displayName md).quiet
  | login email password md => exact hquiet (login_signsIn s email password md).quiet
  | logout refreshToken => exact hquiet (logout_quiet s here refreshToken)
  | upsertOAuthUser p providerUserID email displayName md =>
    exact hquiet (upsertOAuthUser_signsIn s p providerUserID email displayName md).quiet
  | refresh refreshToken md => exact refresh_created s here refreshToken md

end Quiet

/-! ### Chains -/

/-- No two tokens have one successor. -/
def Unforked (db : AuthDb) : Prop :=
  ∀ a ∈ db.refreshTokens, ∀ b ∈ db.refreshTokens, ∀ new, a.replacedBy = some new → b.replacedBy = some new → a = b

def Replaces (db : AuthDb) (old new : String) : Prop :=
  ∃ t ∈ db.refreshTokens, t.id = old ∧ t.replacedBy = some new

/-- The tokens follow one another without loops and without forks, each chain within one user. -/
structure Families (db : AuthDb) : Prop where
  unforked : Unforked db
  owner : ∀ old new, Relation.TransGen (Replaces db) old new → Succeeds db old new
  loopless : ∀ id, ¬ Relation.TransGen (Replaces db) id id

section Chains
variable {citext : Citext} {e : Env} {c : Cmd} {db : AuthDb}

/-- A token has one place. -/
theorem TokensUnique.place (h : TokensUnique db) {i j : ℕ} {a b : RefreshToken}
    (ha : db.refreshTokens[i]? = some a) (hb : db.refreshTokens[j]? = some b) (hid : a.id = b.id) : i = j := by
  have hai : (db.refreshTokens.map (·.id))[i]? = some a.id := by rw [List.getElem?_map, ha, Option.map_some]
  have hbj : (db.refreshTokens.map (·.id))[j]? = some a.id := by rw [List.getElem?_map, hb, Option.map_some, hid]
  exact (List.getElem?_inj (List.getElem?_eq_some_iff.1 hai).1 h).1 (hai.trans hbj.symm)

theorem Succeeds.trans (hu : TokensUnique db) {a b c : String} (h : Succeeds db a b) (h' : Succeeds db b c) :
    Succeeds db a c := by
  obtain ⟨i, j, x, y, hij, hx, hy, rfl, rfl, hxy⟩ := h
  obtain ⟨k, l, y', z, hkl, hy', hz, hid, rfl, hyz⟩ := h'
  obtain rfl : k = j := hu.place hy' hy hid
  obtain rfl : y' = y := Option.some.inj (hy'.symm.trans hy)
  exact ⟨i, l, x, z, hij.trans hkl, hx, hz, rfl, rfl, hxy.trans hyz⟩

theorem Succeeds.ne (hu : TokensUnique db) {a b : String} (h : Succeeds db a b) : a ≠ b := by
  obtain ⟨i, j, x, y, hij, hx, hy, rfl, rfl, -⟩ := h
  exact fun hid => Nat.ne_of_lt hij (hu.place hx hy hid)

theorem Accounts.families (h : Accounts citext db) (hu : Unforked db) : Families db := by
  have howner (old new : String) (hr : Relation.TransGen (Replaces db) old new) : Succeeds db old new := by
    have hstep {a b : String} (hab : Replaces db a b) : Succeeds db a b := by
      obtain ⟨t, ht, rfl, hnew⟩ := hab
      exact (h.chained t ht b hnew).2
    induction hr with
    | single hab => exact hstep hab
    | tail _ hbc ih => exact ih.trans h.tokens (hstep hbc)
  exact ⟨hu, howner, fun id hr => (howner id id hr).ne h.tokens rfl⟩

/-- A successor is in the table. -/
theorem Succeeds.mem {old new : String} (h : Succeeds db old new) : ∃ t ∈ db.refreshTokens, t.id = new := by
  obtain ⟨-, j, -, b, -, -, hb, -, hid, -⟩ := h
  exact ⟨b, List.mem_of_getElem? hb, hid⟩

/-- A row gets a successor from the call that chains to it only. -/
theorem replaced_cases (hc : Fits db c) {t : RefreshToken} (ht : t ∈ (exec citext e c db).2.refreshTokens)
    {new : String} (hnew : t.replacedBy = some new) :
    (∃ t' ∈ db.refreshTokens, t'.id = t.id ∧ t'.replacedBy = some new) ∨ c = .revoke t.id (some new) := by
  rcases exec_db citext e c db with h | h
  · rw [h] at ht
    exact .inl ⟨t, ht, rfl, hnew⟩
  · generalize (exec citext e c db).2 = db' at h ht
    cases h with
    | createUser | link => exact .inl ⟨t, ht, rfl, hnew⟩
    | create t' =>
      rcases List.mem_append.1 ht with ht | ht
      · exact .inl ⟨t, ht, rfl, hnew⟩
      · rw [List.mem_singleton.1 ht, hc.2.1] at hnew
        cases hnew
    | revoke jti new' =>
      obtain ⟨t', ht', rfl⟩ := List.mem_map.1 ht
      rw [revokeRow_id]
      unfold RefreshRepo.revokeRow at hnew
      split_ifs at hnew with hrow
      · obtain rfl : new' = some new := hnew
        exact .inr (by rw [hrow.1])
      · exact .inl ⟨t', ht', rfl, hnew⟩
    | revokeAll userID =>
      obtain ⟨t', ht', rfl⟩ := List.mem_map.1 ht
      refine .inl ⟨t', ht', (revokeUserRow_id _ _ _).symm, ?_⟩
      unfold RefreshRepo.revokeUserRow at hnew
      split_ifs at hnew <;> exact hnew

/-- A token that could be created is new. -/
theorem create_fresh {t : RefreshToken} (h : (exec citext e (.create t) db).1.1.isOk = true) :
    ∀ row ∈ db.refreshTokens, row.id ≠ t.id := by
  cases hr : (exec citext e (.create t) db).1.1 with
  | error err =>
    rw [hr] at h
    cases h
  | ok r =>
    have heff := (exec_ok hr).2
    simp only [Cmd.effect, RefreshRepo.create] at heff
    split at heff
    · cases heff
    · rename_i hn
      simp only [Bool.or_eq_true, List.any_eq_true, beq_iff_eq, not_or, not_exists, not_and] at hn
      exact fun row hrow => (hn.1 row hrow).1

end Chains

/-! ### Runs -/

/-- A request in flight is about to chain a token to the successor `new`. -/
def Waits (w : World) (i : ℕ) (old new : String) : Prop := ∃ q p, w.threads[i]? = some ⟨q, p⟩ ∧ Chaining old new p

/-- The contract holds, no two tokens have one successor, and no successor that a request is about to chain to is
another's too. -/
structure FamilyInv (s : Service) (w : World) : Prop where
  holds : (contract s).Holds w
  created : w.All fun _ p => p.Steps (fun _ _ => True) ChainsCreated
  unforked : Unforked w.store
  unspent : ∀ i old new, Waits w i old new → ∀ t ∈ w.store.refreshTokens, t.replacedBy ≠ some new
  apart : ∀ i j old old' new, Waits w i old new → Waits w j old' new → i = j

section Run
variable {s : Service} {w : World}

theorem FamilyInv.succeeds (h : FamilyInv s w) {i : ℕ} {old new : String} (hw : Waits w i old new) :
    Succeeds w.store old new := by
  obtain ⟨q, p, hi, hp⟩ := hw
  cases p with
  | ret a => cases hp
  | call c k =>
    obtain rfl : c = .revoke old (some new) := Option.some.inj hp
    exact (h.holds.keeps i q _ hi).1

theorem FamilyInv.replaced (h : FamilyInv s w) {t : RefreshToken} (ht : t ∈ w.store.refreshTokens) {new : String}
    (hnew : t.replacedBy = some new) : ∃ row ∈ w.store.refreshTokens, row.id = new :=
  (h.holds.inv.chained t ht new hnew).2.mem

/-- One request makes its call. -/
theorem familyInv_advance (h : FamilyInv s w) {i : ℕ} {e : Env} {q : Request} {c : Cmd} {k : Reply c → Handler Response}
    (hi : w.threads[i]? = some ⟨q, .call c k⟩) (hholds : (contract s).Holds ((system s).step w (.advance i e))) :
    FamilyInv s ((system s).step w (.advance i e)) := by
  have hstep := (system s).step_advance hi e
  have hfits : Fits w.store c := (h.holds.keeps i q _ hi).1
  have hcreated := h.created i q _ hi
  -- whoever waits afterwards has waited before, or has just created the successor
  have hwaits {j : ℕ} {old new : String} (hj : Waits ((system s).step w (.advance i e)) j old new) :
      (j ≠ i ∧ Waits w j old new) ∨ (j = i ∧ ∃ t, c = .create t ∧ t.id = new ∧
        (exec s.citext e c w.store).1.1.isOk = true) := by
    obtain ⟨q', p, hp, hchain⟩ := hj
    rw [hstep] at hp
    rcases set_cases hp with ⟨rfl, ht⟩ | ⟨hne, hp⟩
    · cases ht
      exact .inr ⟨rfl, (hcreated.trans trivial) old new hchain⟩
    · exact .inl ⟨Ne.symm hne, q', p, hp, hchain⟩
  have hstore : ((system s).step w (.advance i e)).store = (exec s.citext e c w.store).2 := by
    rw [hstep]
    rfl
  have hself {old new : String} (hc : c = .revoke old (some new)) : Waits w i old new := ⟨q, _, hi, congrArg some hc⟩
  refine ⟨hholds, ?_, ?_, ?_, ?_⟩
  · refine h.created.step (fun q e _ => (start_created s q e.here).1) fun j e' q' c' k' _ hj _ => ?_
    exact (h.created j q' _ hj).next trivial
  · rw [hstore]
    intro a ha b hb new hanew hbnew
    have hunique : TokensUnique (exec s.citext e c w.store).2 := exec_tokensUnique s.citext e c h.holds.inv.tokens
    rcases replaced_cases hfits ha hanew with ⟨a', ha', haid, hanew'⟩ | hca <;>
      rcases replaced_cases hfits hb hbnew with ⟨b', hb', hbid, hbnew'⟩ | hcb
    · refine hunique.eq ha hb ?_
      rw [← haid, ← hbid, h.unforked a' ha' b' hb' new hanew' hbnew']
    · exact absurd hanew' (h.unspent i _ new (hself hcb) a' ha')
    · exact absurd hbnew' (h.unspent i _ new (hself hca) b' hb')
    · exact hunique.eq ha hb (Cmd.revoke.inj (hca.symm.trans hcb)).1
  · rw [hstore]
    intro j old new hj t ht hnew
    rcases replaced_cases hfits ht hnew with ⟨t', ht', -, hnew'⟩ | hc
    · rcases hwaits hj with ⟨-, hj⟩ | ⟨-, t₀, rfl, rfl, hok⟩
      · exact h.unspent j old new hj t' ht' hnew'
      · obtain ⟨row, hrow, hid⟩ := h.replaced ht' hnew'
        exact create_fresh hok row hrow hid
    · rcases hwaits hj with ⟨hne, hj⟩ | ⟨-, t₀, hc', -, -⟩
      · exact hne (h.apart j i old t.id new hj (hself hc))
      · rw [hc] at hc'
        cases hc'
  · intro j j' old old' new hj hj'
    have hnew {t₀ : RefreshToken} {j : ℕ} {old : String} (hc : c = .create t₀)
        (hok : (exec s.citext e c w.store).1.1.isOk = true) : ¬ Waits w j old t₀.id := by
      subst hc
      intro hw
      obtain ⟨row, hrow, hid⟩ := (h.succeeds hw).mem
      exact create_fresh hok row hrow hid
    rcases hwaits hj with ⟨-, hw⟩ | ⟨hji, t₀, hc, rfl, hok⟩ <;>
      rcases hwaits hj' with ⟨-, hw'⟩ | ⟨hji', t₁, hc', heq, hok'⟩
    · exact h.apart j j' old old' new hw hw'
    · rw [← heq] at hw
      exact absurd hw (hnew hc' hok')
    · exact absurd hw' (hnew hc hok)
    · exact hji.trans hji'.symm

theorem familyInv_step (h : FamilyInv s w) (l : Step) : FamilyInv s ((system s).step w l) := by
  have hholds := (h.holds.step (fun q e db _ => start_keeps s q e db) l).1
  have hcreated : ((system s).step w l).All fun _ p => p.Steps (fun _ _ => True) ChainsCreated :=
    h.created.step (fun q e _ => (start_created s q e.here).1) fun j e q c k _ hj _ =>
      (h.created j q _ hj).next trivial
  rcases (system s).step_cases w l with hs | ⟨q, e, rfl, hs⟩ | ⟨i, e, q, c, k, rfl, hi, -⟩ | ⟨a, rfl, hs⟩
  · rw [hs]
    exact h
  · have hwaits {j : ℕ} {old new : String} (hj : Waits ((system s).step w (.spawn q e)) j old new) :
        Waits w j old new := by
      obtain ⟨q', p, hp, hchain⟩ := hj
      rw [hs] at hp
      rcases getElem?_concat_cases hp with hp | ⟨-, ht⟩
      · exact ⟨q', p, hp, hchain⟩
      · cases ht
        exact absurd hchain ((start_created s q e.here).2 old new)
    have hstore : ((system s).step w (.spawn q e)).store = w.store := by rw [hs]
    exact ⟨hholds, hcreated, hstore ▸ h.unforked, fun j old new hj => hstore ▸ h.unspent j old new (hwaits hj),
      fun j j' old old' new hj hj' => h.apart j j' old old' new (hwaits hj) (hwaits hj')⟩
  · exact familyInv_advance h hi hholds
  · obtain ⟨userID⟩ := a
    exact ⟨hholds, hcreated, h.unforked, h.unspent, h.apart⟩

theorem familyInv_run {db : AuthDb} (hdb : Accounts s.citext db) (hu : Unforked db) (l : List Step) :
    FamilyInv s ((system s).run db l) := by
  refine Run.invariant (I := FamilyInv s) (fun _ l h => familyInv_step h l) ?_ l
  have hnobody {i : ℕ} {old new : String} : ¬ Waits (⟨db, []⟩ : World) i old new := by
    rintro ⟨q, p, hi, -⟩
    cases hi
  exact ⟨⟨hdb, Pool.All.nil db⟩, Pool.All.nil db, hu, fun i old new hw => absurd hw hnobody,
    fun i j old old' new hw => absurd hw hnobody⟩

theorem grows_run (s : Service) {db : AuthDb} (hdb : Accounts s.citext db) (l₁ l₂ : List Step) :
    Grows ((system s).run db l₁).store ((system s).run db (l₁ ++ l₂)).store := by
  have hholds : (contract s).Holds ((system s).run db l₁) :=
    Contract.run (K := contract s) (fun q e db _ => start_keeps s q e db) hdb l₁
  rw [show (system s).run db (l₁ ++ l₂) = Run.exec (system s).step ((system s).run db l₁) l₂ from
    Run.exec_append _ l₁ l₂]
  exact (Run.invariant (I := fun w => (contract s).Holds w ∧ Grows ((system s).run db l₁).store w.store)
    (fun w l h =>
      have hstep := h.1.step (fun q e db _ => start_keeps s q e db) l
      ⟨hstep.1, h.2.trans hstep.2⟩)
    ⟨hholds, Grows.refl _⟩ l₂).2

end Run

/-- **In every run the tables stay in order and only grow, the refresh tokens form chains, each within one user,
without loops and without forks, and every pair handed out is backed by the row of its refresh token.** -/
theorem accounts_kept (s : Service) (db : AuthDb) (hdb : Accounts s.citext db) (hu : Unforked db)
    (l₁ l₂ : List Step) :
    Accounts s.citext ((system s).run db (l₁ ++ l₂)).store ∧
    Families ((system s).run db (l₁ ++ l₂)).store ∧
    Grows ((system s).run db l₁).store ((system s).run db (l₁ ++ l₂)).store ∧
    ∀ (i : ℕ) q result, ((system s).run db (l₁ ++ l₂)).threads[i]? = some ⟨q, .ret result⟩ →
      result.served s ((system s).run db (l₁ ++ l₂)).store := by
  have h : FamilyInv s ((system s).run db (l₁ ++ l₂)) := familyInv_run hdb hu (l₁ ++ l₂)
  exact ⟨h.holds.inv, h.holds.inv.families h.unforked, grows_run s hdb l₁ l₂, fun i q result hi => h.holds.returned hi⟩

theorem emptyDb_accounts : Accounts id emptyDb where
  users := List.nodup_nil
  emails := List.nodup_nil
  identities := List.nodup_nil
  linked := fun _ h => absurd h List.not_mem_nil
  tokens := List.nodup_nil
  hashes := List.nodup_nil
  owned := fun _ h => absurd h List.not_mem_nil
  chained := fun _ h => absurd h List.not_mem_nil

/-- Both requests of `concurrentRefresh` created a successor; the token is chained to the first. -/
theorem concurrentRefresh_families :
    ((system sampleService).run emptyDb concurrentRefresh).store.refreshTokens.map (fun t => (t.id, t.replacedBy)) =
      [("t1", some "t2"), ("t2", none), ("t3", none)] ∧
    Families ((system sampleService).run emptyDb concurrentRefresh).store := by
  refine ⟨by decide +kernel, ?_⟩
  exact (accounts_kept sampleService emptyDb emptyDb_accounts (fun _ h => absurd h List.not_mem_nil)
    concurrentRefresh []).2.1

end DeskSync.Auth
