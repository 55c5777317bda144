import DeskSync.Auth.Domain

/-!
# The auth repositories

`services/auth/internal/repository/postgres.go` on the tables of the migrations `000002`. A table is
the list of its rows; the constraints the statements run into (primary keys, `UNIQUE`, foreign keys)
are checked where the statement would violate them. Every repository call is one atomic step.

What the later proofs use of the calls is stated once for all of them at the end: rows of
`refresh_tokens` are never removed or renamed, never change their owner, and stay revoked
(`exec_tokenLE`), and a lookup returns a row of the table (`getByID_ok`, `getUserByID_ok`).
-/

namespace DeskSync.Auth

open Backend

structure AuthDb where
  users : List User
  oauthIdentities : List OAuthIdentity
  refreshTokens : List RefreshToken
  deriving DecidableEq, Repr

/-- What a call finds outside the store: how it ends, the database's clock and generated id, and what
the handler reads locally before its next call (its own clock, `uuid.NewString()`, a random salt). -/
structure Here where
  now : Time
  uuid : String
  salt : String
  deriving DecidableEq, Repr

structure Env where
  fault : Fault
  dbNow : Time
  genUUID : String
  here : Here
  deriving DecidableEq, Repr

/-- The case folding behind the `CITEXT` column `users.email`. -/
abbrev Citext := String → String

/-! ### `UserRepo` -/

namespace UserRepo

/-- A unique violation of either the email or the generated key is reported as a taken email. -/
def createUser (citext : Citext) (e : Env) (u : User) (db : AuthDb) : Except RepoError User × AuthDb :=
  if db.users.any fun row => citext row.email == citext u.email || row.id == e.genUUID then
    (.error .emailTaken, db)
  else
    let row := { u with id := e.genUUID, createdAt := e.dbNow, updatedAt := e.dbNow }
    (.ok row, { db with users := db.users ++ [row] })

def scanUser (row : Option User) : Except RepoError User :=
  match row with
  | some u => .ok u
  | none => .error .userNotFound

def getUserByEmail (citext : Citext) (email : String) (db : AuthDb) : Except RepoError User × AuthDb :=
  (scanUser (db.users.find? fun row => citext row.email == citext email), db)

def getUserByID (id : String) (db : AuthDb) : Except RepoError User × AuthDb :=
  (scanUser (db.users.find? fun row => row.id == id), db)

/-- The identity row joined with its user. -/
def identityUser (p : Provider) (providerUserID : String) (db : AuthDb) : Option User :=
  (db.oauthIdentities.find? fun oi => oi.provider == p && oi.providerUserID == providerUserID).bind
    fun oi => db.users.find? fun row => row.id == oi.userID

def getByProviderIdentity (p : Provider) (providerUserID : String) (db : AuthDb) :
    Except RepoError User × AuthDb :=
  (scanUser (identityUser p providerUserID db), db)

/-- `ON CONFLICT (provider, provider_user_id) DO NOTHING`. -/
def linkOAuthIdentity (id : OAuthIdentity) (db : AuthDb) : Except RepoError Unit × AuthDb :=
  if db.oauthIdentities.any fun oi =>
      oi.provider == id.provider && oi.providerUserID == id.providerUserID then
    (.ok (), db)
  else if db.users.any fun row => row.id == id.userID then
    (.ok (), { db with oauthIdentities := db.oauthIdentities ++ [id] })
  else (.error .other, db)

end UserRepo

/-! ### `RefreshRepo` -/

namespace RefreshRepo

def create (t : RefreshToken) (db : AuthDb) : Except RepoError Unit × AuthDb :=
  if db.refreshTokens.any (fun row => row.id == t.id || row.tokenHash == t.tokenHash) ||
      !db.users.any (fun row => row.id == t.userID) then
    (.error .other, db)
  else (.ok (), { db with refreshTokens := db.refreshTokens ++ [t] })

def getByID (jti : String) (db : AuthDb) : Except RepoError RefreshToken × AuthDb :=
  match db.refreshTokens.find? fun row => row.id == jti with
  | some t => (.ok t, db)
  | none => (.error .refreshNotFound, db)

/-- `WHERE id = $1 AND revoked_at IS NULL`. -/
def revokeRow (now : Time) (jti : String) (replacedBy : Option String) (row : RefreshToken) :
    RefreshToken :=
  if row.id = jti ∧ row.revokedAt = none then { row with revokedAt := some now, replacedBy }
  else row

/-- `Revoke` reports success when the row exists, also when it was revoked before. The successor has
to be a row of the table. -/
def revoke (now : Time) (jti : String) (replacedBy : Option String) (db : AuthDb) :
    Except RepoError Unit × AuthDb :=
  if db.refreshTokens.any fun row => row.id == jti && row.revokedAt.isNone then
    if replacedBy.all fun new => db.refreshTokens.any fun row => row.id == new then
      (.ok (), { db with refreshTokens := db.refreshTokens.map (revokeRow now jti replacedBy) })
    else (.error .other, db)
  else if db.refreshTokens.any fun row => row.id == jti then (.ok (), db)
  else (.error .refreshNotFound, db)

/-- `WHERE user_id = $1 AND revoked_at IS NULL`. -/
def revokeUserRow (now : Time) (userID : String) (row : RefreshToken) : RefreshToken :=
  if row.userID = userID ∧ row.revokedAt = none then { row with revokedAt := some now } else row

def revokeAllForUser (now : Time) (userID : String) (db : AuthDb) : Except RepoError Unit × AuthDb :=
  (.ok (), { db with refreshTokens := db.refreshTokens.map (revokeUserRow now userID) })

end RefreshRepo

/-! ### Calls -/

/-- The calls of `domain.UserRepository` and `domain.RefreshTokenRepository`. -/
inductive Cmd where
  | createUser (u : User)
  | getUserByEmail (email : String)
  | getUserByID (id : String)
  | getByProviderIdentity (p : Provider) (providerUserID : String)
  | linkOAuthIdentity (id : OAuthIdentity)
  | create (t : RefreshToken)
  | getByID (jti : String)
  | revoke (jti : String) (replacedBy : Option String)
  | revokeAllForUser (userID : String)
  deriving DecidableEq, Repr

abbrev Cmd.Res : Cmd → Type
  | .createUser _ | .getUserByEmail _ | .getUserByID _ | .getByProviderIdentity _ _ => User
  | .getByID _ => RefreshToken
  | .linkOAuthIdentity _ | .create _ | .revoke _ _ | .revokeAllForUser _ => Unit

/-- A handler resumes with the call's result and what it reads locally. -/
abbrev Reply (c : Cmd) : Type := Except RepoError c.Res × Here

/-- The call itself, when it goes through. -/
def Cmd.effect (citext : Citext) (e : Env) : (c : Cmd) → AuthDb → Except RepoError c.Res × AuthDb
  | .createUser u => UserRepo.createUser citext e u
  | .getUserByEmail email => UserRepo.getUserByEmail citext email
  | .getUserByID id => UserRepo.getUserByID id
  | .getByProviderIdentity p puid => UserRepo.getByProviderIdentity p puid
  | .linkOAuthIdentity id => UserRepo.linkOAuthIdentity id
  | .create t => RefreshRepo.create t
  | .getByID jti => RefreshRepo.getByID jti
  | .revoke jti replacedBy => RefreshRepo.revoke e.dbNow jti replacedBy
  | .revokeAllForUser userID => RefreshRepo.revokeAllForUser e.dbNow userID

/-- The call under the fault of its step. -/
def exec (citext : Citext) (e : Env) (c : Cmd) (db : AuthDb) : Reply c × AuthDb :=
  let out := e.fault.apply RepoError.other (c.effect citext e) db
  ((out.1, e.here), out.2)

/-! ### What the calls keep -/

/-- No row of `refresh_tokens` disappears, changes owner, or is un-revoked. -/
def TokenLE (db db' : AuthDb) : Prop :=
  ∀ row ∈ db.refreshTokens, ∃ row' ∈ db'.refreshTokens,
    row'.id = row.id ∧ row'.userID = row.userID ∧ (row.revokedAt.isSome → row'.revokedAt.isSome)

/-- The primary key of `refresh_tokens`. -/
def TokensUnique (db : AuthDb) : Prop :=
  (db.refreshTokens.map (·.id)).Nodup

/-- A row is determined by its key. -/
theorem TokensUnique.eq {db : AuthDb} (h : TokensUnique db) {a b : RefreshToken}
    (ha : a ∈ db.refreshTokens) (hb : b ∈ db.refreshTokens) (hid : a.id = b.id) : a = b :=
  List.inj_on_of_nodup_map h ha hb hid

theorem TokenLE.refl (db : AuthDb) : TokenLE db db :=
  fun row h => ⟨row, h, rfl, rfl, id⟩

theorem TokenLE.trans {a b c : AuthDb} (hab : TokenLE a b) (hbc : TokenLE b c) : TokenLE a c := by
  intro row h
  obtain ⟨row', h', hid, huser, hrev⟩ := hab row h
  obtain ⟨row'', h'', hid', huser', hrev'⟩ := hbc row' h'
  exact ⟨row'', h'', hid'.trans hid, huser'.trans huser, hrev' ∘ hrev⟩

section Rows
variable (now : Time) (jti userID : String) (replacedBy : Option String) (row : RefreshToken)

@[simp] theorem revokeRow_id : (RefreshRepo.revokeRow now jti replacedBy row).id = row.id := by
  unfold RefreshRepo.revokeRow; split <;> rfl

@[simp] theorem revokeRow_userID :
    (RefreshRepo.revokeRow now jti replacedBy row).userID = row.userID := by
  unfold RefreshRepo.revokeRow; split <;> rfl

theorem revokeRow_revoked (h : row.revokedAt.isSome) :
    (RefreshRepo.revokeRow now jti replacedBy row).revokedAt.isSome := by
  unfold RefreshRepo.revokeRow; split
  · rfl
  · exact h

theorem revokeRow_self (h : row.id = jti) :
    (RefreshRepo.revokeRow now jti replacedBy row).revokedAt.isSome := by
  unfold RefreshRepo.revokeRow
  split_ifs with hc
  · rfl
  · exact Option.isSome_iff_ne_none.2 fun hn => hc ⟨h, hn⟩

@[simp] theorem revokeUserRow_id : (RefreshRepo.revokeUserRow now userID row).id = row.id := by
  unfold RefreshRepo.revokeUserRow; split <;> rfl

@[simp] theorem revokeUserRow_userID :
    (RefreshRepo.revokeUserRow now userID row).userID = row.userID := by
  unfold RefreshRepo.revokeUserRow; split <;> rfl

theorem revokeUserRow_revoked (h : row.revokedAt.isSome) :
    (RefreshRepo.revokeUserRow now userID row).revokedAt.isSome := by
  unfold RefreshRepo.revokeUserRow; split
  · rfl
  · exact h

theorem revokeUserRow_self (h : row.userID = userID) :
    (RefreshRepo.revokeUserRow now userID row).revokedAt.isSome := by
  unfold RefreshRepo.revokeUserRow
  split_ifs with hc
  · rfl
  · exact Option.isSome_iff_ne_none.2 fun hn => hc ⟨h, hn⟩

end Rows

theorem tokenLE_map {db : AuthDb} {f : RefreshToken → RefreshToken} (hid : ∀ row, (f row).id = row.id)
    (huser : ∀ row, (f row).userID = row.userID)
    (hrev : ∀ row, row.revokedAt.isSome → (f row).revokedAt.isSome) :
    TokenLE db { db with refreshTokens := db.refreshTokens.map f } :=
  fun row h => ⟨f row, List.mem_map_of_mem h, hid row, huser row, hrev row⟩

theorem effect_tokenLE (citext : Citext) (e : Env) (c : Cmd) (db : AuthDb) :
    TokenLE db (c.effect citext e db).2 := by
  cases c with
  | createUser u =>
    simp only [Cmd.effect, UserRepo.createUser]
    split <;> exact TokenLE.refl _
  | getUserByEmail email => exact TokenLE.refl _
  | getUserByID id => exact TokenLE.refl _
  | getByProviderIdentity p puid => exact TokenLE.refl _
  | linkOAuthIdentity id =>
    simp only [Cmd.effect, UserRepo.linkOAuthIdentity]
    split_ifs <;> exact TokenLE.refl _
  | create t =>
    simp only [Cmd.effect, RefreshRepo.create]
    split
    · exact TokenLE.refl _
    · exact fun row h => ⟨row, List.mem_append_left _ h, rfl, rfl, id⟩
  | getByID jti =>
    simp only [Cmd.effect, RefreshRepo.getByID]
    split <;> exact TokenLE.refl _
  | revoke jti replacedBy =>
    simp only [Cmd.effect, RefreshRepo.revoke]
    split_ifs
    · exact tokenLE_map (by simp) (by simp) (revokeRow_revoked _ _ _)
    all_goals exact TokenLE.refl _
  | revokeAllForUser userID =>
    exact tokenLE_map (by simp) (by simp) (revokeUserRow_revoked _ _)

theorem exec_tokenLE (citext : Citext) (e : Env) (c : Cmd) (db : AuthDb) :
    TokenLE db (exec citext e c db).2 :=
  Fault.apply_invariant (I := TokenLE db) (TokenLE.refl db) (effect_tokenLE citext e c db)

theorem exec_tokensUnique (citext : Citext) (e : Env) (c : Cmd) {db : AuthDb} (h : TokensUnique db) :
    TokensUnique (exec citext e c db).2 := by
  refine Fault.apply_invariant (I := TokensUnique) h ?_
  cases c with
  | createUser u =>
    simp only [Cmd.effect, UserRepo.createUser]
    split <;> exact h
  | linkOAuthIdentity id =>
    simp only [Cmd.effect, UserRepo.linkOAuthIdentity]
    split_ifs <;> exact h
  | create t =>
    simp only [Cmd.effect, RefreshRepo.create]
    split
    · exact h
    · rename_i hn
      simp only [Bool.or_eq_true, List.any_eq_true, beq_iff_eq, not_or, not_exists, not_and] at hn
      exact nodup_column RefreshToken.id h fun row hrow => (hn.1 row hrow).1
  | getByID jti =>
    simp only [Cmd.effect, RefreshRepo.getByID]
    split <;> exact h
  | revoke jti replacedBy =>
    simp only [Cmd.effect, RefreshRepo.revoke]
    split_ifs
    · simpa [TokensUnique, Function.comp_def] using h
    all_goals exact h
  | revokeAllForUser userID =>
    simpa [Cmd.effect, RefreshRepo.revokeAllForUser, TokensUnique, Function.comp_def] using h
  | _ => exact h

/-! ### What a reply says -/

variable {citext : Citext} {e : Env} {db : AuthDb}

/-- A call that succeeds has gone through. -/
theorem exec_ok {c : Cmd} {r : c.Res} (h : (exec citext e c db).1.1 = .ok r) :
    e.fault = .none ∧ (c.effect citext e db).1 = .ok r :=
  Fault.apply_ok (k := c.effect citext e) h

theorem exec_lost (h : e.fault = .lost) (c : Cmd) : (exec citext e c db).2 = db := by
  simp only [exec, h, Fault.apply]

/-- A call that is not lost leaves the store its effect leaves. -/
theorem exec_applied (h : e.fault ≠ .lost) (c : Cmd) :
    (exec citext e c db).2 = (c.effect citext e db).2 :=
  Fault.apply_applied h

theorem exec_store (h : e.fault = .none) (c : Cmd) :
    (exec citext e c db).2 = (c.effect citext e db).2 :=
  exec_applied (by rw [h]; decide) c

/-- A call that goes through has the reply of its effect. -/
theorem exec_none (h : e.fault = .none) (c : Cmd) :
    (exec citext e c db).1 = ((c.effect citext e db).1, e.here) := by
  simp only [exec, h, Fault.apply]

theorem exec_failed (h : e.fault ≠ .none) (c : Cmd) : (exec citext e c db).1 = (.error .other, e.here) := by
  simp only [exec, Fault.apply_failed h]

theorem getByID_ok {jti : String} {t : RefreshToken} (h : (exec citext e (.getByID jti) db).1.1 = .ok t) :
    t ∈ db.refreshTokens ∧ t.id = jti := by
  have h := (exec_ok h).2
  simp only [Cmd.effect, RefreshRepo.getByID] at h
  split at h
  · rename_i row hrow
    cases h
    exact ⟨List.mem_of_find?_eq_some hrow, by simpa using List.find?_some hrow⟩
  · cases h

theorem scanUser_ok {o : Option User} {u : User} (h : UserRepo.scanUser o = .ok u) : o = some u := by
  cases o with
  | none => cases h
  | some v => cases h; rfl

theorem getUserByID_ok {id : String} {u : User} (h : (exec citext e (.getUserByID id) db).1.1 = .ok u) :
    u ∈ db.users ∧ u.id = id := by
  have h : db.users.find? (fun row => row.id == id) = some u := scanUser_ok (exec_ok h).2
  exact ⟨List.mem_of_find?_eq_some h, by simpa using List.find?_some h⟩

theorem createUser_ok {u v : User} (h : (exec citext e (.createUser u) db).1.1 = .ok v) :
    v = { u with id := e.genUUID, createdAt := e.dbNow, updatedAt := e.dbNow } := by
  have h := (exec_ok h).2
  simp only [Cmd.effect, UserRepo.createUser] at h
  split at h
  · cases h
  · cases h; rfl

/-- `Revoke` succeeds on a row that was revoked before. -/
theorem revoke_revoked {jti : String} {replacedBy : Option String} {row : RefreshToken}
    (hu : TokensUnique db) (hf : e.fault = .none) (hrow : row ∈ db.refreshTokens) (hid : row.id = jti)
    (hrev : row.revokedAt.isSome) : (exec citext e (.revoke jti replacedBy) db).1.1 = .ok () := by
  have hnone : ¬ (db.refreshTokens.any fun row => row.id == jti && row.revokedAt.isNone) = true := by
    intro h
    obtain ⟨other, hother, hcond⟩ := List.any_eq_true.1 h
    simp only [Bool.and_eq_true, beq_iff_eq, Option.isNone_iff_eq_none] at hcond
    rw [hu.eq hother hrow (hcond.1.trans hid.symm)] at hcond
    rw [hcond.2] at hrev
    cases hrev
  have hsome : (db.refreshTokens.any fun row => row.id == jti) = true :=
    List.any_eq_true.2 ⟨row, hrow, by simpa using hid⟩
  simp only [exec, hf, Fault.apply, Cmd.effect, RefreshRepo.revoke, hnone, hsome, if_true]
  rfl

/-- Once `Revoke` has succeeded, the row it names is there and revoked. -/
theorem revoke_ok {jti : String} {replacedBy : Option String}
    (h : (exec citext e (.revoke jti replacedBy) db).1.1 = .ok ()) :
    ∃ row ∈ (exec citext e (.revoke jti replacedBy) db).2.refreshTokens,
      row.id = jti ∧ row.revokedAt.isSome := by
  obtain ⟨hf, h⟩ := exec_ok h
  rw [exec_store hf]
  simp only [Cmd.effect, RefreshRepo.revoke] at h ⊢
  split_ifs at h ⊢ with h1 h2 h3
  · obtain ⟨row, hrow, hcond⟩ := List.any_eq_true.1 h1
    simp only [Bool.and_eq_true, beq_iff_eq] at hcond
    exact ⟨_, List.mem_map_of_mem hrow, by simpa using hcond.1, revokeRow_self _ _ _ _ hcond.1⟩
  · obtain ⟨row, hrow, hid⟩ := List.any_eq_true.1 h3
    have hid : row.id = jti := by simpa using hid
    refine ⟨row, hrow, hid, Option.isSome_iff_ne_none.2 fun hnone => h1 ?_⟩
    exact List.any_eq_true.2 ⟨row, hrow, by simp [hid, hnone]⟩

end DeskSync.Auth
