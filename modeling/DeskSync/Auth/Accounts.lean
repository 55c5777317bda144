import DeskSync.Auth.Rotation

/-!
# Accounts and token chains

What the auth tables look like between two calls (`Accounts`): unique keys, references that lead somewhere, and
refresh tokens that are chained by `replaced_by`, from a revoked row to a later row of the same user. How rows may
change (`Grows`): a user is only deactivated, an identity stays linked, a token is only revoked, and a revoked one
does not change any more.

`accounts_exec`, `exec_grows`: a call made where `Fits` holds keeps the tables in order, and every call lets them
grow.
-/

namespace DeskSync.Auth

open Backend

/-! ### The tables -/

/-- The row as it was inserted. -/
def RefreshToken.asIssued (t : RefreshToken) : RefreshToken := { t with revokedAt := none, replacedBy := none }

/-- The row without the flag an operator may clear. -/
def User.account (u : User) : User := { u with isActive := true }

/-- The user has a row. -/
def HasUser (db : AuthDb) (id : String) : Prop := ∃ u ∈ db.users, u.id = id

/-- A later row of the same user. -/
def Succeeds (db : AuthDb) (old new : String) : Prop :=
  ∃ (i j : ℕ) (a b : RefreshToken), i < j ∧ db.refreshTokens[i]? = some a ∧ db.refreshTokens[j]? = some b ∧
    a.id = old ∧ b.id = new ∧ a.userID = b.userID

structure Accounts (citext : Citext) (db : AuthDb) : Prop where
  users : (db.users.map (·.id)).Nodup
  emails : (db.users.map fun u => citext u.email).Nodup
  identities : (db.oauthIdentities.map fun oi => (oi.provider, oi.providerUserID)).Nodup
  linked : ∀ oi ∈ db.oauthIdentities, HasUser db oi.userID
  tokens : TokensUnique db
  hashes : (db.refreshTokens.map (·.tokenHash)).Nodup
  owned : ∀ t ∈ db.refreshTokens, HasUser db t.userID
  chained : ∀ t ∈ db.refreshTokens, ∀ new, t.replacedBy = some new →
    t.revokedAt.isSome ∧ Succeeds db t.id new

/-- How the tables change. -/
structure Grows (db db' : AuthDb) : Prop where
  users : db.users.map User.account <+: db'.users.map User.account
  identities : db.oauthIdentities <+: db'.oauthIdentities
  tokens : db.refreshTokens.map RefreshToken.asIssued <+: db'.refreshTokens.map RefreshToken.asIssued
  final : ∀ t ∈ db.refreshTokens, t.revokedAt.isSome → t ∈ db'.refreshTokens

theorem Grows.refl (db : AuthDb) : Grows db db :=
  ⟨List.prefix_rfl, List.prefix_rfl, List.prefix_rfl, fun _ h _ => h⟩

theorem Grows.trans {a b c : AuthDb} (h : Grows a b) (h' : Grows b c) : Grows a c where
  users := h.users.trans h'.users
  identities := h.identities.trans h'.identities
  tokens := h.tokens.trans h'.tokens
  final := fun t ht hr => h'.final t (h.final t ht hr) hr

section Grow
variable {db db' : AuthDb}

/-- An element stays where it is, up to what the map forgets. -/
theorem getElem?_of_prefix {α β : Type} {f : α → β} {l l' : List α} (h : l.map f <+: l'.map f) {i : ℕ} {a : α}
    (ha : l[i]? = some a) : ∃ a', l'[i]? = some a' ∧ f a' = f a := by
  have hi : (l.map f)[i]? = some (f a) := by rw [List.getElem?_map, ha, Option.map_some]
  obtain ⟨rest, hrest⟩ := h
  have hi' : (l'.map f)[i]? = some (f a) := by
    rw [← hrest, List.getElem?_append_left (List.getElem?_eq_some_iff.1 hi).1]
    exact hi
  rw [List.getElem?_map] at hi'
  exact Option.map_eq_some_iff.1 hi'

theorem Grows.user (h : Grows db db') {u : User} (hu : u ∈ db.users) : ∃ u' ∈ db'.users, u'.account = u.account := by
  obtain ⟨i, hi⟩ := List.mem_iff_getElem?.1 hu
  obtain ⟨u', hu', heq⟩ := getElem?_of_prefix h.users hi
  exact ⟨u', List.mem_of_getElem? hu', heq⟩

theorem Grows.token (h : Grows db db') {i : ℕ} {t : RefreshToken} (ht : db.refreshTokens[i]? = some t) :
    ∃ t', db'.refreshTokens[i]? = some t' ∧ t'.id = t.id ∧ t'.userID = t.userID ∧ t'.tokenHash = t.tokenHash := by
  obtain ⟨t', ht', heq⟩ := getElem?_of_prefix h.tokens ht
  have hid : t'.asIssued.id = t.asIssued.id := congrArg RefreshToken.id heq
  have huser : t'.asIssued.userID = t.asIssued.userID := congrArg RefreshToken.userID heq
  have hhash : t'.asIssued.tokenHash = t.asIssued.tokenHash := congrArg RefreshToken.tokenHash heq
  exact ⟨t', ht', hid, huser, hhash⟩

theorem HasUser.later {id : String} (h : HasUser db id) (hle : Grows db db') : HasUser db' id := by
  obtain ⟨u, hu, rfl⟩ := h
  obtain ⟨u', hu', heq⟩ := hle.user hu
  have hid : u'.account.id = u.account.id := congrArg User.id heq
  exact ⟨u', hu', hid⟩

theorem Succeeds.later {old new : String} (h : Succeeds db old new) (hle : Grows db db') : Succeeds db' old new := by
  obtain ⟨i, j, a, b, hij, ha, hb, rfl, rfl, hu⟩ := h
  obtain ⟨a', ha', haid, hau, -⟩ := hle.token ha
  obtain ⟨b', hb', hbid, hbu, -⟩ := hle.token hb
  exact ⟨i, j, a', b', hij, ha', hb', haid, hbid, hau.trans (hu.trans hbu.symm)⟩

end Grow

/-! ### What a call asks for -/

/-- What has to hold of the tables when a call is made. -/
def Fits (db : AuthDb) : Cmd → Prop
  | .create t => t.revokedAt = none ∧ t.replacedBy = none ∧ HasUser db t.userID
  | .revoke old (some new) => Succeeds db old new
  | _ => True

theorem Fits.later {c : Cmd} {db db' : AuthDb} (h : Fits db c) (hle : Grows db db') : Fits db' c := by
  unfold Fits at h ⊢
  split
  · exact ⟨h.1, h.2.1, h.2.2.later hle⟩
  · exact Succeeds.later h hle
  · trivial

/-! ### What a call does -/

/-- A statement that writes, with the tables it leaves. -/
inductive Writes (citext : Citext) (now : Time) (db : AuthDb) : Cmd → AuthDb → Prop
  | createUser (u row : User) (hid : ∀ v ∈ db.users, v.id ≠ row.id)
    (hemail : ∀ v ∈ db.users, citext v.email ≠ citext row.email) :
    Writes citext now db (.createUser u) { db with users := db.users ++ [row] }
  | link (id : OAuthIdentity) (hfree : ∀ oi ∈ db.oauthIdentities,
      (oi.provider, oi.providerUserID) ≠ (id.provider, id.providerUserID)) (huser : HasUser db id.userID) :
    Writes citext now db (.linkOAuthIdentity id) { db with oauthIdentities := db.oauthIdentities ++ [id] }
  | create (t : RefreshToken) (hid : ∀ row ∈ db.refreshTokens, row.id ≠ t.id)
    (hhash : ∀ row ∈ db.refreshTokens, row.tokenHash ≠ t.tokenHash) :
    Writes citext now db (.create t) { db with refreshTokens := db.refreshTokens ++ [t] }
  | revoke (jti : String) (new : Option String) : Writes citext now db (.revoke jti new)
      { db with refreshTokens := db.refreshTokens.map (RefreshRepo.revokeRow now jti new) }
  | revokeAll (userID : String) : Writes citext now db (.revokeAllForUser userID)
      { db with refreshTokens := db.refreshTokens.map (RefreshRepo.revokeUserRow now userID) }

section Calls
variable {citext : Citext} {e : Env} {c : Cmd} {db : AuthDb}

theorem effect_db (citext : Citext) (e : Env) (c : Cmd) (db : AuthDb) :
    (c.effect citext e db).2 = db ∨ Writes citext e.dbNow db c (c.effect citext e db).2 := by
  cases c with
  | createUser u =>
    simp only [Cmd.effect, UserRepo.createUser]
    split
    · exact .inl rfl
    · rename_i hn
      simp only [List.any_eq_true, Bool.or_eq_true, beq_iff_eq, not_exists, not_and, not_or] at hn
      exact .inr (.createUser u _ (fun v hv => (hn v hv).2) fun v hv => (hn v hv).1)
  | linkOAuthIdentity id =>
    simp only [Cmd.effect, UserRepo.linkOAuthIdentity]
    split_ifs with hany huser
    · exact .inl rfl
    · simp only [List.any_eq_true, Bool.and_eq_true, beq_iff_eq, not_exists, not_and] at hany
      obtain ⟨u, hu, hid⟩ := List.any_eq_true.1 huser
      refine .inr (.link id (fun oi hoi heq => ?_) ⟨u, hu, beq_iff_eq.1 hid⟩)
      exact hany oi hoi (congrArg Prod.fst heq) (congrArg Prod.snd heq)
    · exact .inl rfl
  | create t =>
    simp only [Cmd.effect, RefreshRepo.create]
    split
    · exact .inl rfl
    · rename_i hn
      simp only [Bool.or_eq_true, List.any_eq_true, beq_iff_eq, not_or, not_exists, not_and] at hn
      exact .inr (.create t (fun row hrow => (hn.1 row hrow).1) fun row hrow => (hn.1 row hrow).2)
  | revoke jti new =>
    simp only [Cmd.effect, RefreshRepo.revoke]
    split_ifs
    · exact .inr (.revoke jti new)
    all_goals exact .inl rfl
  | revokeAllForUser userID => exact .inr (.revokeAll userID)
  | getByID jti =>
    simp only [Cmd.effect, RefreshRepo.getByID]
    split <;> exact .inl rfl
  | getUserByEmail | getUserByID | getByProviderIdentity => exact .inl rfl

/-- A call leaves the tables as they are, or is a statement that writes. -/
theorem exec_db (citext : Citext) (e : Env) (c : Cmd) (db : AuthDb) :
    (exec citext e c db).2 = db ∨ Writes citext e.dbNow db c (exec citext e c db).2 := by
  rcases Fault.apply_store RepoError.other e.fault (c.effect citext e) db with h | h
  · exact .inl h
  · rw [show (exec citext e c db).2 = (c.effect citext e db).2 from h]
    exact effect_db citext e c db

@[simp] theorem revokeRow_asIssued (now : Time) (jti : String) (new : Option String) (row : RefreshToken) :
    (RefreshRepo.revokeRow now jti new row).asIssued = row.asIssued := by
  unfold RefreshRepo.revokeRow; split <;> rfl

@[simp] theorem revokeUserRow_asIssued (now : Time) (userID : String) (row : RefreshToken) :
    (RefreshRepo.revokeUserRow now userID row).asIssued = row.asIssued := by
  unfold RefreshRepo.revokeUserRow; split <;> rfl

/-- Revoking rows lets the tables grow. -/
theorem grows_map (f : RefreshToken → RefreshToken) (hissued : ∀ t, (f t).asIssued = t.asIssued)
    (hfinal : ∀ t, t.revokedAt.isSome → f t = t) :
    Grows db { db with refreshTokens := db.refreshTokens.map f } where
  users := List.prefix_rfl
  identities := List.prefix_rfl
  tokens := by
    have hmap : (db.refreshTokens.map f).map RefreshToken.asIssued = db.refreshTokens.map RefreshToken.asIssued := by
      rw [List.map_map]
      exact List.map_congr_left fun t _ => hissued t
    exact hmap ▸ List.prefix_rfl
  final := fun t ht hr => List.mem_map.2 ⟨t, ht, hfinal t hr⟩

theorem Writes.grows {now : Time} {db' : AuthDb} (h : Writes citext now db c db') : Grows db db' := by
  cases h with
  | createUser u row =>
    exact ⟨List.map_append ▸ List.prefix_append _ _, List.prefix_rfl, List.prefix_rfl, fun t ht _ => ht⟩
  | link id => exact ⟨List.prefix_rfl, List.prefix_append _ _, List.prefix_rfl, fun t ht _ => ht⟩
  | create t =>
    exact ⟨List.prefix_rfl, List.prefix_rfl, List.map_append ▸ List.prefix_append _ _,
      fun t ht _ => List.mem_append_left _ ht⟩
  | revoke jti new =>
    refine grows_map _ (fun t => revokeRow_asIssued _ _ _ t) fun t hr => if_neg fun hc => ?_
    rw [hc.2] at hr
    cases hr
  | revokeAll userID =>
    refine grows_map _ (fun t => revokeUserRow_asIssued _ _ t) fun t hr => if_neg fun hc => ?_
    rw [hc.2] at hr
    cases hr

theorem exec_grows (citext : Citext) (e : Env) (c : Cmd) (db : AuthDb) : Grows db (exec citext e c db).2 := by
  rcases exec_db citext e c db with h | h
  · rw [h]
    exact Grows.refl db
  · exact h.grows

/-- An operator lets them grow too. -/
theorem admin_grows (a : Admin) (db : AuthDb) : Grows db (a.apply db) := by
  obtain ⟨userID⟩ := a
  have hmap : (db.users.map fun u => if u.id = userID then { u with isActive := false } else u).map User.account =
      db.users.map User.account := by
    rw [List.map_map]
    refine List.map_congr_left fun u _ => ?_
    rw [Function.comp_apply]
    split <;> rfl
  refine ⟨?_, List.prefix_rfl, List.prefix_rfl, fun t ht _ => ht⟩
  rw [Admin.apply, hmap]

/-- Rows that are revoked stay in order, if those that are chained anew lead to a later row. -/
theorem accounts_map (h : Accounts citext db) {f : RefreshToken → RefreshToken}
    (hissued : ∀ t, (f t).asIssued = t.asIssued) (hfinal : ∀ t, t.revokedAt.isSome → f t = t)
    (hchain : ∀ t ∈ db.refreshTokens, ∀ new, (f t).replacedBy = some new →
      (f t).revokedAt.isSome ∧ Succeeds db t.id new) :
    Accounts citext { db with refreshTokens := db.refreshTokens.map f } := by
  have hgrows : Grows db { db with refreshTokens := db.refreshTokens.map f } := grows_map f hissued hfinal
  have hcolumn {β : Type} (column : RefreshToken → β) (hc : ∀ t, column t.asIssued = column t) :
      (db.refreshTokens.map f).map column = db.refreshTokens.map column := by
    rw [List.map_map]
    refine List.map_congr_left fun t _ => ?_
    rw [Function.comp_apply, ← hc (f t), hissued t, hc t]
  refine ⟨h.users, h.emails, h.identities, h.linked, ?_, ?_, ?_, ?_⟩
  · show ((db.refreshTokens.map f).map (·.id)).Nodup
    rw [hcolumn (·.id) fun _ => rfl]
    exact h.tokens
  · show ((db.refreshTokens.map f).map (·.tokenHash)).Nodup
    rw [hcolumn (·.tokenHash) fun _ => rfl]
    exact h.hashes
  · intro t' ht'
    obtain ⟨t, ht, rfl⟩ := List.mem_map.1 ht'
    have huser : (f t).asIssued.userID = t.asIssued.userID := congrArg RefreshToken.userID (hissued t)
    rw [show (f t).userID = t.userID from huser]
    exact h.owned t ht
  · intro t' ht' new hnew
    obtain ⟨t, ht, rfl⟩ := List.mem_map.1 ht'
    obtain ⟨hrev, hsucc⟩ := hchain t ht new hnew
    have hid : (f t).asIssued.id = t.asIssued.id := congrArg RefreshToken.id (hissued t)
    rw [show (f t).id = t.id from hid]
    exact ⟨hrev, hsucc.later hgrows⟩

theorem Writes.accounts {now : Time} {db' : AuthDb} (h : Writes citext now db c db') (hc : Fits db c)
    (hdb : Accounts citext db) : Accounts citext db' := by
  have hgrows := h.grows
  cases h with
  | createUser u row hid hemail =>
    exact
      { hdb with
        users := nodup_column User.id hdb.users hid
        emails := nodup_column (fun u : User => citext u.email) hdb.emails hemail
        linked := fun oi hoi => (hdb.linked oi hoi).later hgrows
        owned := fun t ht => (hdb.owned t ht).later hgrows }
  | link id hfree huser =>
    refine
      { hdb with
        identities := nodup_column (fun oi : OAuthIdentity => (oi.provider, oi.providerUserID)) hdb.identities hfree
        linked := fun oi hoi => ?_ }
    rcases List.mem_append.1 hoi with hoi | hoi
    · exact hdb.linked oi hoi
    · rw [List.mem_singleton.1 hoi]
      exact huser
  | create t hid hhash =>
    refine
      { hdb with
        tokens := nodup_column RefreshToken.id hdb.tokens hid
        hashes := nodup_column RefreshToken.tokenHash hdb.hashes hhash
        owned := fun row hrow => ?_
        chained := fun row hrow new hnew => ?_ }
    · rcases List.mem_append.1 hrow with hrow | hrow
      · exact hdb.owned row hrow
      · rw [List.mem_singleton.1 hrow]
        exact hc.2.2
    · rcases List.mem_append.1 hrow with hrow | hrow
      · obtain ⟨hrev, hsucc⟩ := hdb.chained row hrow new hnew
        exact ⟨hrev, hsucc.later hgrows⟩
      · rw [List.mem_singleton.1 hrow, hc.2.1] at hnew
        cases hnew
  | revoke jti new =>
    refine accounts_map hdb (fun t => revokeRow_asIssued _ _ _ t) (fun t hr => if_neg fun hc => ?_) fun t ht n hn => ?_
    · rw [hc.2] at hr
      cases hr
    · unfold RefreshRepo.revokeRow at hn ⊢
      split_ifs at hn ⊢ with hrow
      · subst hn
        exact ⟨rfl, hrow.1.symm ▸ hc⟩
      · exact hdb.chained t ht n hn
  | revokeAll userID =>
    refine accounts_map hdb (fun t => revokeUserRow_asIssued _ _ t) (fun t hr => if_neg fun hc => ?_) fun t ht n hn => ?_
    · rw [hc.2] at hr
      cases hr
    · unfold RefreshRepo.revokeUserRow at hn ⊢
      split_ifs at hn ⊢ with hrow
      · exact ⟨rfl, (hdb.chained t ht n hn).2⟩
      · exact hdb.chained t ht n hn

/-- A call that fits keeps the tables in order. -/
theorem accounts_exec (h : Accounts citext db) (hc : Fits db c) : Accounts citext (exec citext e c db).2 := by
  rcases exec_db citext e c db with hdb | hdb
  · rw [hdb]
    exact h
  · exact hdb.accounts hc h

theorem accounts_admin (h : Accounts citext db) (a : Admin) : Accounts citext (a.apply db) := by
  have hgrows := admin_grows a db
  obtain ⟨userID⟩ := a
  have hcolumn {β : Type} (column : User → β) (hc : ∀ u : User, column { u with isActive := false } = column u) :
      (db.users.map fun u => if u.id = userID then { u with isActive := false } else u).map column =
        db.users.map column := by
    rw [List.map_map]
    refine List.map_congr_left fun u _ => ?_
    rw [Function.comp_apply]
    split
    · exact hc u
    · rfl
  refine ⟨?_, ?_, h.identities, fun oi hoi => (h.linked oi hoi).later hgrows, h.tokens, h.hashes,
    fun t ht => (h.owned t ht).later hgrows, fun t ht new hnew => ?_⟩
  · rw [Admin.apply, hcolumn (·.id) fun _ => rfl]
    exact h.users
  · rw [Admin.apply, hcolumn (fun u => citext u.email) fun _ => rfl]
    exact h.emails
  · exact h.chained t ht new hnew

end Calls

end DeskSync.Auth
