import DeskSync.Auth.Rotation

/-!
# A rotation that stops half way

`Refresh` inserts the successor and then revokes the token presented, in two calls and with no transaction
around them. When the reply of the insertion is lost, or the revocation fails, it returns an error and
leaves the successor behind, unrevoked and in nobody's hands (`stranded_successor`); when only the reply
of the revocation is lost, the token presented is gone as well.

`completes` says that neither happens once a successor is inserted, and `allOrNothing_iff` that this is
the exact condition: for every table, token and pattern of failing calls, a refresh that runs alone is
all-or-nothing if and only if it meets it. The proof follows the handler: `Ending` lists the three ways it
can end once the row of the token has been read, and `exchange_ending` finds out which.
-/

namespace DeskSync.Auth

open Backend Proc

/-! ### Rotation as one step -/

/-- The refresh tokens that are not revoked. -/
def unrevoked (db : AuthDb) : Set RefreshToken := {row | row ∈ db.refreshTokens ∧ row.revokedAt = none}

/-- The row of the token presented left the unrevoked ones, that of the token returned joined them, and
nothing else changed. -/
def Rotated (s : Service) (tok : String) (tokens : Tokens) (db db' : AuthDb) : Prop :=
  ∃ old ∈ unrevoked db, ∃ new ∉ unrevoked db, old.tokenHash = s.hashToken tok ∧
    new.tokenHash = s.hashToken tokens.refreshToken ∧ unrevoked db' = insert new (unrevoked db \ {old})

/-- An error other than the detected reuse leaves the unrevoked tokens as they were, and success
exchanges one for the other. -/
def AllOrNothing (s : Service) (tok : String) (db : AuthDb) (out : Except AppError Tokens × AuthDb) : Prop :=
  match out.1 with
  | .error e => e ≠ Service.reuseDetected → unrevoked out.2 = unrevoked db
  | .ok tokens => Rotated s tok tokens db out.2

/-! ### The condition -/

namespace Service
variable (s : Service)

/-- `mint` inserts a row: a pair is issued, key and hash are free, and the insertion is not lost. -/
def mintInserts (here : Here) (e : Env) (userID : String) (db : AuthDb) : Bool :=
  match s.jwt.issue here.now userID here.uuid with
  | .error _ => false
  | .ok pair =>
    e.fault != .lost && db.refreshTokens.all fun row =>
      row.id != here.uuid && row.tokenHash != s.hashToken pair.refreshToken

/-- `exchange` gets as far as the insertion, and makes it. -/
def exchangeInserts (es : ℕ → Env) (stored : RefreshToken) (db : AuthDb) : Bool :=
  (es 0).fault == .none && db.users.any (fun user => user.id == stored.userID) &&
    s.mintInserts (es 0).here (es 1) stored.userID db

/-- `Refresh` gets as far as the insertion, and makes it. -/
def refreshInserts (here : Here) (tok : String) (es : ℕ → Env) (db : AuthDb) : Bool :=
  match s.jwt.verifyRefresh here.now tok with
  | .error _ => false
  | .ok claims =>
    match db.refreshTokens.find? fun row => row.id == claims.id with
    | none => false
    | some stored =>
      (es 0).fault == .none && equalTokenHash s.hashToken tok stored.tokenHash &&
        stored.active (es 0).here.now && s.exchangeInserts (fun n => es (n + 1)) stored db

/-- Once the successor is inserted, neither the reply of the insertion nor the revocation fails. -/
def completes (here : Here) (tok : String) (es : ℕ → Env) (db : AuthDb) : Bool :=
  !s.refreshInserts here tok es db || (es 2).fault == .none && (es 3).fault == .none

end Service

/-! ### Unrevoked rows -/

section Rows
variable {db : AuthDb} {old new : RefreshToken}

theorem mem_unrevoked {row : RefreshToken} :
    row ∈ unrevoked db ↔ row ∈ db.refreshTokens ∧ row.revokedAt = none := Iff.rfl

/-- The table with one more row. -/
def AuthDb.withToken (db : AuthDb) (t : RefreshToken) : AuthDb :=
  { db with refreshTokens := db.refreshTokens ++ [t] }

/-- The table with a row revoked. -/
def AuthDb.withRevoked (db : AuthDb) (now : Time) (jti : String) (replacedBy : Option String) : AuthDb :=
  { db with refreshTokens := db.refreshTokens.map (RefreshRepo.revokeRow now jti replacedBy) }

theorem unrevoked_withToken (h : new.revokedAt = none) :
    unrevoked (db.withToken new) = insert new (unrevoked db) := by
  ext row
  simp only [mem_unrevoked, AuthDb.withToken, List.mem_append, List.mem_singleton, Set.mem_insert_iff]
  constructor
  · rintro ⟨hrow | rfl, hrev⟩
    · exact .inr ⟨hrow, hrev⟩
    · exact .inl rfl
  · rintro (rfl | ⟨hrow, hrev⟩)
    · exact ⟨.inr rfl, h⟩
    · exact ⟨.inl hrow, hrev⟩

theorem tokensUnique_withToken (hu : TokensUnique db) (hid : ∀ row ∈ db.refreshTokens, row.id ≠ new.id) :
    TokensUnique (db.withToken new) :=
  nodup_column RefreshToken.id hu hid

/-- A revocation takes the row away from the unrevoked ones, and no other. -/
theorem unrevoked_revoke (hu : TokensUnique db) (hold : old ∈ unrevoked db) (now : Time)
    (replacedBy : Option String) :
    unrevoked (db.withRevoked now old.id replacedBy) = unrevoked db \ {old} := by
  ext row
  simp only [mem_unrevoked, AuthDb.withRevoked, Set.mem_sdiff, Set.mem_singleton_iff, List.mem_map]
  constructor
  · rintro ⟨⟨row', hrow', rfl⟩, hrev⟩
    unfold RefreshRepo.revokeRow at hrev ⊢
    split_ifs at hrev ⊢ with hcond
    refine ⟨⟨hrow', hrev⟩, ?_⟩
    rintro rfl
    exact hcond ⟨rfl, hrev⟩
  · rintro ⟨⟨hrow, hrev⟩, hne⟩
    have hid : ¬ (row.id = old.id ∧ row.revokedAt = none) :=
      fun h => hne (hu.eq hrow hold.1 h.1)
    exact ⟨⟨row, hrow, if_neg hid⟩, hrev⟩

end Rows

/-! ### The calls of a refresh -/

section Calls
variable {citext : Citext} {e : Env} {db : AuthDb}

theorem getByID_store (jti : String) : (exec citext e (.getByID jti) db).2 = db := by
  by_cases hf : e.fault = .lost
  · exact exec_lost hf _
  · rw [exec_applied hf]
    simp only [Cmd.effect, RefreshRepo.getByID]
    split <;> rfl

theorem getUserByID_store (id : String) : (exec citext e (.getUserByID id) db).2 = db := by
  by_cases hf : e.fault = .lost
  · exact exec_lost hf _
  · rw [exec_applied hf]
    rfl

end Calls

/-! ### The ways a refresh ends -/

/-- How a refresh that has read the row `old` ends, by whether it inserts a successor and whether the
rest goes through. -/
inductive Ending (s : Service) (db : AuthDb) (old : RefreshToken) :
    Bool → Bool → Except AppError Tokens × AuthDb → Prop
  | refused (b : Bool) (e : AppError) (h : e ≠ Service.reuseDetected) : Ending s db old false b (.error e, db)
  | stranded (e : AppError) (db' : AuthDb) (new : RefreshToken) (h : e ≠ Service.reuseDetected)
      (hnew : new ∉ unrevoked db) (hmem : new ∈ unrevoked db') : Ending s db old true false (.error e, db')
  | rotated (tokens : Tokens) (db' : AuthDb) (new : RefreshToken) (hnew : new ∉ unrevoked db)
      (hhash : new.tokenHash = s.hashToken tokens.refreshToken)
      (hdb : unrevoked db' = insert new (unrevoked db \ {old})) : Ending s db old true true (.ok tokens, db')

/-- Neither the key nor the hash of the token is in the table. -/
def RefreshToken.free (t : RefreshToken) (db : AuthDb) : Bool :=
  db.refreshTokens.all fun row => row.id != t.id && row.tokenHash != t.tokenHash

theorem create_effect (citext : Citext) (e : Env) {db : AuthDb} {t : RefreshToken}
    (huser : (db.users.any fun row => row.id == t.userID) = true) :
    (Cmd.create t).effect citext e db =
      if t.free db then (.ok (), db.withToken t) else (.error .other, db) := by
  have htaken : (db.refreshTokens.any fun row => row.id == t.id || row.tokenHash == t.tokenHash) =
      !t.free db := by
    rw [RefreshToken.free, List.all_eq_not_any_not, Bool.not_not]
    simp only [bne, Bool.not_and, Bool.not_not]
  simp only [Cmd.effect, RefreshRepo.create, htaken, huser, Bool.not_true, Bool.or_false]
  cases t.free db <;> rfl

theorem RefreshToken.free_ne {t row : RefreshToken} {db : AuthDb} (h : t.free db = true)
    (hrow : row ∈ db.refreshTokens) : row.id ≠ t.id := by
  intro heq
  have := List.all_eq_true.1 h row hrow
  simp [heq] at this

/-- `Create` for an existing user inserts the row or reports a failure; under a lost reply it does both. -/
theorem create_cases {citext : Citext} {e : Env} {db : AuthDb} {t : RefreshToken}
    (huser : (db.users.any fun row => row.id == t.userID) = true) :
    ((e.fault != .lost && t.free db) = false ∧ (exec citext e (.create t) db).1.1 = .error .other ∧
        (exec citext e (.create t) db).2 = db) ∨
      ((e.fault != .lost && t.free db) = true ∧ (∀ row ∈ db.refreshTokens, row.id ≠ t.id) ∧
        (exec citext e (.create t) db).2 = db.withToken t ∧
        (e.fault = .none ∧ (exec citext e (.create t) db).1.1 = .ok () ∨
          e.fault ≠ .none ∧ (exec citext e (.create t) db).1.1 = .error .other)) := by
  by_cases hlost : e.fault = .lost
  · refine .inl ⟨by rw [hlost]; rfl, ?_, exec_lost hlost _⟩
    rw [exec_failed (by rw [hlost]; decide)]
  have heffect := create_effect citext e huser
  rw [exec_applied hlost, heffect, bne_iff_ne.2 hlost, Bool.true_and]
  cases hfree : t.free db with
  | false =>
    refine .inl ⟨rfl, ?_, rfl⟩
    by_cases hnone : e.fault = .none
    · rw [exec_none hnone, heffect, hfree]
      rfl
    · rw [exec_failed hnone]
  | true =>
    refine .inr ⟨rfl, fun row hrow => RefreshToken.free_ne hfree hrow, rfl, ?_⟩
    by_cases hnone : e.fault = .none
    · refine .inl ⟨hnone, ?_⟩
      rw [exec_none hnone, heffect, hfree]
      rfl
    · refine .inr ⟨hnone, ?_⟩
      rw [exec_failed hnone]

section Handler
variable {s : Service} {db : AuthDb} {old new : RefreshToken}

/-- `rotate`, once the successor is inserted. -/
theorem rotate_ending (hu : TokensUnique db) (hold : old ∈ unrevoked db) (hrev : new.revokedAt = none)
    (hid : ∀ row ∈ db.refreshTokens, row.id ≠ new.id) (tokens : Tokens)
    (hhash : new.tokenHash = s.hashToken tokens.refreshToken) (es : ℕ → Env) :
    Ending s db old true ((es 0).fault == .none)
      ((Service.rotate old tokens new.id).run (exec s.citext) es (db.withToken new)) := by
  have hnew : new ∉ unrevoked db := fun h => hid new h.1 rfl
  have hne : new ≠ old := fun h => hnew (h ▸ hold)
  have hstored : old ∈ unrevoked (db.withToken new) := by
    rw [unrevoked_withToken hrev]
    exact .inr hold
  -- the revocation finds its row, and the successor in the table
  have heffect : (Cmd.revoke old.id (some new.id)).effect s.citext (es 0) (db.withToken new) =
      (.ok (), (db.withToken new).withRevoked (es 0).dbNow old.id (some new.id)) := by
    have hactive : ((db.withToken new).refreshTokens.any fun row =>
        row.id == old.id && row.revokedAt.isNone) = true :=
      List.any_eq_true.2 ⟨old, hstored.1, by simp [hstored.2]⟩
    have hsucc : ((db.withToken new).refreshTokens.any fun row => row.id == new.id) = true :=
      List.any_eq_true.2 ⟨new, List.mem_append_right _ (List.mem_singleton_self _), by simp⟩
    simp only [Cmd.effect, RefreshRepo.revoke, hactive, Option.all_some, hsucc, if_true,
      AuthDb.withRevoked]
  have hdb : unrevoked ((db.withToken new).withRevoked (es 0).dbNow old.id (some new.id)) =
      insert new (unrevoked db \ {old}) := by
    rw [unrevoked_revoke (tokensUnique_withToken hu hid) hstored, unrevoked_withToken hrev,
      Set.insert_sdiff_singleton_comm hne]
  unfold Service.rotate
  rw [Prog.perform_bind, Prog.run_call]
  by_cases hf : (es 0).fault = .none
  · rw [exec_none hf, exec_applied (by rw [hf]; decide), heffect, hf]
    exact .rotated tokens _ new hnew hhash hdb
  · rw [exec_failed hf, beq_eq_false_iff_ne.2 hf]
    refine .stranded _ _ new ?_ hnew ?_
    · decide
    · show new ∈ unrevoked (exec s.citext (es 0) _ (db.withToken new)).2
      by_cases hlost : (es 0).fault = .lost
      · rw [exec_lost hlost, unrevoked_withToken hrev]
        exact Set.mem_insert _ _
      · rw [exec_applied hlost, heffect, hdb]
        exact Set.mem_insert _ _

/-- `exchange`, on a row that is not revoked. -/
theorem exchange_ending (hu : TokensUnique db) (hold : old ∈ unrevoked db) (md : Metadata) (es : ℕ → Env) :
    Ending s db old (s.exchangeInserts es old db) ((es 1).fault == .none && (es 2).fault == .none)
      ((s.exchange old md).run (exec s.citext) es db) := by
  have hdec : ∀ (c : Code) (m : String), m ≠ "refresh token reuse detected" →
      (⟨c, m⟩ : AppError) ≠ Service.reuseDetected := fun c m hm h => hm (congrArg AppError.message h)
  unfold Service.exchange Service.exchangeInserts
  rw [Prog.perform_bind, Prog.run_call, getUserByID_store]
  by_cases hf : (es 0).fault = .none
  · rw [exec_none hf, hf]
    simp only [Cmd.effect, UserRepo.getUserByID]
    cases huser : db.users.find? fun row => row.id == old.userID with
    | none =>
      have hno : (db.users.any fun row => row.id == old.userID) = false := by
        simpa [List.find?_eq_none] using huser
      rw [hno]
      exact .refused _ _ (hdec _ _ (by decide))
    | some user =>
      have hid : user.id = old.userID := by simpa using List.find?_some huser
      have hany : (db.users.any fun row => row.id == old.userID) = true :=
        List.any_eq_true.2 ⟨user, List.mem_of_find?_eq_some huser, by simpa using hid⟩
      rw [hany]
      simp only [UserRepo.scanUser, Service.mint, Service.mintInserts, hid]
      cases s.jwt.issue (es 0).here.now old.userID (es 0).here.uuid with
      | error _ => exact .refused _ _ (hdec _ _ (by decide))
      | ok pair =>
        simp only [Prog.perform_bind, Prog.call_bind, Prog.run_call, Nat.zero_add]
        generalize hnew : ({ id := (es 0).here.uuid
                             userID := old.userID
                             tokenHash := s.hashToken pair.refreshToken
                             issuedAt := (es 0).here.now
                             expiresAt := (es 0).here.now + s.refreshT
                             revokedAt := none
                             replacedBy := none
                             userAgent := md.userAgent
                             ipAddress := md.ipAddress } : RefreshToken) = new
        have hfree : (db.refreshTokens.all fun row => row.id != (es 0).here.uuid &&
            row.tokenHash != s.hashToken pair.refreshToken) = new.free db := by rw [← hnew]; rfl
        have huuid : (es 0).here.uuid = new.id := by rw [← hnew]
        have hrev : new.revokedAt = none := by rw [← hnew]
        have hhash : new.tokenHash = s.hashToken pair.refreshToken := by rw [← hnew]
        rw [hfree, huuid]
        rcases create_cases (show (db.users.any fun row => row.id == new.userID) = true from hnew ▸ hany) with
          ⟨hins, hreply, hstore⟩ | ⟨hins, hid, hstore, ⟨hnone, hreply⟩ | ⟨hnone, hreply⟩⟩
        · rw [hreply, hstore, hins]
          exact .refused _ _ (hdec _ _ (by decide))
        · rw [hreply, hstore, hins, hnone]
          exact rotate_ending hu hold hrev hid
            { accessToken := pair.accessToken, refreshToken := pair.refreshToken
              expiresIn := pair.expiresIn, user } hhash fun n => es (n + 2)
        · rw [hreply, hstore, hins, beq_eq_false_iff_ne.2 hnone]
          refine .stranded _ _ new (hdec _ _ (by decide)) (fun h => hid new h.1 rfl) ?_
          rw [unrevoked_withToken hrev]
          exact Set.mem_insert _ _
  · rw [exec_failed hf, beq_eq_false_iff_ne.2 hf]
    exact .refused _ _ (hdec _ _ (by decide))

end Handler

/-! ### The theorem -/

section Refresh
variable {s : Service} {db : AuthDb} {old : RefreshToken}

/-- A refresh that ends so is all-or-nothing unless it strands a successor. -/
theorem Ending.keeps_iff {tok : String} {b₁ b₂ : Bool} {out : Except AppError Tokens × AuthDb}
    (h : Ending s db old b₁ b₂ out) (hold : old ∈ unrevoked db)
    (hhash : old.tokenHash = s.hashToken tok) : AllOrNothing s tok db out ↔ (!b₁ || b₂) = true := by
  cases h with
  | refused b e he => exact ⟨fun _ => rfl, fun _ _ => rfl⟩
  | stranded e db' new he hnew hmem =>
    refine ⟨fun h => ?_, fun h => absurd h (by decide)⟩
    have heq : unrevoked db' = unrevoked db := h he
    exact absurd (heq ▸ hmem) hnew
  | rotated tokens db' new hnew hnewhash hdb =>
    exact ⟨fun _ => rfl, fun _ => ⟨old, hold, new, hnew, hhash, hnewhash, hdb⟩⟩

/-- **A refresh that runs alone is all-or-nothing exactly when, once it has inserted the successor, neither
the reply of the insertion nor the revocation fails.** -/
theorem allOrNothing_iff (s : Service) (db : AuthDb) (hu : TokensUnique db) (here : Here) (tok : String)
    (md : Metadata) (es : ℕ → Env) :
    AllOrNothing s tok db ((s.refresh here tok md).run (exec s.citext) es db) ↔
      s.completes here tok es db = true := by
  unfold Service.completes Service.refreshInserts Service.refresh
  cases s.jwt.verifyRefresh here.now tok with
  | error _ => exact ⟨fun _ => rfl, fun _ _ => rfl⟩
  | ok claims =>
    simp only [Prog.perform_bind, Prog.run_call, getByID_store]
    have hrefused (b : Bool) (e : AppError) :
        AllOrNothing s tok db (.error e, db) ↔ (!false || b) = true := ⟨fun _ => rfl, fun _ _ => rfl⟩
    by_cases hf : (es 0).fault = .none
    · rw [exec_none hf, hf]
      simp only [Cmd.effect, RefreshRepo.getByID]
      cases hrow : db.refreshTokens.find? fun row => row.id == claims.id with
      | none => exact hrefused _ _
      | some stored =>
        have hmem : stored ∈ db.refreshTokens := List.mem_of_find?_eq_some hrow
        simp only [Service.checkStored]
        split_ifs with hrev hbad
        · -- the reuse is detected: nothing is asked of it, and no successor is inserted
          have hinactive : stored.active (es 0).here.now = false := by
            simp [RefreshToken.active, Option.isNone_eq_false_iff.2 hrev]
          rw [hinactive, Bool.and_false, Bool.false_and]
          exact ⟨fun _ => rfl, fun _ h => absurd rfl h⟩
        · have husable : (equalTokenHash s.hashToken tok stored.tokenHash &&
              stored.active (es 0).here.now) = false := by
            simpa [← Bool.not_and] using hbad
          rw [Bool.and_assoc (Fault.none == Fault.none), husable, Bool.and_false, Bool.false_and]
          exact hrefused _ _
        · have husable : (equalTokenHash s.hashToken tok stored.tokenHash &&
              stored.active (es 0).here.now) = true := by
            simpa [← Bool.not_and] using hbad
          have hold : stored ∈ unrevoked db := ⟨hmem, by simpa using hrev⟩
          have hhash : stored.tokenHash = s.hashToken tok := by
            have h := (Bool.and_eq_true_iff.1 husable).1
            exact (beq_iff_eq.1 h).symm
          rw [Bool.and_assoc (Fault.none == Fault.none), husable]
          exact (exchange_ending hu hold md fun n => es (n + 1)).keeps_iff hold hhash
    · rw [exec_failed hf, beq_eq_false_iff_ne.2 hf]
      cases db.refreshTokens.find? fun row => row.id == claims.id with
      | none => exact hrefused _ _
      | some stored => exact hrefused _ _

end Refresh

/-! ### A revocation that fails -/

/-- The tables after an account was registered: `u1` holds `refresh-t1`. -/
def accountDb : AuthDb := ((system sampleService).run emptyDb registered).store

/-- The token of the account is refreshed; the calls end as given. -/
def refreshAlone (es : ℕ → Env) : Except AppError Tokens × AuthDb :=
  (sampleService.refresh ⟨0, "", ""⟩ "refresh-t1" ⟨"", ""⟩).run (exec sampleService.citext) es accountDb

/-- The successor is `t2`, and its `Revoke` does not reach the database. -/
def revokeLost (n : ℕ) : Env := if n = 3 then { goes "" with fault := .lost } else goes "t2"

set_option maxRecDepth 4000 in
/-- An error is returned, and `t2` is in the table. -/
theorem stranded_successor : ¬ AllOrNothing sampleService "refresh-t1" accountDb (refreshAlone revokeLost) := by
  intro h
  have heq : unrevoked (refreshAlone revokeLost).2 = unrevoked accountDb := h (by decide)
  have hrows : ∃ row ∈ (refreshAlone revokeLost).2.refreshTokens, row.revokedAt = none ∧ row.id = "t2" := by
    decide
  obtain ⟨row, hrow, hrev, hid⟩ := hrows
  have hmem : row ∈ unrevoked accountDb := heq ▸ ⟨hrow, hrev⟩
  have hno : ∀ row ∈ accountDb.refreshTokens, row.id ≠ "t2" := by decide
  exact hno row hmem.1 hid

set_option maxRecDepth 4000 in
/-- When all calls go through, `t2` takes the place of `t1`. -/
theorem allOrNothing_refresh :
    AllOrNothing sampleService "refresh-t1" accountDb (refreshAlone fun _ => goes "t2") := by
  have hu : TokensUnique accountDb := show (accountDb.refreshTokens.map (·.id)).Nodup by decide
  exact (allOrNothing_iff sampleService accountDb hu ⟨0, "", ""⟩ "refresh-t1" ⟨"", ""⟩ _).2 (by decide)

end DeskSync.Auth
