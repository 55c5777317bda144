import DeskSync.Auth.Families
import DeskSync.Auth.Jwt

/-!
# False alarms

A refresh that presents a revoked token revokes all tokens of its user. `alarms_have_cause`: whatever fails and in
whatever order the calls are made, a request comes to this only after two requests have presented one token of the
user, or one a token of the user that was revoked from the start. Clients that present each refresh token they were
answered with once do not: the tokens of different answers name different rows (`MintInv`).
-/

namespace DeskSync.Auth

open Backend Elements Proc

/-! ### The rows of the pairs -/

/-- The token names the row. -/
def Names (s : Service) (token id : String) : Prop :=
  ∃ claims, s.jwt.lib.payload token = some claims ∧ claims.id = id

theorem Names.unique {s : Service} {token id id' : String} (h : Names s token id) (h' : Names s token id') : id = id' := by
  obtain ⟨claims, hpay, rfl⟩ := h
  obtain ⟨claims', hpay', rfl⟩ := h'
  rw [Option.some.inj (hpay.symm.trans hpay')]

/-- The handler may answer with a pair that names the row, without storing another first. -/
def Yields (s : Service) (id : String) : Handler Response → Prop
  | .ret (.tokens (.ok tokens)) => Names s tokens.refreshToken id
  | .ret _ => False
  | .call c k => (∀ t, c ≠ .create t) ∧ ∃ r, Yields s id (k r)

/-- A handler that has stored a row may answer with the pair of this row only. -/
def YieldsCreated (s : Service) (c : Cmd) (r : Reply c) (q : Handler Response) : Prop :=
  ∀ t, c = .create t → ∀ id, Yields s id q → id = t.id ∧ r.1.isOk = true

/-- A handler answers with a pair only after storing its row. -/
structure Careful (s : Service) (p : Handler Response) : Prop where
  steps : p.Steps (fun _ _ => True) (YieldsCreated s)
  barren : ∀ id, ¬ Yields s id p

section Careful
variable {s : Service}

theorem careful_err (e : AppError) : Careful s (.ret (.tokens (.error e))) := ⟨trivial, fun _ h => h⟩

theorem careful_done (result : Except AppError Unit) : Careful s (.ret (.done result)) := ⟨trivial, fun _ h => h⟩

theorem Careful.call {c : Cmd} {k : Reply c → Handler Response} (hc : ∀ t, c ≠ .create t)
    (h : ∀ r, Careful s (k r)) : Careful s (.call c k) :=
  ⟨fun r _ => ⟨fun t ht => absurd ht (hc t), (h r).steps⟩, fun id hy => by
    obtain ⟨-, r, hr⟩ := hy
    exact (h r).barren id hr⟩

/-- `mint`, and what is made of the pair. -/
theorem mint_careful (hlib : JwtLaws s.jwt.lib) (here : Here) (user : User) (md : Metadata)
    {f : Except AppError (Tokens × String) → Handler (Except AppError Tokens)}
    (herr : ∀ e, Careful s (Response.tokens <$> f (.error e)))
    (hok : ∀ tokens jti, (Response.tokens <$> f (.ok (tokens, jti))).Steps (fun _ _ => True) (YieldsCreated s) ∧
      ∀ id, Yields s id (Response.tokens <$> f (.ok (tokens, jti))) → Names s tokens.refreshToken id) :
    Careful s (Response.tokens <$> (s.mint here user md >>= f)) := by
  unfold Service.mint
  dsimp only
  cases hissue : s.jwt.issue here.now user.id here.uuid with
  | error _ => exact herr _
  | ok pair =>
    refine ⟨fun r _ => ⟨fun t ht id hy => ?_, ?_⟩, fun id hy => hy.1 _ rfl⟩
    · obtain ⟨err | ⟨⟩, here'⟩ := r
      · exact absurd hy ((herr _).barren id)
      · obtain rfl := Cmd.create.inj ht
        exact ⟨((hok _ _).2 id hy).unique (refresh_names hlib hissue), rfl⟩
    · obtain ⟨err | ⟨⟩, here'⟩ := r
      · exact (herr _).steps
      · exact (hok _ _).1

section Handlers
variable (hlib : JwtLaws s.jwt.lib)
include hlib

theorem issueTokens_careful (here : Here) (user : User) (md : Metadata) :
    Careful s (Response.tokens <$> s.issueTokens here user md) :=
  mint_careful hlib here user md (fun e => careful_err e) fun _ _ => ⟨trivial, fun _ hy => hy⟩

theorem linkAndIssue_careful (p : Provider) (providerUserID : String) (user : User) (md : Metadata) :
    Careful s (Response.tokens <$> s.linkAndIssue p providerUserID user md) := by
  refine Careful.call (fun t ht => by cases ht) ?_
  rintro ⟨_ | _, here⟩
  · exact careful_err _
  · exact issueTokens_careful hlib here user md

theorem register_careful (here : Here) (email password displayName : String) (md : Metadata) :
    Careful s (Response.tokens <$> s.register here email password displayName md) := by
  unfold Service.register
  dsimp only
  split_ifs
  · exact careful_err _
  · exact careful_err _
  · split
    · exact careful_err _
    · refine Careful.call (fun t ht => by cases ht) ?_
      rintro ⟨err | user, here'⟩
      · cases err <;> exact careful_err _
      · exact issueTokens_careful hlib here' user md

theorem login_careful (email password : String) (md : Metadata) :
    Careful s (Response.tokens <$> s.login email password md) := by
  refine Careful.call (fun t ht => by cases ht) ?_
  rintro ⟨err | user, here⟩
  · cases err <;> exact careful_err _
  · dsimp only [Prog.bind]
    split_ifs
    · exact careful_err _
    · exact careful_err _
    · split
      · exact issueTokens_careful hlib here user md
      · exact careful_err _

theorem exchange_careful (stored : RefreshToken) (md : Metadata) :
    Careful s (Response.tokens <$> s.exchange stored md) := by
  refine Careful.call (fun t ht => by cases ht) ?_
  rintro ⟨_ | user, here⟩
  · exact careful_err _
  · refine mint_careful hlib here user md (fun e => careful_err e) fun tokens jti =>
      ⟨fun r _ => ⟨fun t ht => (by cases ht), ?_⟩, ?_⟩
    · obtain ⟨_ | _, here'⟩ := r <;> trivial
    · rintro id ⟨-, ⟨_ | _, here'⟩, hy⟩
      · exact hy.elim
      · exact hy

theorem refresh_careful (here : Here) (refreshToken : String) (md : Metadata) :
    Careful s (Response.tokens <$> s.refresh here refreshToken md) := by
  unfold Service.refresh
  split
  · exact careful_err _
  · refine Careful.call (fun t ht => by cases ht) ?_
    rintro ⟨_ | stored, here'⟩
    · exact careful_err _
    · dsimp only [Prog.bind, Service.checkStored]
      split_ifs
      · exact Careful.call (fun t ht => by cases ht) fun _ => careful_err _
      · exact careful_err _
      · exact exchange_careful hlib stored md

omit hlib in
theorem logout_careful (here : Here) (refreshToken : String) :
    Careful s (Response.done <$> s.logout here refreshToken) := by
  unfold Service.logout
  split
  · exact careful_done _
  · refine Careful.call (fun t ht => by cases ht) ?_
    rintro ⟨err | _, here'⟩
    · cases err <;> exact careful_done _
    · exact careful_done _

theorem upsertOAuthUser_careful (p : Provider) (providerUserID email displayName : String) (md : Metadata) :
    Careful s (Response.tokens <$> s.upsertOAuthUser p providerUserID email displayName md) := by
  refine Careful.call (fun t ht => by cases ht) ?_
  rintro ⟨err | user, here⟩
  · cases err with
    | userNotFound =>
      refine Careful.call (fun t ht => by cases ht) ?_
      rintro ⟨err | user, here'⟩
      · cases err with
        | userNotFound =>
          refine Careful.call (fun t ht => by cases ht) ?_
          rintro ⟨_ | user, here''⟩
          · exact careful_err _
          · exact linkAndIssue_careful hlib p providerUserID user md
        | _ => exact careful_err _
      · exact linkAndIssue_careful hlib p providerUserID user md
    | _ => exact careful_err _
  · exact issueTokens_careful hlib here user md

theorem start_careful (q : Request) (here : Here) : Careful s (q.start s here) := by
  cases q with
  | register email password displayName md => exact register_careful hlib here email password displayName md
  | login email password md => exact login_careful hlib email password md
  | refresh refreshToken md => exact refresh_careful hlib here refreshToken md
  | logout refreshToken => exact logout_careful here refreshToken
  | upsertOAuthUser p providerUserID email displayName md =>
    exact upsertOAuthUser_careful hlib p providerUserID email displayName md

end Handlers

end Careful

/-- A request that may answer with a pair has stored its row, which was not in `db`, and no two store one row. -/
structure MintInv (s : Service) (db : AuthDb) (w : World) : Prop where
  steps : w.All fun _ p => p.Steps (fun _ _ => True) (YieldsCreated s)
  stored : ∀ (i : ℕ) q p id, w.threads[i]? = some ⟨q, p⟩ → Yields s id p → ∃ row ∈ w.store.refreshTokens, row.id = id
  apart : ∀ (i j : ℕ) q p q' p' id, w.threads[i]? = some ⟨q, p⟩ → w.threads[j]? = some ⟨q', p'⟩ →
    Yields s id p → Yields s id p' → i = j
  grown : TokenLE db w.store
  new : ∀ (i : ℕ) q p id, w.threads[i]? = some ⟨q, p⟩ → Yields s id p → ∀ row ∈ db.refreshTokens, row.id ≠ id

section Mint
variable {s : Service} {db : AuthDb} {w : World}

theorem mintInv_step (hlib : JwtLaws s.jwt.lib) (h : MintInv s db w) (l : Step) :
    MintInv s db ((system s).step w l) := by
  have hsteps : ((system s).step w l).All fun _ p => p.Steps (fun _ _ => True) (YieldsCreated s) :=
    h.steps.step (fun q e _ => (start_careful hlib q e.here).steps) fun j e q c k _ hj _ => (h.steps j q _ hj).next trivial
  have hkeeps {id : String} (hid : ∃ row ∈ w.store.refreshTokens, row.id = id) :
      ∃ row ∈ ((system s).step w l).store.refreshTokens, row.id = id := by
    obtain ⟨row, hrow, rfl⟩ := hid
    obtain ⟨row', hrow', hid', -⟩ := step_tokenLE s w l row hrow
    exact ⟨row', hrow', hid'⟩
  -- whoever may answer with a pair could before, or has just stored its row
  have hyields {i : ℕ} {q : Request} {p : Handler Response} {id : String}
      (hi : ((system s).step w l).threads[i]? = some ⟨q, p⟩) (hy : Yields s id p) :
      (∃ q' p', w.threads[i]? = some ⟨q', p'⟩ ∧ Yields s id p') ∨
        (∀ row ∈ w.store.refreshTokens, row.id ≠ id) ∧
          (∃ row ∈ ((system s).step w l).store.refreshTokens, row.id = id) ∧ ∃ e, l = .advance i e := by
    rcases (system s).thread_cases hi with hold | ⟨req, e, rfl, -, ht⟩ | ⟨e, req, c, k, rfl, hcall, ht⟩
    · exact .inl ⟨q, p, hold, hy⟩
    · cases ht
      exact absurd hy ((start_careful hlib _ e.here).barren id)
    · cases ht
      by_cases hc : ∃ t, c = .create t
      · obtain ⟨t, rfl⟩ := hc
        obtain ⟨rfl, hok⟩ := (h.steps i _ _ hcall).trans trivial t rfl id hy
        refine .inr ⟨create_fresh hok, ?_, e, rfl⟩
        rw [(system s).step_advance hcall]
        cases hr : (exec s.citext e (.create t) w.store).1.1 with
        | error err =>
          have hok' : (exec s.citext e (.create t) w.store).1.1.isOk = true := hok
          rw [hr] at hok'
          cases hok'
        | ok r =>
          have habout : (exec s.citext e (.create t) w.store).2.refreshTokens = w.store.refreshTokens ++ [t] :=
            exec_about hr
          refine ⟨t, ?_, rfl⟩
          show t ∈ (exec s.citext e (.create t) w.store).2.refreshTokens
          rw [habout]
          exact List.mem_append_right _ (List.mem_singleton_self _)
      · exact .inl ⟨_, _, hcall, fun t ht => hc ⟨t, ht⟩, _, hy⟩
  refine ⟨hsteps, fun i q p id hi hy => ?_, fun i j q p q' p' id hi hj hy hy' => ?_,
    h.grown.trans (step_tokenLE s w l), fun i q p id hi hy row hrow => ?_⟩
  · rcases hyields hi hy with ⟨q', p', hold, hy'⟩ | ⟨-, hrow, -⟩
    · exact hkeeps (h.stored i q' p' id hold hy')
    · exact hrow
  · rcases hyields hi hy with ⟨q₁, p₁, hold, hold'⟩ | ⟨hnew, -, e, rfl⟩ <;>
      rcases hyields hj hy' with ⟨q₂, p₂, hnow, hnow'⟩ | ⟨hnew', -, e', hl⟩
    · exact h.apart i j q₁ p₁ q₂ p₂ id hold hnow hold' hnow'
    · obtain ⟨row, hrow, hid⟩ := h.stored i q₁ p₁ id hold hold'
      exact absurd hid (hnew' row hrow)
    · obtain ⟨row, hrow, hid⟩ := h.stored j q₂ p₂ id hnow hnow'
      exact absurd hid (hnew row hrow)
    · cases hl
      rfl
  · rcases hyields hi hy with ⟨q', p', hold, hy'⟩ | ⟨hfresh, -, -⟩
    · exact h.new i q' p' id hold hy' row hrow
    · obtain ⟨row', hrow', hid, -⟩ := h.grown row hrow
      exact hid ▸ hfresh row' hrow'

theorem mintInv_run (hlib : JwtLaws s.jwt.lib) (db : AuthDb) (l : List Step) : MintInv s db ((system s).run db l) :=
  Run.invariant (I := MintInv s db) (fun _ l h => mintInv_step hlib h l)
    ⟨Pool.All.nil db, fun i q p id hi => (by cases hi), fun i j q p q' p' id hi => (by cases hi), TokenLE.refl db,
      fun i q p id hi => (by cases hi)⟩ l

end Mint

/-! ### The turns of a request -/

/-- The refresh token a request comes with. -/
def Request.token : Request → Option String
  | .refresh refreshToken _ => some refreshToken
  | .logout refreshToken => some refreshToken
  | _ => none

/-- The request comes with a token that names the row. -/
def Presents (s : Service) (id : String) (q : Request) : Prop := ∃ token, q.token = some token ∧ Names s token id

/-- The handler is about to revoke all tokens of the user. -/
def Alarmed (userID : String) (p : Handler Response) : Prop := p.pending = some (.revokeAllForUser userID)

/-- The handler has not looked up the row of its token yet. -/
def Looking (p : Handler Response) : Prop := ∃ id, p.pending = some (.getByID id)

/-- The call has read a revoked token of the user. -/
def FindsRevoked (userID : String) : (c : Cmd) → Reply c → Prop
  | .getByID _, r => ∃ t, r.1 = .ok t ∧ t.revokedAt.isSome ∧ t.userID = userID
  | _, _ => False

/-- The transitions of the request `q`. -/
structure Turn (s : Service) (q : Request) (c : Cmd) (r : Reply c) (p : Handler Response) : Prop where
  past : ¬ Looking p
  alarm : ∀ userID, Alarmed userID p → FindsRevoked userID c r
  presents : ∀ id, (c = .getByID id ∨ ∃ new, c = .revoke id new) → Presents s id q

section Turns
variable {s : Service}

theorem SignsIn.pending {α : Type} {p : Handler α} (h : SignsIn p) {c : Cmd} (hc : p.pending = some c) : c.signsIn := by
  cases p with
  | ret a => cases hc
  | call c' k =>
    obtain rfl := Option.some.inj hc
    exact h.1

theorem SignsIn.turns {q : Request} {p : Handler Response} (h : SignsIn p) :
    p.Steps NamesRow (Turn s q) ∧ ∀ userID, ¬ Alarmed userID p := by
  refine ⟨?_, fun userID hp => SignsIn.pending h hp⟩
  induction p with
  | ret a => trivial
  | call c k ih =>
    refine fun r _ => ⟨⟨?_, fun userID hp => (SignsIn.pending (h.2 r) hp).elim, ?_⟩, ih r (h.2 r)⟩
    · rintro ⟨id, hp⟩
      exact SignsIn.pending (h.2 r) hp
    · rintro id (rfl | ⟨new, rfl⟩)
      · exact h.1.elim
      · exact h.1.elim

/-- A refresh looks up its row first, and raises the alarm right after it. -/
theorem RefreshStep.turn {tok id : String} {md : Metadata} (hnames : Names s tok id) {c : Cmd} {r : Reply c}
    {p : Handler Response} (h : RefreshStep id c r p) : Turn s (.refresh tok md) c r p := by
  refine ⟨?_, fun userID hp => ?_, ?_⟩
  · rintro ⟨id', hp⟩
    rcases h.pending_cases hp with ⟨-, ⟨u, hc⟩ | ⟨u, hc⟩⟩ | ⟨u, -, t, hc, -⟩ | ⟨t, -, new, hc⟩ <;> cases hc
  · rcases h.pending_cases hp with ⟨rfl, -⟩ | ⟨u, -, t, hc, -⟩ | ⟨t, -, new, hc⟩
    · obtain ⟨-, href | ⟨stored, hok, hrev, hpend⟩ | ⟨stored, -, -, hpend⟩⟩ := h
      · exact absurd hp href.not_pending
      · exact ⟨stored, hok, hrev, Cmd.revokeAllForUser.inj (Option.some.inj (hpend.symm.trans hp))⟩
      · cases hpend.symm.trans hp
    · cases hc
    · cases hc
  · rintro id' (rfl | ⟨new, rfl⟩)
    · obtain ⟨rfl, -⟩ := h
      exact ⟨tok, rfl, hnames⟩
    · obtain ⟨rfl, -⟩ := h
      exact ⟨tok, rfl, hnames⟩

theorem refresh_turns (here : Here) (tok : String) (md : Metadata) :
    (Response.tokens <$> s.refresh here tok md).Steps NamesRow (Turn s (.refresh tok md)) ∧
      ∀ userID, ¬ Alarmed userID (Response.tokens <$> s.refresh here tok md) := by
  cases hv : s.jwt.verifyRefresh here.now tok with
  | error e =>
    unfold Service.refresh
    rw [hv]
    exact ⟨trivial, fun userID hp => by cases hp⟩
  | ok claims =>
    have hpay : s.jwt.lib.payload tok = some claims := Manager.payload_of_verifyRefresh hv
    refine ⟨(refresh_steps s here tok md hpay).mono (fun _ _ h => h) fun c r q h => h.turn ⟨claims, hpay, rfl⟩, ?_⟩
    unfold Service.refresh
    rw [hv]
    exact fun userID hp => by cases hp

theorem logout_turns (here : Here) (tok : String) :
    (Response.done <$> s.logout here tok).Steps NamesRow (Turn s (.logout tok)) ∧
      ∀ userID, ¬ Alarmed userID (Response.done <$> s.logout here tok) := by
  unfold Service.logout
  cases hv : s.jwt.verifyRefresh here.now tok with
  | error e => exact ⟨trivial, fun userID hp => by cases hp⟩
  | ok claims =>
    refine ⟨?_, fun userID hp => by cases hp⟩
    have hreturned (result : Except AppError Unit) (r : Reply (.revoke claims.id none)) :
        Turn s (.logout tok) (.revoke claims.id none) r (.ret (.done result)) := by
      refine ⟨fun ⟨id, hp⟩ => (by cases hp), fun userID hp => (by cases hp), ?_⟩
      rintro id (hc | ⟨new, hc⟩)
      · cases hc
      · cases hc
        exact ⟨tok, rfl, claims, Manager.payload_of_verifyRefresh hv, rfl⟩
    rintro ⟨err | ⟨⟩, here'⟩ -
    · cases err <;> exact ⟨hreturned _ _, trivial⟩
    · exact ⟨hreturned _ _, trivial⟩

theorem start_turns (q : Request) (here : Here) :
    (q.start s here).Steps NamesRow (Turn s q) ∧ ∀ userID, ¬ Alarmed userID (q.start s here) := by
  cases q with
  | register email password displayName md =>
    exact SignsIn.turns ((register_signsIn s here email password displayName md).map _)
  | login email password md => exact SignsIn.turns ((login_signsIn s email password md).map _)
  | refresh refreshToken md => exact refresh_turns here refreshToken md
  | logout refreshToken => exact logout_turns here refreshToken
  | upsertOAuthUser p providerUserID email displayName md =>
    exact SignsIn.turns ((upsertOAuthUser_signsIn s p providerUserID email displayName md).map _)

end Turns

/-- A row is revoked by the call that names it, or that revokes all rows of its user. -/
theorem revoked_cases {citext : Citext} {e : Env} {c : Cmd} {db : AuthDb} (hc : Fits db c) {t : RefreshToken}
    (ht : t ∈ (exec citext e c db).2.refreshTokens) (hrev : t.revokedAt.isSome) :
    (∃ t' ∈ db.refreshTokens, t'.id = t.id ∧ t'.userID = t.userID ∧ t'.revokedAt.isSome) ∨
      (∃ new, c = .revoke t.id new) ∨ c = .revokeAllForUser t.userID := by
  rcases exec_db citext e c db with h | h
  · rw [h] at ht
    exact .inl ⟨t, ht, rfl, rfl, hrev⟩
  · generalize (exec citext e c db).2 = db' at h ht
    cases h with
    | createUser | link => exact .inl ⟨t, ht, rfl, rfl, hrev⟩
    | create t' =>
      rcases List.mem_append.1 ht with ht | ht
      · exact .inl ⟨t, ht, rfl, rfl, hrev⟩
      · rw [List.mem_singleton.1 ht, hc.1] at hrev
        cases hrev
    | revoke jti new =>
      obtain ⟨t', ht', rfl⟩ := List.mem_map.1 ht
      rw [revokeRow_id, revokeRow_userID]
      unfold RefreshRepo.revokeRow at hrev
      split_ifs at hrev with hrow
      · exact .inr (.inl ⟨new, by rw [hrow.1]⟩)
      · exact .inl ⟨t', ht', rfl, rfl, hrev⟩
    | revokeAll userID =>
      obtain ⟨t', ht', rfl⟩ := List.mem_map.1 ht
      rw [revokeUserRow_id, revokeUserRow_userID]
      unfold RefreshRepo.revokeUserRow at hrev
      split_ifs at hrev with hrow
      · exact .inr (.inr (by rw [hrow.1]))
      · exact .inl ⟨t', ht', rfl, rfl, hrev⟩

/-! ### Runs -/

/-- Two requests have come with one token of the user. -/
def Repeated (s : Service) (userID : String) (w : World) : Prop :=
  ∃ (i j : ℕ) (q : Request) (p : Handler Response) (q' : Request) (p' : Handler Response),
    ∃ t ∈ w.store.refreshTokens, i ≠ j ∧ t.userID = userID ∧ w.threads[i]? = some ⟨q, p⟩ ∧
    w.threads[j]? = some ⟨q', p'⟩ ∧ Presents s t.id q ∧ Presents s t.id q'

/-- A request has come with a token of the user that was revoked in `db`. -/
def Stale (s : Service) (db : AuthDb) (userID : String) (w : World) : Prop :=
  ∃ (i : ℕ) (q : Request) (p : Handler Response), ∃ t ∈ db.refreshTokens, t.userID = userID ∧ t.revokedAt.isSome ∧
    w.threads[i]? = some ⟨q, p⟩ ∧ Presents s t.id q

/-- No request is about to revoke all tokens of the user, and a revoked one has been presented, or was revoked in
`db`. -/
structure Calm (s : Service) (db : AuthDb) (userID : String) (w : World) : Prop where
  holds : (contract s).Holds w
  turns : w.All fun q p => p.Steps NamesRow (Turn s q)
  silent : w.All fun _ p => ¬ Alarmed userID p
  spent : ∀ t ∈ w.store.refreshTokens, t.userID = userID → t.revokedAt.isSome →
    (∃ t' ∈ db.refreshTokens, t'.id = t.id ∧ t'.userID = userID ∧ t'.revokedAt.isSome) ∨
      ∃ (i : ℕ) (q : Request) (p : Handler Response), w.threads[i]? = some ⟨q, p⟩ ∧ Presents s t.id q ∧ ¬ Looking p

section Run
variable {s : Service} {db : AuthDb} {userID : String} {w : World}

/-- A request stays in the pool. -/
theorem thread_stays {i : ℕ} {q : Request} {p : Handler Response} (l : Step) (hi : w.threads[i]? = some ⟨q, p⟩) :
    ∃ p', ((system s).step w l).threads[i]? = some ⟨q, p'⟩ := by
  rcases (system s).thread_next l hi with h | ⟨e, c, k, -, -, h⟩
  · exact ⟨p, h⟩
  · exact ⟨_, h⟩

theorem Repeated.step (h : Repeated s userID w) (l : Step) : Repeated s userID ((system s).step w l) := by
  obtain ⟨i, j, q, p, q', p', t, ht, hij, huser, hi, hj, hq, hq'⟩ := h
  obtain ⟨t', ht', hid, huser', -⟩ := step_tokenLE s w l t ht
  obtain ⟨p₁, hi⟩ := thread_stays l hi
  obtain ⟨p₂, hj⟩ := thread_stays l hj
  exact ⟨i, j, q, p₁, q', p₂, t', ht', hij, huser'.trans huser, hi, hj, hid ▸ hq, hid ▸ hq'⟩

theorem Stale.step (h : Stale s db userID w) (l : Step) : Stale s db userID ((system s).step w l) := by
  obtain ⟨i, q, p, t, ht, huser, hrev, hi, hq⟩ := h
  obtain ⟨p', hi⟩ := thread_stays l hi
  exact ⟨i, q, p', t, ht, huser, hrev, hi, hq⟩

/-- Whoever has presented the token has so afterwards. -/
theorem Calm.presented (h : Calm s db userID w) {i : ℕ} {q : Request} {p : Handler Response}
    (hi : w.threads[i]? = some ⟨q, p⟩) (hp : ¬ Looking p) (l : Step) :
    ∃ p', ((system s).step w l).threads[i]? = some ⟨q, p'⟩ ∧ ¬ Looking p' := by
  rcases (system s).thread_next l hi with hi' | ⟨e, c, k, -, rfl, hi'⟩
  · exact ⟨p, hi', hp⟩
  · exact ⟨_, hi', ((h.turns i q _ hi).trans (exec_namesRow s.citext e c w.store)).past⟩

/-- A request finds a revoked token of the user only if one was presented twice, or was revoked from the start. -/
theorem Calm.excused (h : Calm s db userID w) {i : ℕ} {q : Request} {c : Cmd} {k : Reply c → Handler Response}
    (hi : w.threads[i]? = some ⟨q, .call c k⟩) {e : Env}
    (hfinds : FindsRevoked userID c (exec s.citext e c w.store).1)
    (hpresents : ∀ id, c = .getByID id → Presents s id q) : Repeated s userID w ∨ Stale s db userID w := by
  cases c with
  | getByID id =>
    obtain ⟨t, hok, hrev, huser⟩ := hfinds
    obtain ⟨ht, hrow⟩ := getByID_ok hok
    have hq : Presents s t.id q := hrow.symm ▸ hpresents id rfl
    rcases h.spent t ht huser hrev with ⟨t', ht', hid, huser', hrev'⟩ | ⟨j, q', p', hj, hq', hpast⟩
    · exact .inr ⟨i, q, _, t', ht', huser', hrev', hi, hid ▸ hq⟩
    · refine .inl ⟨i, j, q, _, q', p', t, ht, fun hij => ?_, huser, hi, hj, hq, hq'⟩
      rw [← hij, hi] at hj
      obtain ⟨rfl, rfl⟩ := Thread.mk.inj (Option.some.inj hj)
      exact hpast ⟨id, rfl⟩
  | _ => exact hfinds.elim

theorem calm_step (h : Calm s db userID w) (l : Step) :
    Repeated s userID w ∨ Stale s db userID w ∨ Calm s db userID ((system s).step w l) := by
  have hholds := (h.holds.step (fun q e db' _ => start_keeps s q e db') l).1
  have hturns : ((system s).step w l).All fun q p => p.Steps NamesRow (Turn s q) :=
    h.turns.step (fun q e _ => (start_turns q e.here).1) fun i e q c k _ hi hcall =>
      hcall.next (exec_namesRow s.citext e c w.store)
  -- the step adds a request, makes a call, or changes the users only
  rcases (system s).step_cases w l with hs | ⟨q, e, rfl, hs⟩ | ⟨i, e, q, c, k, rfl, hi, hs⟩ | ⟨⟨u⟩, rfl, hs⟩
  · rw [hs]
    exact .inr (.inr h)
  · refine .inr (.inr ⟨hholds, hturns, ?_, fun t ht huser hrev => ?_⟩)
    · exact h.silent.step (fun q e _ => (start_turns q e.here).2 userID) fun i e q c k hl _ _ => by cases hl
    · refine (h.spent t ht huser hrev).imp_right fun ⟨j, q', p', hj, hq, hpast⟩ => ?_
      obtain ⟨p'', hj', hpast'⟩ := h.presented hj hpast (.spawn q e)
      exact ⟨j, q', p'', hj', hq, hpast'⟩
  · have hturn := (h.turns i q _ hi).trans (exec_namesRow s.citext e c w.store)
    by_cases halarm : Alarmed userID (k (exec s.citext e c w.store).1)
    · have hcause := h.excused hi (hturn.alarm userID halarm) fun id hc => hturn.presents id (.inl hc)
      exact hcause.imp_right .inl
    · refine .inr (.inr ⟨hholds, hturns, ?_, fun t ht huser hrev => ?_⟩)
      · rw [hs]
        exact h.silent.set halarm
      · rw [hs] at ht
        rcases revoked_cases (h.holds.keeps i q _ hi).1 ht hrev with ⟨t', ht', hid, huser', hrev'⟩ | ⟨new, hc⟩ | hc
        · rcases h.spent t' ht' (huser'.trans huser) hrev' with ⟨t₀, ht₀, hid₀, hrest⟩ | ⟨j, q', p', hj, hq, hpast⟩
          · exact .inl ⟨t₀, ht₀, hid₀.trans hid, hrest⟩
          · obtain ⟨p'', hj', hpast'⟩ := h.presented hj hpast (.advance i e)
            exact .inr ⟨j, q', p'', hj', hid ▸ hq, hpast'⟩
        · refine .inr ⟨i, q, _, ?_, hturn.presents t.id (.inr ⟨new, hc⟩), hturn.past⟩
          rw [hs]
          exact List.getElem?_set_self (List.getElem?_eq_some_iff.1 hi).1
        · subst huser
          exact absurd (congrArg some hc) (h.silent i q _ hi)
  · refine .inr (.inr ⟨hholds, hturns, ?_, fun t ht huser hrev => ?_⟩)
    · rw [hs]
      exact h.silent
    · rw [hs] at ht ⊢
      exact h.spent t ht huser hrev

variable (s) in
theorem calm_run (hdb : Accounts s.citext db) (userID : String) (l : List Step) :
    Repeated s userID ((system s).run db l) ∨ Stale s db userID ((system s).run db l) ∨
      Calm s db userID ((system s).run db l) := by
  refine Run.invariant (I := fun w => Repeated s userID w ∨ Stale s db userID w ∨ Calm s db userID w) ?_ ?_ l
  · rintro w l (h | h | h)
    · exact .inl (h.step l)
    · exact .inr (.inl (h.step l))
    · rcases calm_step h l with hrep | hstale | hcalm
      · exact .inl (hrep.step l)
      · exact .inr (.inl (hstale.step l))
      · exact .inr (.inr hcalm)
  · refine .inr (.inr ⟨⟨hdb, Pool.All.nil db⟩, Pool.All.nil db, Pool.All.nil db, fun t ht huser hrev => ?_⟩)
    exact .inl ⟨t, ht, rfl, huser, hrev⟩

/-- **In every run, a request is about to revoke all tokens of a user only if two requests have come with one token
of this user, or one with a token of the user that was revoked from the start; and the refresh tokens of different
answers name different rows.** -/
theorem alarms_have_cause (hlib : JwtLaws s.jwt.lib) (hdb : Accounts s.citext db) (l : List Step) :
    (∀ (i : ℕ) q p userID, ((system s).run db l).threads[i]? = some ⟨q, p⟩ → Alarmed userID p →
      Repeated s userID ((system s).run db l) ∨ Stale s db userID ((system s).run db l)) ∧
    ∀ (i j : ℕ) q q' tokens tokens' id,
      ((system s).run db l).threads[i]? = some ⟨q, .ret (.tokens (.ok tokens))⟩ →
      ((system s).run db l).threads[j]? = some ⟨q', .ret (.tokens (.ok tokens'))⟩ →
      Names s tokens.refreshToken id → Names s tokens'.refreshToken id → i = j := by
  refine ⟨fun i q p userID hi hp => ?_, fun i j q q' tokens tokens' id hi hj hid hid' => ?_⟩
  · rcases calm_run s hdb userID l with hrep | hstale | hcalm
    · exact .inl hrep
    · exact .inr hstale
    · exact absurd hp (hcalm.silent i q p hi)
  · exact (mintInv_run hlib db l).apart i j q _ q' _ id hi hj hid hid'

end Run

/-! ### Clients that present a token once -/

/-- The request has answered with the pair. -/
def Answered (w : World) (i : ℕ) (tokens : Tokens) : Prop :=
  ∃ q, w.threads[i]? = some ⟨q, .ret (.tokens (.ok tokens))⟩

/-- Tokens handed out before: they name different rows, and none is revoked. -/
structure Outstanding (s : Service) (db : AuthDb) (old : String → Prop) : Prop where
  row : ∀ token, old token → ∃ t ∈ db.refreshTokens, Names s token t.id ∧ t.revokedAt = none
  apart : ∀ token token' id, old token → old token' → Names s token id → Names s token' id → token = token'

/-- A token a client may have: it was handed out before, or in an answer. -/
def HandedOut (old : String → Prop) (w : World) (token : String) : Prop :=
  old token ∨ ∃ i tokens, Answered w i tokens ∧ tokens.refreshToken = token

/-- The request came with the token. -/
def CameWith (w : World) (i : ℕ) (token : String) : Prop := ∃ t, w.threads[i]? = some t ∧ t.req.token = some token

/-- Requests come with tokens that were handed out, and no two with one. -/
structure Honest (old : String → Prop) (w : World) : Prop where
  handedOut : ∀ i token, CameWith w i token → HandedOut old w token
  once : ∀ i j token, CameWith w i token → CameWith w j token → i = j

section Honest
variable {s : Service} {db : AuthDb} {old : String → Prop} {l : List Step} {userID : String}

/-- A pair in an answer names a row that is in the table. -/
theorem Answered.names (hlib : JwtLaws s.jwt.lib) (hdb : Accounts s.citext db) {i : ℕ} {tokens : Tokens}
    (h : Answered ((system s).run db l) i tokens) :
    ∃ t ∈ ((system s).run db l).store.refreshTokens, Names s tokens.refreshToken t.id ∧ t.userID = tokens.user.id := by
  obtain ⟨q, hi⟩ := h
  have hholds : (contract s).Holds ((system s).run db l) := Contract.run (fun q e db _ => start_keeps s q e db) hdb l
  obtain ⟨-, t, ⟨row, hrow, heq⟩, huser, -, hissue⟩ : Backed s ((system s).run db l).store tokens :=
    hholds.returned hi tokens rfl
  have hid : row.asIssued.id = t.asIssued.id := congrArg RefreshToken.id heq
  have hu : row.asIssued.userID = t.asIssued.userID := congrArg RefreshToken.userID heq
  refine ⟨row, hrow, ?_, Eq.trans hu huser⟩
  rw [show row.id = t.id from hid]
  exact refresh_names hlib hissue

theorem Answered.unique (hlib : JwtLaws s.jwt.lib) {i j : ℕ} {tokens tokens' : Tokens} {id : String}
    (h : Answered ((system s).run db l) i tokens) (h' : Answered ((system s).run db l) j tokens')
    (hid : Names s tokens.refreshToken id) (hid' : Names s tokens'.refreshToken id) : i = j ∧ tokens = tokens' := by
  obtain ⟨q, hi⟩ := h
  obtain ⟨q', hj⟩ := h'
  obtain rfl := (mintInv_run hlib db l).apart i j q _ q' _ id hi hj hid hid'
  cases hi.symm.trans hj
  exact ⟨rfl, rfl⟩

/-- A row of `db` is not named by a pair in an answer. -/
theorem Answered.new (hlib : JwtLaws s.jwt.lib) {i : ℕ} {tokens : Tokens} {id : String}
    (h : Answered ((system s).run db l) i tokens) (hid : Names s tokens.refreshToken id) :
    ∀ t ∈ db.refreshTokens, t.id ≠ id := by
  obtain ⟨q, hi⟩ := h
  exact (mintInv_run hlib db l).new i q _ id hi hid

/-- Different answers have different refresh tokens, which nobody had before. -/
theorem Answered.refreshToken_inj (hlib : JwtLaws s.jwt.lib) (hdb : Accounts s.citext db) {i j : ℕ}
    {tokens tokens' : Tokens} (h : Answered ((system s).run db l) i tokens)
    (h' : Answered ((system s).run db l) j tokens') (heq : tokens.refreshToken = tokens'.refreshToken) : i = j := by
  obtain ⟨t, -, hid, -⟩ := h.names hlib hdb
  exact (h.unique hlib h' hid (heq ▸ hid)).1

theorem Answered.not_old (hlib : JwtLaws s.jwt.lib) (hold : Outstanding s db old) {i : ℕ} {tokens : Tokens}
    (h : Answered ((system s).run db l) i tokens) : ¬ old tokens.refreshToken := by
  intro ho
  obtain ⟨t, ht, hid, -⟩ := hold.row _ ho
  exact h.new hlib hid t ht rfl

/-- Tokens that were handed out name different rows. -/
theorem HandedOut.apart (hlib : JwtLaws s.jwt.lib) (hold : Outstanding s db old) {token token' id : String}
    (h : HandedOut old ((system s).run db l) token) (h' : HandedOut old ((system s).run db l) token')
    (hid : Names s token id) (hid' : Names s token' id) : token = token' := by
  have hnot {token : String} (ho : old token) (hid : Names s token id) {i : ℕ} {tokens : Tokens}
      (ha : Answered ((system s).run db l) i tokens) (hid' : Names s tokens.refreshToken id) : False := by
    obtain ⟨t, ht, hnames, -⟩ := hold.row token ho
    exact ha.new hlib hid' t ht (hnames.unique hid)
  rcases h with ho | ⟨i, tokens, hi, rfl⟩ <;> rcases h' with ho' | ⟨j, tokens', hj, rfl⟩
  · exact hold.apart token token' id ho ho' hid hid'
  · exact (hnot ho hid hj hid').elim
  · exact (hnot ho' hid' hi hid).elim
  · rw [(hi.unique hlib hj hid hid').2]

theorem Honest.not_repeated (hlib : JwtLaws s.jwt.lib) (hold : Outstanding s db old)
    (h : Honest old ((system s).run db l)) : ¬ Repeated s userID ((system s).run db l) := by
  rintro ⟨i, j, q, p, q', p', t, -, hij, -, hi, hj, ⟨token, htoken, hid⟩, ⟨token', htoken', hid'⟩⟩
  have hcame : CameWith ((system s).run db l) i token := ⟨_, hi, htoken⟩
  have hcame' : CameWith ((system s).run db l) j token' := ⟨_, hj, htoken'⟩
  obtain rfl := (h.handedOut i token hcame).apart hlib hold (h.handedOut j token' hcame') hid hid'
  exact hij (h.once i j token hcame hcame')

theorem Honest.not_stale (hlib : JwtLaws s.jwt.lib) (hdb : Accounts s.citext db) (hold : Outstanding s db old)
    (h : Honest old ((system s).run db l)) : ¬ Stale s db userID ((system s).run db l) := by
  rintro ⟨i, q, p, t, ht, -, hrev, hi, token, htoken, hid⟩
  rcases h.handedOut i token ⟨_, hi, htoken⟩ with ho | ⟨j, tokens, hj, rfl⟩
  · obtain ⟨t', ht', hid', hlive⟩ := hold.row token ho
    rw [hdb.tokens.eq ht ht' (hid.unique hid'), hlive] at hrev
    cases hrev
  · exact hj.new hlib hid t ht rfl

theorem Honest.calm (hlib : JwtLaws s.jwt.lib) (hdb : Accounts s.citext db) (hold : Outstanding s db old)
    (h : Honest old ((system s).run db l)) : Calm s db userID ((system s).run db l) :=
  ((calm_run s hdb userID l).resolve_left (h.not_repeated hlib hold)).resolve_left (h.not_stale hlib hdb hold)

/-- A pair nobody has presented yet is good for a refresh. -/
theorem Honest.unrevoked (hlib : JwtLaws s.jwt.lib) (hdb : Accounts s.citext db) (hold : Outstanding s db old)
    (h : Honest old ((system s).run db l)) {i : ℕ} {tokens : Tokens} (hi : Answered ((system s).run db l) i tokens)
    (hunused : ∀ j, ¬ CameWith ((system s).run db l) j tokens.refreshToken) :
    ∃ t ∈ ((system s).run db l).store.refreshTokens, Names s tokens.refreshToken t.id ∧ t.userID = tokens.user.id ∧
      t.revokedAt = none := by
  obtain ⟨t, ht, hid, huser⟩ := hi.names hlib hdb
  refine ⟨t, ht, hid, huser, Option.not_isSome_iff_eq_none.1 fun hrev => ?_⟩
  have hcalm : Calm s db t.userID ((system s).run db l) := h.calm hlib hdb hold
  rcases hcalm.spent t ht rfl hrev with
    ⟨t', ht', hid', -⟩ | ⟨j, q, p, hj, ⟨token, htoken, hname⟩, -⟩
  · exact hi.new hlib hid t' ht' hid'
  · have hcame : CameWith ((system s).run db l) j token := ⟨_, hj, htoken⟩
    rw [(h.handedOut j token hcame).apart hlib hold (.inr ⟨i, tokens, hi, rfl⟩) hname hid] at hcame
    exact hunused j hcame

end Honest

/-- The sample user registers and logs out, and presents the token once more. -/
def presentedTwice : List Step :=
  registered ++ [.spawn (.logout refreshText) (goes ""), .advance 1 (goes ""),
    .spawn (.refresh refreshText ⟨"", ""⟩) (goes ""), .advance 2 (goes "")]

theorem presentedTwice_cause :
    (((system pairService).run emptyDb presentedTwice).threads[2]?.map fun t => t.prog.pending) =
      some (some (.revokeAllForUser "u1")) ∧
    (Repeated pairService "u1" ((system pairService).run emptyDb presentedTwice) ∨
      Stale pairService emptyDb "u1" ((system pairService).run emptyDb presentedTwice)) := by
  have halarm : (((system pairService).run emptyDb presentedTwice).threads[2]?.map fun t => t.prog.pending) =
      some (some (.revokeAllForUser "u1")) := by decide +kernel
  refine ⟨halarm, ?_⟩
  obtain ⟨⟨q, p⟩, hthread, hp⟩ := Option.map_eq_some_iff.1 halarm
  exact (alarms_have_cause pairLib_laws emptyDb_accounts presentedTwice).1 2 q p "u1" hthread hp

end DeskSync.Auth
