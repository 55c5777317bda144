import DeskSync.Auth.Refresh

/-!
# Rotation: a refresh token is exchanged once

`Refresh` reads the stored token, mints a successor, and only then revokes the token it read. `Revoke`
reports success also when the row was revoked by somebody else in the meantime, so two refreshes that
both read the token before either revokes it both return a new pair (`concurrent_refresh`).

The steps that go wrong are exactly the `Revoke` calls of a refresh that go through on a row revoked
before: in every run in which each of them finds the row unrevoked (`RevokeFindsActive`) each token
is exchanged at most once (`singleExchange_of_revokeFindsActive`). The invariant: an exchanged token's
row is revoked.
-/

namespace DeskSync.Auth

open Backend Proc

/-- Request `i` is a refresh that presented `tok` and returned a token pair. -/
def Exchanged (w : World) (i : ℕ) (tok : String) : Prop :=
  ∃ md q, w.threads[i]? = some ⟨.refresh tok md, q⟩ ∧ Success q

/-- Each refresh token has been exchanged by at most one request. -/
def SingleExchange (w : World) : Prop :=
  ∀ tok i j, Exchanged w i tok → Exchanged w j tok → i = j

/-- The step is no `Revoke` of a refresh that goes through on a row revoked before. -/
def revokeFindsActive (w : World) : Step → Bool
  | .advance i e =>
    match w.threads[i]? with
    | some ⟨.refresh _ _, .call (.revoke jti _) _⟩ =>
      e.fault != .none || w.store.refreshTokens.all fun row => row.id != jti || row.revokedAt.isNone
    | _ => true
  | _ => true

theorem revokeFindsActive_row {w : World} {i : ℕ} {e : Env} {tok : String} {md : Metadata} {jti : String}
    {new : Option String} {k : Reply (.revoke jti new) → Handler Response}
    (h : revokeFindsActive w (.advance i e) = true) (hf : e.fault = .none)
    (hi : w.threads[i]? = some ⟨.refresh tok md, .call (.revoke jti new) k⟩) :
    ∀ row ∈ w.store.refreshTokens, row.id = jti → row.revokedAt = none := by
  simp only [revokeFindsActive, hi, hf, bne_self_eq_false, Bool.false_or, List.all_eq_true,
    Bool.or_eq_true, bne_iff_ne, Option.isNone_iff_eq_none] at h
  exact fun row hrow hid => (h row hrow).resolve_left fun hne => hne hid

/-- The row is there and revoked. -/
def RowRevoked (db : AuthDb) (jti : String) : Prop :=
  ∃ row ∈ db.refreshTokens, row.id = jti ∧ row.revokedAt.isSome

theorem RowRevoked.mono {db db' : AuthDb} {jti : String} (h : RowRevoked db jti) (hle : TokenLE db db') :
    RowRevoked db' jti := by
  obtain ⟨row, hrow, hid, hrev⟩ := h
  obtain ⟨row', hrow', hid', -, hrev'⟩ := hle row hrow
  exact ⟨row', hrow', hid'.trans hid, hrev' hrev⟩

/-- The tokens grow along every step: calls never take a row back, and the environment leaves the
table alone. -/
theorem step_tokenLE (s : Service) (w : World) (l : Step) :
    TokenLE w.store ((system s).step w l).store := by
  rcases (system s).step_cases w l with hs | ⟨q, e, -, hs⟩ | ⟨i, e, q, c, k, -, -, hs⟩ | ⟨⟨u⟩, -, hs⟩ <;>
    rw [hs]
  · exact TokenLE.refl _
  · exact TokenLE.refl _
  · exact exec_tokenLE s.citext e c w.store
  · exact fun row h => ⟨row, h, rfl, rfl, id⟩

theorem step_tokensUnique (s : Service) {w : World} (h : TokensUnique w.store) (l : Step) :
    TokensUnique ((system s).step w l).store := by
  rcases (system s).step_cases w l with hs | ⟨q, e, -, hs⟩ | ⟨i, e, q, c, k, -, -, hs⟩ | ⟨⟨u⟩, -, hs⟩ <;>
    rw [hs]
  · exact h
  · exact h
  · exact exec_tokensUnique s.citext e c h
  · exact h

/-- A refresh becomes exchanged only by its own `Revoke` going through, on the row its token names. -/
theorem exchanged_step {s : Service} {w : World} {l : Step} (hloc : w.All (RefreshLocal s)) {i : ℕ}
    {tok : String} (h : Exchanged ((system s).step w l) i tok) :
    Exchanged w i tok ∨
      ∃ e md claims new k, l = .advance i e ∧ e.fault = .none ∧ s.jwt.lib.payload tok = some claims ∧
        w.threads[i]? = some ⟨.refresh tok md, .call (.revoke claims.id new) k⟩ ∧
        RowRevoked ((system s).step w l).store claims.id := by
  obtain ⟨md, q, hi, hq⟩ := h
  rcases (system s).thread_cases hi with hold | ⟨req, e, rfl, -, ht⟩ | ⟨e, req, c, k, rfl, hcall, ht⟩
  · exact .inl ⟨md, q, hold, hq⟩
  · exfalso
    cases ht
    rcases refresh_start s e.here tok md with href | ⟨claims, -, hpend⟩
    · exact href.not_success hq
    · exact not_success_of_pending hpend hq
  · right
    cases ht
    obtain ⟨claims, hpay, hstep, -⟩ := (hloc i _ _ hcall).next (exec_namesRow s.citext e c w.store)
    obtain ⟨new, rfl⟩ := hstep.success hq
    obtain ⟨-, ⟨href, -⟩ | ⟨hok, -⟩⟩ := hstep
    · exact absurd hq href.not_success
    · refine ⟨e, md, claims, new, k, rfl, (exec_ok hok).1, hpay, hcall, ?_⟩
      rw [(system s).step_advance hcall]
      exact revoke_ok hok

/-- The steps the guard leaves out: a refresh returns a pair for a token revoked before. -/
theorem exchanged_of_not_revokeFindsActive {s : Service} {w : World} {l : Step}
    (hloc : w.All (RefreshLocal s)) (hu : TokensUnique w.store) (h : revokeFindsActive w l = false) :
    ∃ i tok claims, s.jwt.lib.payload tok = some claims ∧ RowRevoked w.store claims.id ∧
      Exchanged ((system s).step w l) i tok := by
  unfold revokeFindsActive at h
  split at h
  · rename_i i e
    split at h
    · rename_i tok md jti new k hi
      simp only [Bool.or_eq_false_iff, bne_eq_false_iff_eq, List.all_eq_false, Bool.or_eq_true,
        bne_iff_ne, not_or, not_not] at h
      obtain ⟨hf, row, hrow, hid, hrev⟩ := h
      have hrev : row.revokedAt.isSome := by simpa [Option.isSome_iff_ne_none] using hrev
      have hok : (exec s.citext e (.revoke jti new) w.store).1.1 = .ok () :=
        revoke_revoked hu hf hrow hid hrev
      obtain ⟨claims, hpay, hstep, -⟩ := (hloc i _ _ hi).next (exec_namesRow s.citext e _ w.store)
      obtain ⟨rfl, ⟨-, hne⟩ | ⟨-, hsucc⟩⟩ := hstep
      · exact absurd hok hne
      · refine ⟨i, tok, claims, hpay, ⟨row, hrow, hid, hrev⟩, md, _, ?_, hsucc⟩
        rw [(system s).step_advance hi]
        exact List.getElem?_set_self (List.getElem?_eq_some_iff.1 hi).1
    · cases h
  · cases h

/-- The invariant: the row of an exchanged token is revoked, and it was exchanged once. -/
structure RotationInv (s : Service) (w : World) : Prop where
  loc : w.All (RefreshLocal s)
  revoked : ∀ i tok claims, Exchanged w i tok → s.jwt.lib.payload tok = some claims →
    RowRevoked w.store claims.id
  single : SingleExchange w

theorem rotationInv_step {s : Service} {w : World} {l : Step} (h : RotationInv s w)
    (hg : revokeFindsActive w l = true) : RotationInv s ((system s).step w l) := by
  have hfresh : ∀ {e md tok claims new k i j}, l = .advance i e → e.fault = .none →
      s.jwt.lib.payload tok = some claims →
      w.threads[i]? = some ⟨.refresh tok md, .call (.revoke claims.id new) k⟩ → ¬ Exchanged w j tok := by
    intro e md tok claims new k i j hl hf hpay hi hj
    obtain ⟨row, hrow, hid, hrev⟩ := h.revoked j tok claims hj hpay
    rw [revokeFindsActive_row (hl ▸ hg) hf hi row hrow hid] at hrev
    cases hrev
  refine ⟨refreshLocal_step h.loc l, ?_, ?_⟩
  · intro i tok claims hi hpay
    rcases exchanged_step h.loc hi with hold | ⟨e, md, claims', new, k, -, -, hpay', -, hrow⟩
    · exact (h.revoked i tok claims hold hpay).mono (step_tokenLE s w l)
    · obtain rfl : claims' = claims := Option.some.inj (hpay'.symm.trans hpay)
      exact hrow
  · intro tok i j hi hj
    rcases exchanged_step h.loc hi with hi | ⟨e, md, claims, new, k, hl, hf, hpay, hcall, -⟩ <;>
      rcases exchanged_step h.loc hj with hj | ⟨e', md', claims', new', k', hl', hf', hpay', hcall', -⟩
    · exact h.single tok i j hi hj
    · exact absurd hi (hfresh hl' hf' hpay' hcall')
    · exact absurd hj (hfresh hl hf hpay hcall)
    · rw [hl] at hl'
      cases hl'
      rfl

/-- In every run in which each `Revoke` of a refresh that goes through finds its row unrevoked, each
refresh token is exchanged at most once. -/
theorem singleExchange_of_revokeFindsActive (s : Service) (db : AuthDb) (l : List Step)
    (h : Run.Guarded (system s).step (fun w l => revokeFindsActive w l = true) ⟨db, []⟩ l) :
    SingleExchange ((system s).run db l) := by
  refine (h.invariant (I := RotationInv s) (fun w l hw hg => rotationInv_step hw hg) ?_).single
  refine ⟨Pool.All.nil db, ?_, ?_⟩
  · rintro i tok claims ⟨md, q, hi, -⟩ -
    cases hi
  · rintro tok i j ⟨md, q, hi, -⟩ -
    cases hi

/-! ### A sample service -/

/-- A stand-in for the JWT library: a refresh token spells out its JTI. -/
def sampleJwt : JwtLib where
  signedString _ claims := .ok (match claims.type with
    | .access => "access-" ++ claims.subject
    | .refresh => "refresh-" ++ claims.id)
  payload token :=
    if token.toList.take 8 = "refresh-".toList then
      some { issuer := "desksync", subject := "u1", id := String.ofList (token.toList.drop 8)
             issuedAt := 0, expiresAt := 1000, userID := "u1", type := .refresh }
    else none
  valid now _ _ _ := decide (now < 1000)

def sampleService : Service where
  jwt :=
    { lib := sampleJwt, accessSecret := "access-secret-16", refreshSecret := "refresh-secret-16"
      accessTTL := 100, refreshTTL := 1000, issuer := "desksync"
      accessSecret_len := by decide
      refreshSecret_len := by decide }
  refreshT := 1000
  hashPassword password salt := .ok (salt ++ password)
  verifyPassword password encoded := .ok (encoded == "salt" ++ password)
  hashToken token := "#" ++ token
  toLower := id
  citext := id

def emptyDb : AuthDb := ⟨[], [], []⟩

/-- A call that goes through; the handler's next JTI would be `uuid`. -/
def goes (uuid : String) : Env := ⟨.none, 0, "u1", ⟨0, uuid, "salt"⟩⟩

/-- Register an account: user `u1` with the refresh token `refresh-t1`. -/
def registered : List Step :=
  [.spawn (.register "a@b.cd" "correct horse" "A" ⟨"", ""⟩) (goes ""), .advance 0 (goes "t1"),
    .advance 0 (goes "")]

def refreshT1 : Step := .spawn (.refresh "refresh-t1" ⟨"", ""⟩) (goes "")

/-- Two refreshes of the same token that both look it up before either revokes it. -/
def concurrentRefresh : List Step :=
  registered ++ [refreshT1, refreshT1, .advance 1 (goes ""), .advance 2 (goes ""),
    .advance 1 (goes "t2"), .advance 1 (goes ""), .advance 1 (goes ""),
    .advance 2 (goes "t3"), .advance 2 (goes ""), .advance 2 (goes "")]

/-- Two refreshes of the same token, the second started after the first has returned. -/
def sequentialRefresh : List Step :=
  registered ++ [refreshT1, .advance 1 (goes ""), .advance 1 (goes "t2"), .advance 1 (goes ""),
    .advance 1 (goes ""), refreshT1, .advance 2 (goes ""), .advance 2 (goes "")]

set_option maxRecDepth 4000 in
/-- Both requests of `concurrentRefresh` return a new pair for `refresh-t1`. -/
theorem concurrent_refresh : ¬ SingleExchange ((system sampleService).run emptyDb concurrentRefresh) := by
  intro h
  have h12 : (1 : ℕ) = 2 := h "refresh-t1" 1 2 ⟨⟨"", ""⟩, _, rfl, _, rfl⟩ ⟨⟨"", ""⟩, _, rfl, _, rfl⟩
  exact absurd h12 (by decide)

set_option maxRecDepth 4000 in
theorem singleExchange_sequentialRefresh :
    SingleExchange ((system sampleService).run emptyDb sequentialRefresh) :=
  singleExchange_of_revokeFindsActive sampleService emptyDb sequentialRefresh (by decide)

end DeskSync.Auth
