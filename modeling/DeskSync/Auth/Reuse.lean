import DeskSync.Auth.Rotation

/-!
# Reuse detection and the tokens it leaves behind

A refresh that presents a revoked token revokes every token of the user and reports the reuse. What
it does not reach is a refresh that read its token before and stores the successor afterwards
(`rotation_outlives_reuse`), and nothing is revoked when `RevokeAllForUser` fails, since its error is
dropped.

`revocationSettles` rules out these two: the call has its effect, and no other refresh of the user
stands between reading its token and storing the successor. Then the family is dead
(`familyDead_of_revocationSettles`): a refresh that looks up its token after the return, and presents a token that
was stored before or is stored by a rotation then in progress, does not succeed in any continuation of
the run. The proof follows one row: it is revoked at the return and stays revoked, so its lookup never
leads a refresh to the exchange.
-/

namespace DeskSync.Auth

open Backend Proc

/-! ### Reuse that is returned, families that are dead -/

/-- The step makes a refresh that presented a token of the user return the detected reuse. -/
def ReturnsReuse (s : Service) (w : World) (l : Step) (userID : String) : Prop :=
  ∃ i : ℕ, ∃ tok md claims c k q row,
    w.threads[i]? = some ⟨.refresh tok md, .call c k⟩ ∧
    ((system s).step w l).threads[i]? = some ⟨.refresh tok md, q⟩ ∧ Detected q ∧
    s.jwt.lib.payload tok = some claims ∧
    row ∈ w.store.refreshTokens ∧ row.id = claims.id ∧ row.userID = userID

/-- Request `i` is a refresh that has read a token of the user as usable and has not returned. -/
def InRotation (w : World) (i : ℕ) (userID : String) : Prop :=
  ∃ tok md q c, w.threads[i]? = some ⟨.refresh tok md, q⟩ ∧ q.pending = some c ∧
    (c = .getUserByID userID ∨ (∃ t, c = .create t ∧ t.userID = userID) ∨
      ∃ row new, c = .revoke row.id new ∧ row ∈ w.store.refreshTokens ∧ row.userID = userID)

/-- Request `i` creates the row `jti` on the way. -/
def Creates (s : Service) (w : World) (l : List Step) (i : ℕ) (jti : String) : Prop :=
  ∃ la e lb t tok md k, l = la ++ .advance i e :: lb ∧ t.id = jti ∧
    (Run.exec (system s).step w la).threads[i]? = some ⟨.refresh tok md, .call (.create t) k⟩

/-- Request `i` has not been started, or has not looked up its token yet. -/
def Unread (w : World) (i : ℕ) : Prop :=
  w.threads[i]? = none ∨
    ∃ req q id, w.threads[i]? = some ⟨req, q⟩ ∧ q.pending = some (.getByID id)

/-- From `w` on, no refresh that has yet to look up its token succeeds with one that is a row of the
user in `w`, or that a rotation of the user in progress in `w` goes on to store. -/
def FamilyDead (s : Service) (w : World) (userID : String) : Prop :=
  ∀ l tok claims, s.jwt.lib.payload tok = some claims →
    ((∃ row ∈ w.store.refreshTokens, row.id = claims.id ∧ row.userID = userID) ∨
      ∃ i, InRotation w i userID ∧ Creates s w l i claims.id) →
    ∀ j md q, Unread w j →
      (Run.exec (system s).step w l).threads[j]? = some ⟨.refresh tok md, q⟩ → ¬ Success q

/-! ### The condition -/

/-- The refresh stands between reading a token of the user and storing the successor. -/
def aboutToCreate (userID : String) (t : Thread Request Reply Response) : Bool :=
  match t.req, t.prog.pending with
  | .refresh _ _, some (.getUserByID id) => id == userID
  | .refresh _ _, some (.create row) => row.userID == userID
  | _, _ => false

/-- A `RevokeAllForUser` of a detected reuse has its effect, at a moment when no refresh of the user is
about to store a successor. -/
def revocationSettles (w : World) : Step → Bool
  | .advance i e =>
    match w.threads[i]? with
    | some ⟨.refresh _ _, .call (.revokeAllForUser userID) _⟩ =>
      e.fault != .lost && w.threads.all fun t => !aboutToCreate userID t
    | _ => true
  | _ => true

/-! ### Where the detection comes from -/

/-- A refresh that is about to revoke the tokens of a user has presented a token of that user. -/
structure ReuseInv (s : Service) (w : World) : Prop where
  loc : w.All (RefreshLocal s)
  unique : TokensUnique w.store
  owner : ∀ (i : ℕ) tok md claims userID q, w.threads[i]? = some ⟨.refresh tok md, q⟩ →
    q.pending = some (.revokeAllForUser userID) → s.jwt.lib.payload tok = some claims →
    ∃ row ∈ w.store.refreshTokens, row.id = claims.id ∧ row.userID = userID

theorem reuseInv_step {s : Service} {w : World} (h : ReuseInv s w) (l : Step) :
    ReuseInv s ((system s).step w l) := by
  refine ⟨refreshLocal_step h.loc l, step_tokensUnique s h.unique l, ?_⟩
  intro i tok md claims userID q hi hq hpay
  have hrow : ∃ row ∈ w.store.refreshTokens, row.id = claims.id ∧ row.userID = userID := by
    rcases (system s).thread_cases hi with hold | ⟨req, e, rfl, -, ht⟩ | ⟨e, req, c, k, rfl, hcall, ht⟩
    · exact h.owner i tok md claims userID q hold hq hpay
    · exfalso
      obtain ⟨rfl, rfl⟩ := Thread.mk.inj ht
      rcases refresh_start s e.here tok md with href | ⟨_, -, hpend⟩
      · exact href.not_pending hq
      · exact absurd (hpend.symm.trans hq) (by simp)
    · obtain ⟨rfl, rfl⟩ := Thread.mk.inj ht
      obtain ⟨claims', hpay', hstep, -⟩ := (h.loc i _ _ hcall).next (exec_namesRow s.citext e c w.store)
      obtain rfl : claims' = claims := Option.some.inj (hpay'.symm.trans hpay)
      rcases hstep.pending_cases hq with ⟨rfl, -⟩ | ⟨_, -, _, hc, -⟩ | ⟨_, -, _, hc⟩
      · obtain ⟨-, href | ⟨stored, hr, -, hpend⟩ | ⟨stored, -, -, hpend⟩⟩ := hstep
        · exact absurd hq href.not_pending
        · obtain rfl : stored.userID = userID := by
            simpa using hpend.symm.trans hq
          exact ⟨stored, (getByID_ok hr).1, (getByID_ok hr).2, rfl⟩
        · exact absurd (hpend.symm.trans hq) (by simp)
      · cases hc
      · cases hc
  obtain ⟨row, hrow, hid, huser⟩ := hrow
  obtain ⟨row', hrow', hid', huser', -⟩ := step_tokenLE s w l row hrow
  exact ⟨row', hrow', hid'.trans hid, huser'.trans huser⟩

theorem reuseInv_run (s : Service) {db : AuthDb} (hu : TokensUnique db) (l : List Step) :
    ReuseInv s ((system s).run db l) := by
  refine Run.invariant (I := ReuseInv s) (fun _ l h => reuseInv_step h l) ⟨Pool.All.nil db, hu, ?_⟩ l
  intro i tok md claims userID q hi
  cases hi

/-- A refresh returns the detected reuse by its `RevokeAllForUser`, for the owner of its token. -/
theorem ReturnsReuse.revokeAll {s : Service} {w : World} {l : Step} {userID : String}
    (h : ReuseInv s w) (hr : ReturnsReuse s w l userID) :
    ∃ i e tok md k, l = .advance i e ∧
      w.threads[i]? = some ⟨.refresh tok md, .call (.revokeAllForUser userID) k⟩ := by
  obtain ⟨i, tok, md, claims, c, k, q, row, hi, hi', hq, hpay, hrow, hid, rfl⟩ := hr
  rcases (system s).thread_cases hi' with hold | ⟨req, e, rfl, hlen, ht⟩ | ⟨e, req, c', k', rfl, hcall, ht⟩
  · rw [hi] at hold
    obtain ⟨-, rfl⟩ := Thread.mk.inj (Option.some.inj hold)
    cases hq
  · rw [hlen] at hi
    simp at hi
  · rw [hi] at hcall
    obtain ⟨rfl, hcall⟩ := Thread.mk.inj (Option.some.inj hcall)
    cases hcall
    obtain ⟨-, rfl⟩ := Thread.mk.inj ht
    obtain ⟨claims', hpay', hstep, -⟩ := (h.loc i _ _ hi).next (exec_namesRow s.citext e c w.store)
    obtain rfl : claims' = claims := Option.some.inj (hpay'.symm.trans hpay)
    obtain ⟨u, rfl⟩ := hstep.detected hq
    obtain ⟨row', hrow', hid', rfl⟩ := h.owner i tok md claims' u _ hi rfl hpay
    rw [h.unique.eq hrow hrow' (hid.trans hid'.symm)]
    exact ⟨i, e, tok, md, k, rfl, hi⟩

/-- When the revocation settles, every row of the user is revoked after it. -/
theorem rows_revoked {s : Service} {w : World} {i : ℕ} {e : Env} {tok : String} {md : Metadata}
    {userID : String} {k : Reply (.revokeAllForUser userID) → Handler Response}
    (hi : w.threads[i]? = some ⟨.refresh tok md, .call (.revokeAllForUser userID) k⟩)
    (hf : e.fault ≠ .lost) {row : RefreshToken}
    (hrow : row ∈ ((system s).step w (.advance i e)).store.refreshTokens) (huser : row.userID = userID) :
    row.revokedAt.isSome := by
  rw [(system s).step_advance hi] at hrow
  have hrow : row ∈ w.store.refreshTokens.map (RefreshRepo.revokeUserRow e.dbNow userID) := by
    cases he : e.fault with
    | lost => exact absurd he hf
    | none => simpa [system, exec, he, Fault.apply, Cmd.effect, RefreshRepo.revokeAllForUser] using hrow
    | replyLost =>
      simpa [system, exec, he, Fault.apply, Cmd.effect, RefreshRepo.revokeAllForUser] using hrow
  obtain ⟨old, -, rfl⟩ := List.mem_map.1 hrow
  exact revokeUserRow_self _ _ _ (by simpa using huser)

/-! ### A rotation past its `Create` -/

/-- A refresh whose pending call is `Revoke` creates no row any more. -/
theorem not_creates_of_revoke {s : Service} {w : World} (hloc : w.All (RefreshLocal s)) {i : ℕ}
    {tok : String} {md : Metadata} {q : Handler Response} {id : String} {new : Option String}
    (hi : w.threads[i]? = some ⟨.refresh tok md, q⟩) (hq : q.pending = some (.revoke id new))
    (l : List Step) (jti : String) : ¬ Creates s w l i jti := by
  rintro ⟨la, e, lb, t, tok', md', k, -, -, hcreate⟩
  have hinv : (Run.exec (system s).step w la).All (RefreshLocal s) ∧
      ∃ q, (Run.exec (system s).step w la).threads[i]? = some ⟨.refresh tok md, q⟩ ∧
        ∀ c, q.pending = some c → ∃ id new, c = .revoke id new := by
    refine Run.invariant (I := fun w : World => w.All (RefreshLocal s) ∧
      ∃ q, w.threads[i]? = some ⟨.refresh tok md, q⟩ ∧
        ∀ c, q.pending = some c → ∃ id new, c = .revoke id new) ?_ ⟨hloc, q, hi, ?_⟩ la
    · rintro w l ⟨hloc, q, hi, hq⟩
      refine ⟨refreshLocal_step hloc l, ?_⟩
      rcases (system s).thread_next l hi with hi' | ⟨e, c, k, -, rfl, hi'⟩
      · exact ⟨q, hi', hq⟩
      · refine ⟨_, hi', fun c' hc' => ?_⟩
        obtain ⟨id, new, rfl⟩ := hq c rfl
        obtain ⟨claims, -, hstep, -⟩ := (hloc i _ _ hi).next (exec_namesRow s.citext e _ w.store)
        rcases hstep.pending_cases hc' with ⟨hc, -⟩ | ⟨_, hc, -⟩ | ⟨_, hc, -⟩ <;> cases hc
    · exact fun c hc => ⟨id, new, Option.some.inj (hc.symm.trans hq)⟩
  obtain ⟨-, q', hi', hq'⟩ := hinv
  rw [hi'] at hcreate
  obtain ⟨-, rfl⟩ := Thread.mk.inj (Option.some.inj hcreate)
  obtain ⟨_, _, hc⟩ := hq' _ rfl
  cases hc

/-- After a settled revocation, a rotation in progress is past its `Create`. -/
theorem inRotation_revoke {s : Service} {w : World} {i : ℕ} {e : Env} {tok : String} {md : Metadata}
    {userID : String} {k : Reply (.revokeAllForUser userID) → Handler Response}
    (hloc : w.All (RefreshLocal s))
    (hi : w.threads[i]? = some ⟨.refresh tok md, .call (.revokeAllForUser userID) k⟩)
    (hg : ∀ t ∈ w.threads, aboutToCreate userID t = false) {j : ℕ}
    (hj : InRotation ((system s).step w (.advance i e)) j userID) :
    ∃ tok md q id new, ((system s).step w (.advance i e)).threads[j]? = some ⟨.refresh tok md, q⟩ ∧
      q.pending = some (.revoke id new) := by
  obtain ⟨tok', md', q, c, hj, hq, hc⟩ := hj
  rcases (system s).thread_cases hj with hold | ⟨_, _, hl, -⟩ | ⟨e', req, c', k', hl, hcall, ht⟩
  · have hno := hg _ (List.mem_of_getElem? hold)
    rcases hc with rfl | ⟨t, rfl, huser⟩ | ⟨row, new, rfl, -, -⟩
    · simp [aboutToCreate, hq] at hno
    · simp [aboutToCreate, hq, huser] at hno
    · exact ⟨tok', md', q, row.id, new, hj, hq⟩
  · cases hl
  · cases hl
    rw [hi] at hcall
    obtain ⟨rfl, hcall⟩ := Thread.mk.inj (Option.some.inj hcall)
    cases hcall
    obtain ⟨-, rfl⟩ := Thread.mk.inj ht
    obtain ⟨_, -, hstep, -⟩ := (hloc i _ _ hi).next (exec_namesRow s.citext e _ w.store)
    exact absurd hstep (not_detected_of_pending hq)

/-! ### The revoked row stays unusable -/

/-- The handler will not return a token pair: it has returned, or is about to report the reuse. -/
def Hopeless (q : Handler Response) : Prop :=
  Refused q ∨ Detected q ∨ ∃ u, q.pending = some (.revokeAllForUser u)

theorem Hopeless.not_success {q : Handler Response} (h : Hopeless q) : ¬ Success q := by
  rcases h with href | hdet | ⟨u, hpend⟩
  · exact href.not_success
  · exact hdet.not_success
  · exact not_success_of_pending hpend

/-- The row is revoked, and the refreshes of `J` that present it look it up or are hopeless. -/
structure DeadRow (s : Service) (J : ℕ → Prop) (claims : Claims) (w : World) : Prop where
  loc : w.All (RefreshLocal s)
  unique : TokensUnique w.store
  row : RowRevoked w.store claims.id
  late : ∀ j tok md q, J j → s.jwt.lib.payload tok = some claims →
    w.threads[j]? = some ⟨.refresh tok md, q⟩ → q.pending = some (.getByID claims.id) ∨ Hopeless q

theorem deadRow_step {s : Service} {J : ℕ → Prop} {claims : Claims} {w : World}
    (h : DeadRow s J claims w) (l : Step) : DeadRow s J claims ((system s).step w l) := by
  refine ⟨refreshLocal_step h.loc l, step_tokensUnique s h.unique l, h.row.mono (step_tokenLE s w l), ?_⟩
  intro j tok md q hJ hpay hj
  rcases (system s).thread_cases hj with hold | ⟨req, e, rfl, -, ht⟩ | ⟨e, req, c, k, rfl, hcall, ht⟩
  · exact h.late j tok md q hJ hpay hold
  · obtain ⟨rfl, rfl⟩ := Thread.mk.inj ht
    rcases refresh_start s e.here tok md with href | ⟨claims', hpay', hpend⟩
    · exact .inr (.inl href)
    · obtain rfl : claims' = claims := Option.some.inj (hpay'.symm.trans hpay)
      exact .inl hpend
  · right
    obtain ⟨rfl, rfl⟩ := Thread.mk.inj ht
    obtain ⟨claims', hpay', hstep, -⟩ := (h.loc j _ _ hcall).next (exec_namesRow s.citext e c w.store)
    obtain rfl : claims' = claims := Option.some.inj (hpay'.symm.trans hpay)
    rcases h.late j tok md _ hJ hpay hcall with hget | ⟨_, -, href⟩ | hdet | ⟨u, hrev⟩
    · cases hget
      obtain ⟨-, href | ⟨stored, -, -, hpend⟩ | ⟨stored, hok, hnone, -⟩⟩ := hstep
      · exact .inl href
      · exact .inr (.inr ⟨_, hpend⟩)
      · exfalso
        obtain ⟨row, hrow, hid, hrev⟩ := h.row
        obtain ⟨hmem, hid'⟩ := getByID_ok hok
        rw [h.unique.eq hrow hmem (hid.trans hid'.symm), hnone] at hrev
        cases hrev
    · cases href
    · cases hdet
    · cases hrev
      exact .inr (.inl hstep)

/-- After a settled revocation the whole family of the user is dead. -/
theorem familyDead_of_settles {s : Service} {w : World} {l : Step} {userID : String}
    (h : ReuseInv s w) (hr : ReturnsReuse s w l userID) (hg : revocationSettles w l = true) :
    FamilyDead s ((system s).step w l) userID := by
  obtain ⟨i, e, tok, md, k, rfl, hi⟩ := hr.revokeAll h
  simp only [revocationSettles, hi, Bool.and_eq_true, bne_iff_ne, List.all_eq_true,
    Bool.not_eq_true'] at hg
  have h' := reuseInv_step h (.advance i e)
  intro l tok' claims hpay hissued j md' q hunread hj hsucc
  have hrow : RowRevoked ((system s).step w (.advance i e)).store claims.id := by
    rcases hissued with ⟨row, hrow, hid, huser⟩ | ⟨i', hrot, hcreates⟩
    · exact ⟨row, hrow, hid, rows_revoked hi hg.1 hrow huser⟩
    · obtain ⟨_, _, _, _, _, hi', hpend⟩ := inRotation_revoke h.loc hi hg.2 hrot
      exact absurd hcreates (not_creates_of_revoke h'.loc hi' hpend _ _)
  have hdead : DeadRow s (Unread ((system s).step w (.advance i e))) claims
      ((system s).step w (.advance i e)) := by
    refine ⟨h'.loc, h'.unique, hrow, ?_⟩
    rintro j tok md q (hnone | ⟨req, q', id, hj', hpend⟩) hpay hj
    · rw [hj] at hnone; cases hnone
    · rw [hj] at hj'
      obtain ⟨-, rfl⟩ := Thread.mk.inj (Option.some.inj hj')
      rw [(h'.loc j _ _ hj).lookup hpend hpay] at hpend
      exact .inl hpend
  have hrun := Run.invariant (I := DeadRow s _ claims) (fun _ l h => deadRow_step h l) hdead l
  rcases hrun.late j tok' md' q hunread hpay hj with hpend | hhope
  · exact not_success_of_pending hpend hsucc
  · exact hhope.not_success hsucc

/-- In every run in which each revocation after a detected reuse settles, the family of the user is
dead from the moment a refresh returns the detected reuse. -/
theorem familyDead_of_revocationSettles (s : Service) (db : AuthDb) (hu : TokensUnique db)
    (la lb : List Step) (l : Step) (userID : String)
    (h : Run.Guarded (system s).step (fun w l => revocationSettles w l = true) ⟨db, []⟩ (la ++ l :: lb))
    (hr : ReturnsReuse s ((system s).run db la) l userID) :
    FamilyDead s ((system s).run db (la ++ [l])) userID := by
  rw [System.run, Run.exec_append]
  exact familyDead_of_settles (reuseInv_run s hu la) hr (Run.guarded_append.1 h).2.1

/-! ### A rotation in progress -/

def refreshOf (token : String) : Step := .spawn (.refresh token ⟨"", ""⟩) (goes "")

/-- `refresh-t1` has been exchanged for `refresh-t2`, a second refresh has presented `refresh-t1` and
is about to revoke the family; `between` happens before it does. -/
def reuseT1 (between : List Step) : List Step :=
  registered ++ [refreshT1, .advance 1 (goes ""), .advance 1 (goes "t2"), .advance 1 (goes ""),
    .advance 1 (goes ""), refreshT1, .advance 2 (goes "")] ++ between

def detect : Step := .advance 2 (goes "")

/-- A refresh reads `refresh-t2` as usable. -/
def rotating : List Step := [refreshOf "refresh-t2", .advance 3 (goes "")]

/-- That refresh goes on and stores `refresh-t3`, which is exchanged afterwards. -/
def rotated : List Step :=
  [.advance 3 (goes "t3"), .advance 3 (goes ""), .advance 3 (goes ""), refreshOf "refresh-t3",
    .advance 4 (goes ""), .advance 4 (goes "t4"), .advance 4 (goes ""), .advance 4 (goes "")]

set_option maxRecDepth 8000 in
/-- A rotation in progress when the reuse is reported leaves a token that is exchanged later. -/
theorem rotation_outlives_reuse :
    ReturnsReuse sampleService ((system sampleService).run emptyDb (reuseT1 rotating)) detect "u1" ∧
      ¬ FamilyDead sampleService
        ((system sampleService).run emptyDb (reuseT1 rotating ++ [detect])) "u1" := by
  constructor
  · exact ⟨2, "refresh-t1", ⟨"", ""⟩, _, _, _, _, _, rfl, rfl, rfl, rfl, List.mem_cons_self, rfl, rfl⟩
  · intro h
    refine h rotated "refresh-t3" _ rfl (.inr ⟨3, ?_, ?_⟩) 4 ⟨"", ""⟩ _ (.inl rfl) rfl ⟨_, rfl⟩
    · exact ⟨"refresh-t2", ⟨"", ""⟩, _, _, rfl, rfl, .inl rfl⟩
    · exact ⟨[.advance 3 (goes "t3")], goes "", _, _, "refresh-t2", ⟨"", ""⟩, _, rfl, rfl, rfl⟩

set_option maxRecDepth 8000 in
theorem familyDead_reuseT1 :
    FamilyDead sampleService ((system sampleService).run emptyDb (reuseT1 [] ++ [detect])) "u1" :=
  familyDead_of_revocationSettles sampleService emptyDb List.nodup_nil (reuseT1 []) [] detect "u1"
    (by decide)
    ⟨2, "refresh-t1", ⟨"", ""⟩, _, _, _, _, _, rfl, rfl, rfl, rfl, List.mem_cons_self, rfl, rfl⟩

end DeskSync.Auth
