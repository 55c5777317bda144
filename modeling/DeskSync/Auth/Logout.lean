import DeskSync.Auth.Reuse

/-!
# Logging out

`Logout` revokes the row its token names, and reports success also for a token that does not verify or has no row.
Where it verified and the row was there, success means that the row is revoked (`LogoutInv`), and a revoked row
stays unusable: `logout_final`.

A refresh that has read the row before may still go through; the theorem is about those that start later.
-/

namespace DeskSync.Auth

open Backend Elements Proc

/-- The row is there. -/
def HasRow (db : AuthDb) (jti : String) : Prop := ∃ row ∈ db.refreshTokens, row.id = jti

theorem HasRow.mono {db db' : AuthDb} {jti : String} (h : HasRow db jti) (hle : TokenLE db db') : HasRow db' jti := by
  obtain ⟨row, hrow, hid⟩ := h
  obtain ⟨row', hrow', hid', -⟩ := hle row hrow
  exact ⟨row', hrow', hid'.trans hid⟩

/-- `Revoke` of a row that is there does not miss it. -/
theorem revoke_found {citext : Citext} {e : Env} {db : AuthDb} {jti : String} {new : Option String}
    (h : HasRow db jti) : (exec citext e (.revoke jti new) db).1.1 ≠ .error .refreshNotFound := by
  obtain ⟨row, hrow, hid⟩ := h
  have hany : (db.refreshTokens.any fun row => row.id == jti) = true :=
    List.any_eq_true.2 ⟨row, hrow, by simpa using hid⟩
  intro hr
  by_cases hf : e.fault = .none
  · rw [exec_none hf] at hr
    simp only [Cmd.effect, RefreshRepo.revoke] at hr
    split_ifs at hr
    all_goals cases hr
  · rw [exec_failed hf] at hr
    cases hr

/-- The handler of a logout that is over. -/
def LoggedOut (q : Handler Response) : Prop := q = .ret (.done (.ok ()))

section Handler
variable {s : Service} {here : Here} {tok : String} {claims : Claims}

/-- Where a logout stands: it waits for the revocation, or has returned, after success of which the row is
revoked. -/
def LogoutStage (jti : String) (db : AuthDb) (p : Handler Response) : Prop :=
  (∃ k, p = .call (.revoke jti none) k ∧ ∀ r, (∃ result, k r = .ret result) ∧
    (LoggedOut (k r) → r.1 = .ok () ∨ r.1 = .error .refreshNotFound)) ∨
  (∃ result, p = .ret result) ∧ (LoggedOut p → RowRevoked db jti)

/-- A logout whose token verifies waits for the revocation first. -/
theorem logout_start (hv : s.jwt.verifyRefresh here.now tok = .ok claims) (db : AuthDb) :
    LogoutStage claims.id db ((Request.logout tok).start s here) := by
  dsimp only [Request.start, Service.logout]
  rw [hv]
  refine .inl ⟨_, rfl, ?_⟩
  rintro ⟨err | ⟨⟩, here'⟩
  · cases err with
    | refreshNotFound => exact ⟨⟨_, rfl⟩, fun _ => .inr rfl⟩
    | _ => exact ⟨⟨_, rfl⟩, fun hout => by cases hout⟩
  · exact ⟨⟨_, rfl⟩, fun _ => .inl rfl⟩

end Handler

/-- The row of the token is there, and the request with the number `i` is the logout. -/
structure LogoutInv (tok : String) (jti : String) (i : ℕ) (w : World) : Prop where
  row : HasRow w.store jti
  thread : ∃ p, w.threads[i]? = some ⟨.logout tok, p⟩ ∧ LogoutStage jti w.store p

theorem logoutInv_step {s : Service} {tok jti : String} {i : ℕ} {w : World} (h : LogoutInv tok jti i w) (l : Step) :
    LogoutInv tok jti i ((system s).step w l) := by
  have hle := step_tokenLE s w l
  have hrow := h.row.mono hle
  obtain ⟨p, hi, hp⟩ := h.thread
  rcases (system s).thread_next l hi with hi' | ⟨e, c, k, rfl, rfl, hi'⟩
  · exact ⟨hrow, p, hi', hp.imp_right fun hret => ⟨hret.1, fun hout => (hret.2 hout).mono hle⟩⟩
  · rcases hp with ⟨k', hk', hafter⟩ | ⟨⟨result, hret⟩, -⟩
    · cases hk'
      refine ⟨hrow, _, hi', .inr ⟨(hafter _).1, fun hout => ?_⟩⟩
      rw [(system s).step_advance hi]
      rcases (hafter _).2 hout with hok | hmiss
      · exact revoke_ok hok
      · exact absurd hmiss (revoke_found h.row)
    · cases hret

/-- **Once a logout has returned success for a token that verified and had its row, no refresh that starts later
exchanges the token, in any run.** -/
theorem logout_final (s : Service) (db : AuthDb) (hu : TokensUnique db) (la lb lc : List Step) (tok : String)
    (e : Env) (claims : Claims) (hv : s.jwt.verifyRefresh e.here.now tok = .ok claims)
    (hrow : HasRow ((system s).run db la).store claims.id)
    (hdone : ((system s).run db (la ++ .spawn (.logout tok) e :: lb)).threads[
      ((system s).run db la).threads.length]? = some ⟨.logout tok, .ret (.done (.ok ()))⟩)
    (tok' : String) (hpay : s.jwt.lib.payload tok' = some claims) (i : ℕ)
    (hi : ((system s).run db (la ++ .spawn (.logout tok) e :: lb)).threads.length ≤ i) :
    ¬ Exchanged ((system s).run db (la ++ .spawn (.logout tok) e :: lb ++ lc)) i tok' := by
  have hreuse : ReuseInv s ((system s).run db (la ++ .spawn (.logout tok) e :: lb)) := reuseInv_run s hu _
  have hinv : LogoutInv tok claims.id ((system s).run db la).threads.length
      ((system s).run db (la ++ .spawn (.logout tok) e :: lb)) := by
    rw [show (system s).run db (la ++ .spawn (.logout tok) e :: lb) = Run.exec (system s).step
      ((system s).step ((system s).run db la) (.spawn (.logout tok) e)) lb from Run.exec_append _ la _]
    refine Run.invariant (I := LogoutInv tok claims.id _) (fun _ l h => logoutInv_step h l) ?_ lb
    exact ⟨hrow, _, List.getElem?_concat_length, logout_start hv _⟩
  have hrevoked : RowRevoked ((system s).run db (la ++ .spawn (.logout tok) e :: lb)).store claims.id := by
    obtain ⟨p, hp, ⟨k, rfl, -⟩ | ⟨-, hout⟩⟩ := hinv.thread
    · rw [hdone] at hp
      cases hp
    · rw [hdone] at hp
      cases hp
      exact hout rfl
  have hdead : DeadRow s (fun j => ((system s).run db (la ++ .spawn (.logout tok) e :: lb)).threads.length ≤ j) claims
      ((system s).run db (la ++ .spawn (.logout tok) e :: lb)) := by
    refine ⟨hreuse.loc, hreuse.unique, hrevoked, fun j tok'' md q hj _ hthread => ?_⟩
    exact absurd (List.getElem?_eq_some_iff.1 hthread).1 (Nat.not_lt.2 hj)
  rintro ⟨md, q, hthread, hsucc⟩
  rw [show (system s).run db (la ++ .spawn (.logout tok) e :: lb ++ lc) = Run.exec (system s).step
    ((system s).run db (la ++ .spawn (.logout tok) e :: lb)) lc from Run.exec_append _ _ lc] at hthread
  have hrun := Run.invariant (I := DeadRow s _ claims) (fun _ l h => deadRow_step h l) hdead lc
  rcases hrun.late i tok' md q hi hpay hthread with hpend | hhope
  · exact not_success_of_pending hpend hsucc
  · exact hhope.not_success hsucc

/-- The sample account logs out, and its token is presented again. -/
theorem logout_final_t1 :
    ((system sampleService).run emptyDb (registered ++ .spawn (.logout "refresh-t1") (goes "") ::
        [.advance 1 (goes "")] ++ [refreshT1, .advance 2 (goes ""), .advance 2 (goes "")])).threads[2]?.map
      (fun t => t.prog.result.isSome) = some true ∧
    ¬ Exchanged ((system sampleService).run emptyDb (registered ++ .spawn (.logout "refresh-t1") (goes "") ::
        [.advance 1 (goes "")] ++ [refreshT1, .advance 2 (goes ""), .advance 2 (goes "")])) 2 "refresh-t1" := by
  refine ⟨by decide +kernel, ?_⟩
  exact logout_final sampleService emptyDb List.nodup_nil registered [.advance 1 (goes "")] _ "refresh-t1" (goes "")
    ⟨"desksync", "u1", "t1", 0, 1000, "u1", .refresh⟩ rfl ⟨_, List.mem_singleton_self _, rfl⟩ rfl "refresh-t1" rfl 2
    (by decide)

end DeskSync.Auth
