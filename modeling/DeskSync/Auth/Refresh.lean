import DeskSync.Auth.Service

/-!
# What a refresh can do

`refresh_steps` says, for each repository call a `Refresh` request makes, how the handler goes on with
the reply: which call it is suspended at next, or what it returns. The invariants of the following
modules use the handler through this theorem only. It is a fact about the handler alone; what the
replies say about the table comes from the repository (`NamesRow`, `exec_namesRow`).
-/

namespace DeskSync.Auth

open Backend Proc

/-- A lookup by key replies with a row that has the key. -/
def NamesRow : (c : Cmd) → Reply c → Prop
  | .getByID jti, r => ∀ t, r.1 = .ok t → t.id = jti
  | .getUserByID id, r => ∀ u, r.1 = .ok u → u.id = id
  | _, _ => True

theorem exec_namesRow (citext : Citext) (e : Env) (c : Cmd) (db : AuthDb) :
    NamesRow c (exec citext e c db).1 := by
  cases c with
  | getByID jti => exact fun t h => (getByID_ok h).2
  | getUserByID id => exact fun u h => (getUserByID_ok h).2
  | _ => trivial

/-- The handler has returned an error other than the detected reuse. -/
def Refused (q : Handler Response) : Prop :=
  ∃ e, e ≠ Service.reuseDetected ∧ q = .ret (.tokens (.error e))

/-- The handler has returned the detected reuse. -/
def Detected (q : Handler Response) : Prop := q = .ret (.tokens (.error Service.reuseDetected))

/-- The handler has returned a token pair. -/
def Success (q : Handler Response) : Prop := ∃ tokens, q = .ret (.tokens (.ok tokens))

theorem Refused.not_success {q : Handler Response} (h : Refused q) : ¬ Success q := by
  rintro ⟨tokens, hq⟩
  obtain ⟨e, -, rfl⟩ := h
  cases hq

theorem Detected.not_success {q : Handler Response} (h : Detected q) : ¬ Success q := by
  rintro ⟨tokens, hq⟩
  rw [Detected, hq] at h
  cases h

theorem Refused.not_detected {q : Handler Response} (h : Refused q) : ¬ Detected q := by
  rintro hq
  obtain ⟨e, he, rfl⟩ := h
  cases hq
  exact he rfl

theorem not_success_of_pending {q : Handler Response} {c : Cmd} (h : q.pending = some c) :
    ¬ Success q := by
  rintro ⟨tokens, rfl⟩
  cases h

theorem not_detected_of_pending {q : Handler Response} {c : Cmd} (h : q.pending = some c) :
    ¬ Detected q := by
  rintro rfl
  cases h

/-- The transitions of a refresh whose token names the row `jti`, by the call answered. -/
def RefreshStep (jti : String) : (c : Cmd) → Reply c → Handler Response → Prop
  | .getByID id, r, q => id = jti ∧
      (Refused q ∨
        (∃ stored : RefreshToken, r.1 = .ok stored ∧ stored.revokedAt.isSome ∧
          q.pending = some (.revokeAllForUser stored.userID)) ∨
        ∃ stored : RefreshToken, r.1 = .ok stored ∧ stored.revokedAt = none ∧
          q.pending = some (.getUserByID stored.userID))
  | .revokeAllForUser _, _, q => Detected q
  | .getUserByID id, r, q =>
      Refused q ∨ ∃ t : RefreshToken, r.1.isOk ∧ t.userID = id ∧ q.pending = some (.create t)
  | .create _, _, q => Refused q ∨ ∃ new, q.pending = some (.revoke jti (some new))
  | .revoke id _, r, q => id = jti ∧ (Refused q ∧ r.1 ≠ .ok () ∨ r.1 = .ok () ∧ Success q)
  | _, _, _ => False

theorem Refused.not_pending {q : Handler Response} (h : Refused q) {c : Cmd} : q.pending ≠ some c := by
  obtain ⟨e, -, rfl⟩ := h
  simp

/-- The order of the calls of a refresh. -/
theorem RefreshStep.pending_cases {jti : String} {c c' : Cmd} {r : Reply c} {q : Handler Response}
    (h : RefreshStep jti c r q) (hq : q.pending = some c') :
    (c = .getByID jti ∧ ((∃ u, c' = .revokeAllForUser u) ∨ ∃ u, c' = .getUserByID u)) ∨
      (∃ u, c = .getUserByID u ∧ ∃ t, c' = .create t ∧ t.userID = u) ∨
      ∃ t, c = .create t ∧ ∃ new, c' = .revoke jti (some new) := by
  cases c with
  | getByID id =>
    obtain ⟨rfl, href | ⟨stored, -, -, hpend⟩ | ⟨stored, -, -, hpend⟩⟩ := h
    · exact absurd hq href.not_pending
    · exact .inl ⟨rfl, .inl ⟨_, Option.some.inj (hq.symm.trans hpend)⟩⟩
    · exact .inl ⟨rfl, .inr ⟨_, Option.some.inj (hq.symm.trans hpend)⟩⟩
  | revokeAllForUser u => exact absurd h (not_detected_of_pending hq)
  | getUserByID id =>
    obtain href | ⟨t, -, huser, hpend⟩ := h
    · exact absurd hq href.not_pending
    · exact .inr (.inl ⟨id, rfl, t, Option.some.inj (hq.symm.trans hpend), huser⟩)
  | create t =>
    obtain href | ⟨new, hpend⟩ := h
    · exact absurd hq href.not_pending
    · exact .inr (.inr ⟨t, rfl, new, Option.some.inj (hq.symm.trans hpend)⟩)
  | revoke id new =>
    obtain ⟨-, ⟨href, -⟩ | ⟨-, hsucc⟩⟩ := h
    · exact absurd hq href.not_pending
    · exact absurd hsucc (not_success_of_pending hq)
  | _ => exact h.elim

/-- Only `Revoke` returns a token pair. -/
theorem RefreshStep.success {jti : String} {c : Cmd} {r : Reply c} {q : Handler Response}
    (h : RefreshStep jti c r q) (hq : Success q) : ∃ new, c = .revoke jti new := by
  cases c with
  | getByID id =>
    obtain ⟨-, href | ⟨_, -, -, hpend⟩ | ⟨_, -, -, hpend⟩⟩ := h
    · exact absurd hq href.not_success
    · exact absurd hq (not_success_of_pending hpend)
    · exact absurd hq (not_success_of_pending hpend)
  | revokeAllForUser u => exact absurd hq (Detected.not_success h)
  | getUserByID id =>
    obtain href | ⟨_, -, -, hpend⟩ := h
    · exact absurd hq href.not_success
    · exact absurd hq (not_success_of_pending hpend)
  | create t =>
    obtain href | ⟨_, hpend⟩ := h
    · exact absurd hq href.not_success
    · exact absurd hq (not_success_of_pending hpend)
  | revoke id new => exact ⟨new, by rw [h.1]⟩
  | _ => exact h.elim

/-- Only `RevokeAllForUser` returns the detected reuse. -/
theorem RefreshStep.detected {jti : String} {c : Cmd} {r : Reply c} {q : Handler Response}
    (h : RefreshStep jti c r q) (hq : Detected q) : ∃ u, c = .revokeAllForUser u := by
  cases c with
  | getByID id =>
    obtain ⟨-, href | ⟨_, -, -, hpend⟩ | ⟨_, -, -, hpend⟩⟩ := h
    · exact absurd hq href.not_detected
    · exact absurd hq (not_detected_of_pending hpend)
    · exact absurd hq (not_detected_of_pending hpend)
  | revokeAllForUser u => exact ⟨u, rfl⟩
  | getUserByID id =>
    obtain href | ⟨_, -, -, hpend⟩ := h
    · exact absurd hq href.not_detected
    · exact absurd hq (not_detected_of_pending hpend)
  | create t =>
    obtain href | ⟨_, hpend⟩ := h
    · exact absurd hq href.not_detected
    · exact absurd hq (not_detected_of_pending hpend)
  | revoke id new =>
    obtain ⟨-, ⟨href, -⟩ | ⟨-, hsucc⟩⟩ := h
    · exact absurd hq href.not_detected
    · exact absurd hsucc hq.not_success
  | _ => exact h.elim

/-- The refusals of the handler. -/
theorem refused_err (code : Code) (message : String) (h : message ≠ "refresh token reuse detected") :
    Refused (.ret (.tokens (err code message))) :=
  ⟨⟨code, message⟩, fun he => h (congrArg AppError.message he), rfl⟩

section Handler
variable (s : Service)

theorem rotate_steps (stored : RefreshToken) (tokens : Tokens) (new : String) :
    (Response.tokens <$> Service.rotate stored tokens new).Steps NamesRow (RefreshStep stored.id) := by
  rintro ⟨_ | _, here⟩ -
  · exact ⟨⟨rfl, .inl ⟨refused_err _ _ (by decide), by simp⟩⟩, trivial⟩
  · exact ⟨⟨rfl, .inr ⟨rfl, tokens, rfl⟩⟩, trivial⟩

theorem exchange_steps (stored : RefreshToken) (md : Metadata) :
    (Response.tokens <$> s.exchange stored md).Steps NamesRow (RefreshStep stored.id) := by
  rintro ⟨_ | user, here⟩ huser
  · exact ⟨.inl (refused_err _ _ (by decide)), trivial⟩
  · have huser : user.id = stored.userID := huser user rfl
    simp only [Service.mint]
    cases hissue : s.jwt.issue here.now user.id here.uuid with
    | error _ =>
      simp only [hissue, Prog.ret_bind, Prog.pure_eq, Prog.bind, err, Function.comp]
      exact ⟨.inl (refused_err _ _ (by decide)), trivial⟩
    | ok pair =>
      simp only [hissue, Prog.perform_bind, Prog.call_bind, Prog.bind]
      refine ⟨.inr ⟨_, rfl, ?_, rfl⟩, ?_⟩
      · exact huser
      · rintro ⟨_ | _, here'⟩ -
        · exact ⟨.inl (refused_err _ _ (by decide)), trivial⟩
        · exact ⟨.inr ⟨_, rfl⟩, rotate_steps _ _ _⟩

/-- How `Refresh` goes on with the stored row it has looked up. -/
theorem checkStored_steps (here : Here) (tok : String) (md : Metadata) (jti : String)
    (r : Except RepoError RefreshToken × Here) (hr : ∀ t, r.1 = .ok t → t.id = jti) :
    RefreshStep jti (.getByID jti) r (Response.tokens <$> s.checkStored here tok md r.1) ∧
      (Response.tokens <$> s.checkStored here tok md r.1).Steps NamesRow (RefreshStep jti) := by
  obtain ⟨_ | stored, here'⟩ := r
  · exact ⟨⟨rfl, .inl (refused_err _ _ (by decide))⟩, trivial⟩
  · have hid : stored.id = jti := hr stored rfl
    subst hid
    simp only [Service.checkStored]
    split_ifs with hrev hbad
    · exact ⟨⟨rfl, .inr (.inl ⟨stored, rfl, hrev, rfl⟩)⟩, fun r _ => ⟨rfl, trivial⟩⟩
    · exact ⟨⟨rfl, .inl (refused_err _ _ (by decide))⟩, trivial⟩
    · refine ⟨⟨rfl, .inr (.inr ⟨stored, rfl, ?_, rfl⟩)⟩, exchange_steps s stored md⟩
      simpa using hrev

/-- The transitions of a refresh. -/
theorem refresh_steps (here : Here) (tok : String) (md : Metadata) {claims : Claims}
    (h : s.jwt.lib.payload tok = some claims) :
    (Response.tokens <$> s.refresh here tok md).Steps NamesRow (RefreshStep claims.id) := by
  unfold Service.refresh
  cases hv : s.jwt.verifyRefresh here.now tok with
  | error _ => trivial
  | ok claims' =>
    obtain rfl : claims' = claims :=
      Option.some.inj ((Manager.payload_of_verifyRefresh hv).symm.trans h)
    exact fun r hr => checkStored_steps s r.2 tok md claims'.id r hr

/-- A refresh starts refused, or suspended at the lookup of the row its token names. -/
theorem refresh_start (here : Here) (tok : String) (md : Metadata) :
    Refused (Response.tokens <$> s.refresh here tok md) ∨
      ∃ claims, s.jwt.lib.payload tok = some claims ∧
        (Response.tokens <$> s.refresh here tok md).pending = some (.getByID claims.id) := by
  unfold Service.refresh
  cases hv : s.jwt.verifyRefresh here.now tok with
  | error _ => exact .inl (refused_err _ _ (by decide))
  | ok claims => exact .inr ⟨claims, Manager.payload_of_verifyRefresh hv, rfl⟩

end Handler

/-! ### Refreshes in flight -/

/-- What is known of every request in flight: a refresh has been refused, or follows `RefreshStep` for
the row its token names. -/
def RefreshLocal (s : Service) (req : Request) (p : Handler Response) : Prop :=
  ∀ tok md, req = .refresh tok md → Refused p ∨
    ∃ claims, s.jwt.lib.payload tok = some claims ∧ p.Steps NamesRow (RefreshStep claims.id)

theorem refreshLocal_start (s : Service) (req : Request) (here : Here) :
    RefreshLocal s req (req.start s here) := by
  rintro tok md rfl
  rcases refresh_start s here tok md with h | ⟨claims, hpay, -⟩
  · exact .inl h
  · exact .inr ⟨claims, hpay, refresh_steps s here tok md hpay⟩

theorem RefreshLocal.next {s : Service} {tok : String} {md : Metadata} {c : Cmd}
    {k : Reply c → Handler Response} (h : RefreshLocal s (.refresh tok md) (.call c k)) {r : Reply c}
    (hr : NamesRow c r) :
    ∃ claims, s.jwt.lib.payload tok = some claims ∧ RefreshStep claims.id c r (k r) ∧
      (k r).Steps NamesRow (RefreshStep claims.id) := by
  rcases h tok md rfl with ⟨e, -, hq⟩ | ⟨claims, hpay, hsteps⟩
  · cases hq
  · exact ⟨claims, hpay, hsteps.trans hr, hsteps.next hr⟩

/-- The lookup a refresh is suspended at is that of the row its token names. -/
theorem RefreshLocal.lookup {s : Service} {tok : String} {md : Metadata} {claims : Claims} {id : String}
    {q : Handler Response} (h : RefreshLocal s (.refresh tok md) q)
    (hq : q.pending = some (.getByID id)) (hpay : s.jwt.lib.payload tok = some claims) :
    id = claims.id := by
  cases q with
  | ret a => cases hq
  | call c k =>
    cases hq
    obtain ⟨claims', hpay', hstep, -⟩ :=
      h.next (r := (.error .other, ⟨0, "", ""⟩)) (fun t ht => by cases ht)
    obtain rfl : claims' = claims := Option.some.inj (hpay'.symm.trans hpay)
    exact hstep.1

theorem refreshLocal_step {s : Service} {w : World} (h : w.All (RefreshLocal s)) (l : Step) :
    ((system s).step w l).All (RefreshLocal s) := by
  refine h.step (fun q e _ => refreshLocal_start s q e.here) ?_
  rintro i e q c k - - hq tok md rfl
  obtain ⟨claims, hpay, -, hsteps⟩ := hq.next (exec_namesRow s.citext e c w.store)
  exact .inr ⟨claims, hpay, hsteps⟩

end DeskSync.Auth
