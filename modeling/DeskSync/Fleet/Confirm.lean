import DeskSync.Fleet.Calls

/-!
# What a confirmation can do

A `Confirm` in flight stands at one of the control points of `Point`, each with the program that is
left from there. `Next` is the transition relation between the points; that the handler follows it is
`next_of_call`, and `confirm_cases` lifts it to the system. The comparison of the code is made in the
step that reads the challenge, on the value just read: `verdict` is its outcome, `none` when the
handler returns or burns the challenge without comparing.
-/

namespace DeskSync.Fleet

open Backend Proc

/-- The arguments of a `Confirm`. -/
structure ConfirmArgs where
  userID : String
  pairingID : String
  code : String
  mobileDeviceID : String
  deriving DecidableEq, Repr

def ConfirmArgs.request (a : ConfirmArgs) : Request :=
  .confirm a.userID a.pairingID a.code a.mobileDeviceID

/-- Where a `Confirm` in flight stands; `burning` is on its way to a refusal, `spending` to success. -/
inductive Point where
  | reading
  | recording
  | burning
  | authorizing (desktopDeviceID : String)
  | establishing (desktopDeviceID : String)
  | spending (pairing : Pairing)
  | returned (result : Except AppError Pairing)

/-- What is left of the handler. -/
def Point.prog (s : Services) (a : ConfirmArgs) : Point → Handler Response
  | .reading => .call (.get a.pairingID) fun r =>
      .pairing <$> s.pairing.checkChallenge r.2 a.userID a.pairingID a.code a.mobileDeviceID r.1
  | .recording => .pairing <$> s.pairing.recordFailure a.pairingID
  | .burning => .pairing <$> PairingService.burn a.pairingID
  | .authorizing desktop => .pairing <$>
      PairingService.authorize a.userID a.pairingID a.mobileDeviceID desktop
  | .establishing desktop => .pairing <$>
      PairingService.establish a.userID a.pairingID a.mobileDeviceID desktop
  | .spending pairing => .pairing <$> PairingService.spend a.pairingID pairing
  | .returned result => .ret (.pairing result)

/-- The outcome of the comparison, when the challenge read is compared. -/
def verdict (s : Services) (a : ConfirmArgs) (r : Except RepoError Challenge × Here) : Option Bool :=
  match r.1 with
  | .error _ => none
  | .ok ch =>
    if ch.userID ≠ a.userID then none
    else if ch.expiresAt < r.2.now then none
    else some (equalTokenHash s.pairing.hashToken a.code ch.codeHash)

/-- The transitions of a `Confirm`, by the point it is at and the call answered. -/
def Next (s : Services) (a : ConfirmArgs) : Point → (c : Cmd) → Reply c → Point → Prop
  | .reading, .get id, r, pt => id = a.pairingID ∧
      match verdict s a r with
      | none => (∃ e, pt = .returned (.error e)) ∨ pt = .burning
      | some false => pt = .recording
      | some true => ∃ ch, r.1 = .ok ch ∧ pt = .authorizing ch.desktopDeviceID
  | .recording, .recordFailedAttempt id, r, pt => id = a.pairingID ∧
      ((∃ n, r.1 = .ok n ∧ s.pairing.maxAttempts ≤ n ∧ pt = .burning) ∨
        (∀ n, r.1 = .ok n → n < s.pairing.maxAttempts) ∧ ∃ e, pt = .returned (.error e))
  | .burning, .consume id, _, pt => id = a.pairingID ∧ ∃ e, pt = .returned (.error e)
  | .authorizing desktop, .deviceForUser id userID, r, pt => id = a.mobileDeviceID ∧ userID = a.userID ∧
      ((∃ e, pt = .returned (.error e)) ∨
        ∃ dev, r.1 = .ok dev ∧ dev.kind = .mobile ∧ pt = .establishing desktop)
  | .establishing desktop, .upsertActivePairing userID mobile id, r, pt =>
      userID = a.userID ∧ mobile = a.mobileDeviceID ∧ id = desktop ∧
      ((∃ e, r.1 = .error e) ∧ (∃ e, pt = .returned (.error e)) ∨
        ∃ p, r.1 = .ok p ∧ pt = .spending p)
  | .spending pairing, .consume id, _, pt => id = a.pairingID ∧ pt = .returned (.ok pairing)
  | _, _, _, _ => False

section Handler
variable (s : Services) (a : ConfirmArgs)

theorem next_reading (r : Reply (.get a.pairingID)) :
    ∃ pt, Response.pairing <$> s.pairing.checkChallenge r.2 a.userID a.pairingID a.code
        a.mobileDeviceID r.1 = Point.prog s a pt ∧ Next s a .reading (.get a.pairingID) r pt := by
  obtain ⟨e | ch, here⟩ := r
  · cases e <;> exact ⟨.returned (.error _), rfl, rfl, .inl ⟨_, rfl⟩⟩
  · simp only [PairingService.checkChallenge, Next, verdict, true_and]
    split_ifs with huser hexp hcode
    · exact ⟨.returned (.error _), rfl, .inl ⟨_, rfl⟩⟩
    · exact ⟨.burning, rfl, .inr rfl⟩
    · refine ⟨.recording, rfl, ?_⟩
      simp only [Bool.not_eq_true'] at hcode
      rw [hcode]
    · refine ⟨.authorizing ch.desktopDeviceID, rfl, ?_⟩
      simp only [Bool.not_eq_true', Bool.not_eq_false] at hcode
      rw [hcode]
      exact ⟨ch, rfl, rfl⟩

/-- The handler follows `Next`. -/
theorem next_of_call {pt : Point} {c : Cmd} {k : Reply c → Handler Response}
    (h : pt.prog s a = .call c k) (r : Reply c) :
    ∃ pt', k r = Point.prog s a pt' ∧ Next s a pt c r pt' := by
  cases pt with
  | reading =>
    cases h
    exact next_reading s a r
  | recording =>
    cases h
    obtain ⟨_ | n, here⟩ := r
    · refine ⟨.returned (.error _), rfl, rfl, .inr ⟨?_, _, rfl⟩⟩
      rintro n ⟨⟩
    · by_cases hn : s.pairing.maxAttempts ≤ n
      · refine ⟨.burning, ?_, rfl, .inl ⟨n, rfl, hn, rfl⟩⟩
        simp only [Point.prog, Prog.bind, if_pos hn]
        rfl
      · refine ⟨.returned PairingService.invalidCode, ?_, rfl, .inr ⟨?_, _, rfl⟩⟩
        · simp only [Point.prog, Prog.bind, if_neg hn]
          rfl
        · rintro m hm
          cases hm
          exact not_le.1 hn
  | burning =>
    cases h
    exact ⟨.returned (.error _), rfl, rfl, _, rfl⟩
  | authorizing desktop =>
    cases h
    obtain ⟨e | dev, here⟩ := r
    · cases e <;> exact ⟨.returned (.error _), rfl, rfl, rfl, .inl ⟨_, rfl⟩⟩
    · by_cases hk : dev.kind = .mobile
      · refine ⟨.establishing desktop, ?_, rfl, rfl, .inr ⟨dev, rfl, hk, rfl⟩⟩
        simp only [Point.prog, Prog.bind, hk, ne_eq, not_true_eq_false, if_false]
        rfl
      · refine ⟨.returned (err .invalidInput "device is not a mobile device"), ?_, rfl, rfl,
          .inl ⟨_, rfl⟩⟩
        simp only [Point.prog, Prog.bind, ne_eq, hk, not_false_eq_true, if_true]
        rfl
  | establishing desktop =>
    cases h
    obtain ⟨e | pairing, here⟩ := r
    · exact ⟨.returned (.error _), rfl, rfl, rfl, rfl, .inl ⟨⟨_, rfl⟩, _, rfl⟩⟩
    · exact ⟨.spending pairing, rfl, rfl, rfl, rfl, .inr ⟨pairing, rfl, rfl⟩⟩
  | spending pairing =>
    cases h
    exact ⟨.returned (.ok pairing), rfl, rfl, rfl⟩
  | returned result => cases h

/-- A confirmation starts refused, or reads its challenge. -/
theorem confirm_start :
    (∃ e, a.request.start s = Point.prog s a (.returned (.error e))) ∨
      a.request.start s = Point.prog s a .reading := by
  simp only [ConfirmArgs.request, Request.start, PairingService.confirm]
  split_ifs
  · exact .inl ⟨_, rfl⟩
  · exact .inr rfl

end Handler

/-! ### Confirmations in flight -/

/-- A `Confirm` in flight stands at a point. -/
def ConfirmLocal (s : Services) (req : Request) (p : Handler Response) : Prop :=
  ∀ a : ConfirmArgs, req = a.request → ∃ pt, p = Point.prog s a pt

theorem confirmLocal_step {s : Services} {w : World} (h : w.All (ConfirmLocal s)) (l : Step) :
    ((system s).step w l).All (ConfirmLocal s) := by
  refine h.step ?_ ?_
  · rintro q e - a rfl
    rcases confirm_start s a with ⟨err, h⟩ | h
    · exact ⟨_, h⟩
    · exact ⟨_, h⟩
  · rintro i e q c k - - hp a rfl
    obtain ⟨pt, hpt⟩ := hp a rfl
    obtain ⟨pt', hpt', -⟩ := next_of_call s a hpt.symm (exec e c w.store).1
    exact ⟨pt', hpt'⟩

/-- Where a `Confirm` in flight after a step comes from. -/
theorem confirm_cases {s : Services} {w : World} {l : Step} (hloc : w.All (ConfirmLocal s)) {j : ℕ}
    {a : ConfirmArgs} {p : Handler Response}
    (h : ((system s).step w l).threads[j]? = some ⟨a.request, p⟩) :
    w.threads[j]? = some ⟨a.request, p⟩ ∨
    ((∃ e, p = Point.prog s a (.returned (.error e))) ∨ p = Point.prog s a .reading) ∨
    ∃ e pt c k pt', l = .advance j e ∧ w.threads[j]? = some ⟨a.request, .call c k⟩ ∧
      .call c k = Point.prog s a pt ∧ p = Point.prog s a pt' ∧
      Next s a pt c (exec e c w.store).1 pt' := by
  rcases (system s).thread_cases h with hold | ⟨q, e, rfl, -, ht⟩ | ⟨e, q, c, k, rfl, hcall, ht⟩
  · exact .inl hold
  · obtain ⟨rfl, rfl⟩ := Thread.mk.inj ht
    exact .inr (.inl (confirm_start s a))
  · obtain ⟨rfl, rfl⟩ := Thread.mk.inj ht
    obtain ⟨pt, hpt⟩ := hloc j _ _ hcall a rfl
    obtain ⟨pt', hpt', hnext⟩ := next_of_call s a hpt.symm (exec e c w.store).1
    exact .inr (.inr ⟨e, pt, c, k, pt', rfl, hcall, hpt, hpt', hnext⟩)

/-! ### Events -/

/-- What a run does to the challenges. -/
inductive Event where
  /-- `Initiate` stores the challenge. -/
  | saved (pairingID : String)
  /-- A `Confirm` compares its code with the challenge it has read. -/
  | compared (pairingID : String) (matched : Bool)
  /-- A `Confirm` persists the pairing with the mobile device. -/
  | paired (pairingID mobileDeviceID : String)
  deriving DecidableEq, Repr

/-- The event of a step. -/
def event (s : Services) (w : World) : Step → Option Event
  | .advance i e =>
    match w.threads[i]? with
    | some ⟨.confirm userID pairingID code mobile, .call (.get _) _⟩ =>
      let a : ConfirmArgs := ⟨userID, pairingID, code, mobile⟩
      (verdict s a (exec e (.get pairingID) w.store).1).map (.compared pairingID)
    | some ⟨.confirm _ pairingID _ _, .call (.upsertActivePairing userID mobile desktop) _⟩ =>
      let effect := PairingRepo.upsertActivePairing e userID mobile desktop w.store.db
      if e.fault != .lost && effect.1.isOk then some (.paired pairingID mobile) else none
    | some ⟨_, .call (.save ch _) _⟩ => if e.fault != .lost then some (.saved ch.pairingID) else none
    | _ => none
  | _ => none

section Event
variable {s : Services} {w : World} {l : Step} {x : String}

/-- A comparison is made in the step of a `Confirm` that reads the challenge. -/
theorem event_compared {b : Bool} (h : event s w l = some (.compared x b)) :
    ∃ i e a id k, l = .advance i e ∧ a.pairingID = x ∧
      w.threads[i]? = some ⟨ConfirmArgs.request a, .call (.get id) k⟩ ∧
      verdict s a (exec e (.get a.pairingID) w.store).1 = some b := by
  unfold event at h
  split at h
  · rename_i i e
    split at h
    · rename_i userID pairingID code mobile id k hi
      simp only [Option.map_eq_some_iff, Event.compared.injEq] at h
      obtain ⟨b', hv, rfl, rfl⟩ := h
      exact ⟨i, e, ⟨userID, pairingID, code, mobile⟩, id, k, rfl, rfl, hi, hv⟩
    · dsimp only at h
      split_ifs at h
      cases h
    · split_ifs at h
      cases h
    · cases h
  · cases h

/-- A pairing is persisted in a step of a `Confirm` that is not lost. -/
theorem event_paired {m : String} (h : event s w l = some (.paired x m)) :
    ∃ i e a userID d k, l = .advance i e ∧ a.pairingID = x ∧ e.fault ≠ .lost ∧
      w.threads[i]? = some ⟨ConfirmArgs.request a, .call (.upsertActivePairing userID m d) k⟩ ∧
      (PairingRepo.upsertActivePairing e userID m d w.store.db).1.isOk = true := by
  unfold event at h
  split at h
  · rename_i i e
    split at h
    · simp only [Option.map_eq_some_iff, reduceCtorEq, and_false, exists_false] at h
    · rename_i userID pairingID code mobile userID' mobile' d k hi
      dsimp only at h
      split_ifs at h with hgo
      simp only [Option.some.injEq, Event.paired.injEq] at h
      obtain ⟨rfl, rfl⟩ := h
      simp only [Bool.and_eq_true, bne_iff_ne] at hgo
      exact ⟨i, e, ⟨userID, pairingID, code, mobile⟩, userID', d, k, rfl, rfl, hgo.1, hi, hgo.2⟩
    · split_ifs at h
      cases h
    · cases h
  · cases h

/-- A challenge is saved in a step that is not lost. -/
theorem event_saved (h : event s w l = some (.saved x)) :
    ∃ i e q ch ttl k, l = .advance i e ∧ ch.pairingID = x ∧ e.fault ≠ .lost ∧
      w.threads[i]? = some ⟨q, .call (.save ch ttl) k⟩ := by
  unfold event at h
  split at h
  · rename_i i e
    split at h
    · simp only [Option.map_eq_some_iff, reduceCtorEq, and_false, exists_false] at h
    · dsimp only at h
      split_ifs at h
      cases h
    · rename_i q ch ttl k hi _ _
      split_ifs at h with hf
      simp only [Option.some.injEq, Event.saved.injEq] at h
      exact ⟨i, e, _, _, _, _, rfl, h, by simpa using hf, by assumption⟩
    · cases h
  · cases h

theorem event_get {e : Env} {j : ℕ} {a : ConfirmArgs} {id : String} {k : Reply (.get id) → Handler Response}
    (h : w.threads[j]? = some ⟨a.request, .call (.get id) k⟩) :
    event s w (.advance j e) =
      (verdict s a (exec e (.get a.pairingID) w.store).1).map (.compared a.pairingID) := by
  simp only [event, h, ConfirmArgs.request]

theorem event_upsert {e : Env} {j : ℕ} {a : ConfirmArgs} {userID mobile desktop : String}
    {k : Reply (.upsertActivePairing userID mobile desktop) → Handler Response}
    (h : w.threads[j]? = some ⟨a.request, .call (.upsertActivePairing userID mobile desktop) k⟩) :
    event s w (.advance j e) =
      if e.fault != .lost &&
          (PairingRepo.upsertActivePairing e userID mobile desktop w.store.db).1.isOk then
        some (.paired a.pairingID mobile) else none := by
  simp only [event, h, ConfirmArgs.request]

/-- A challenge is compared while it is stored. -/
theorem compared_stored {b : Bool} (h : event s w l = some (.compared x b)) :
    w.store.redis.stored x ≠ none := by
  obtain ⟨i, e, a, id, k, rfl, rfl, -, hv⟩ := event_compared h
  unfold verdict at hv
  split at hv
  · cases hv
  · rename_i ch hch
    obtain ⟨st, hst, -⟩ := get_ok a.pairingID hch
    rw [hst]
    simp

/-- Only `Save` stores a challenge. -/
theorem stored_step (hloc : w.All fun q p => p.Only q.mayCall)
    (h : ((system s).step w l).store.redis.stored x ≠ none) :
    w.store.redis.stored x ≠ none ∨ event s w l = some (.saved x) := by
  rcases (system s).step_cases w l with hs | ⟨q, e, rfl, hs⟩ | ⟨i, e, q, c, k, rfl, hi, hs⟩ | ⟨d, rfl, hs⟩
  · rw [hs] at h
    exact .inl h
  · rw [hs] at h
    exact .inl h
  · rw [hs] at h
    dsimp only [system] at h
    rcases exec_redis e c w.store with hr | ⟨hf, ⟨ch, ttl, rfl, hr⟩ | ⟨id, rfl, hr⟩ | ⟨id, rfl, hr⟩⟩
    · rw [hr] at h
      exact .inl h
    · rw [hr, stored_save] at h
      split_ifs at h with hx
      · subst hx
        right
        cases q with
        | initiate userID desktop => simp [event, hi, hf]
        | _ => exact (hloc i _ _ hi).1.elim
      · exact .inl h
    · rw [hr] at h
      exact .inl h
    · rw [hr, stored_consume] at h
      split_ifs at h
      · exact absurd rfl h
      · exact .inl h
  · rw [hs] at h
    left
    intro hnone
    exact h (stored_tick_none _ _ _ hnone)

/-- A `Consume` that is not lost removes the challenge. -/
theorem stored_consume_step {e : Env} {j : ℕ} {q : Request} {k : Reply (.consume x) → Handler Response}
    (h : w.threads[j]? = some ⟨q, .call (.consume x) k⟩) (hf : e.fault ≠ .lost) :
    ((system s).step w (.advance j e)).store.redis.stored x = none := by
  have hredis : (exec e (.consume x) w.store).2.redis = (RedisStore.consume x w.store.redis).2 := by
    rw [exec_store hf]
    rfl
  rw [(system s).step_advance h]
  change (exec e (.consume x) w.store).2.redis.stored x = none
  rw [hredis, stored_consume, if_pos rfl]

end Event

/-- What a run from the given store has done to the challenges. -/
abbrev history (s : Services) (c : Cloud) (l : List Step) : List Event :=
  Run.events (system s).step (event s) ⟨c, []⟩ l

def Event.savedID : Event → Option String
  | .saved pairingID => some pairingID
  | _ => none

/-- The pairing ids `Initiate` has drawn are distinct, as those of `uuid.NewString` are. -/
def FreshIDs (h : List Event) : Prop := (h.filterMap Event.savedID).Nodup

instance (h : List Event) : Decidable (FreshIDs h) := inferInstanceAs (Decidable (List.Nodup _))

/-- What the guarded steps keep, given that ids are fresh, holds of a run and its history. -/
theorem history_invariant {s : Services} {c : Cloud} {l : List Step} {g : World → Step → Prop}
    {I : World × List Event → Prop}
    (hstep : ∀ w h l, I (w, h) → g w l →
      (∀ x, event s w l = some (.saved x) → x ∉ h.filterMap Event.savedID) →
      I ((system s).step w l, h ++ (event s w l).toList))
    (hinit : I (⟨c, []⟩, [])) (hids : FreshIDs (history s c l))
    (hg : Run.Guarded (system s).step g ⟨c, []⟩ l) :
    I ((system s).run c l, history s c l) := by
  have hfresh : Run.Guarded (Run.observe (system s).step (event s))
      (fun p l => ∀ b x, event s p.1 l = some b → b.savedID = some x → x ∉ p.2.filterMap Event.savedID)
      (⟨c, []⟩, []) l := Run.guarded_of_nodup hids
  have hinv : I (Run.exec (Run.observe (system s).step (event s)) (⟨c, []⟩, []) l) :=
    ((hg.observe (event s) []).and hfresh).invariant
      (fun p l hp hg => hstep p.1 p.2 l hp hg.1 fun x hx => hg.2 _ x hx rfl) hinit
  rwa [Run.exec_observe, List.nil_append] at hinv

end DeskSync.Fleet
