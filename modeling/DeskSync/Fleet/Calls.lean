import DeskSync.Fleet.Service

/-!
# Which calls a request makes, and what a call does

`start_only`: a request makes the calls of its own `mayCall` only. `exec_redis` says what a call can do
to the challenge store; all that later modules know of that store they get from it. Redis's clock never
goes back, so a challenge that is gone stays gone until it is saved again.
-/

namespace DeskSync.Fleet

open Backend Proc

/-! ### Requests -/

/-- The calls a request may make. -/
def Request.mayCall : Request → Cmd → Prop
  | .registerDevice userID _, .registerDevice reg => reg.userID = userID ∧ validKind reg.kind
  | .listDevices userID, .listDevices userID' => userID' = userID
  | .getDevice userID id, .getDevice id' userID' => id' = id ∧ userID' = userID
  | .revokeDevice userID id, .revokeDevice id' userID' => id' = id ∧ userID' = userID
  | .heartbeat userID id _, .heartbeat id' userID' status =>
      id' = id ∧ userID' = userID ∧ (status = .online ∨ status = .offline)
  | .initiate userID desktop, .deviceForUser id userID' => id = desktop ∧ userID' = userID
  | .initiate userID desktop, .save ch _ => ch.userID = userID ∧ ch.desktopDeviceID = desktop
  | .confirm _ pairingID _ _, .get id => id = pairingID
  | .confirm _ pairingID _ _, .recordFailedAttempt id => id = pairingID
  | .confirm _ pairingID _ _, .consume id => id = pairingID
  | .confirm userID _ _ mobile, .deviceForUser id userID' => id = mobile ∧ userID' = userID
  | .confirm userID _ _ mobile, .upsertActivePairing userID' id _ => userID' = userID ∧ id = mobile
  | .listPairings userID, .listPairings userID' => userID' = userID
  | .revokePairing userID id, .revokePairing id' userID' => id' = id ∧ userID' = userID
  | .createSession userID pairingID, .pairingForUser id userID' => id = pairingID ∧ userID' = userID
  | .createSession userID pairingID, .createSession s => s.pairingID = pairingID ∧ s.userID = userID
  | .createSession _ _, .appendEvent _ _ _ => True
  | .getSession userID id, .getSession id' userID' => id' = id ∧ userID' = userID
  | .listSessions userID, .listSessions userID' _ => userID' = userID
  | .pendingForDevice userID desktop, .pendingSessionsForDevice userID' id _ =>
      userID' = userID ∧ id = desktop
  | .endSession userID id _, .endSession id' userID' _ => id' = id ∧ userID' = userID
  | .endSession _ id _, .appendEvent id' _ _ => id' = id
  | _, _ => False

section Handlers
variable (s : Services)

theorem register_only (userID : String) (reg : Registration) :
    (DeviceService.register userID reg).Only (Request.registerDevice userID reg).mayCall := by
  unfold DeviceService.register
  dsimp only
  generalize (trimSpace reg.name == "" || decide (maxNameLen < (trimSpace reg.name).utf8ByteSize)) = unnamed
  generalize validPublicKey reg.publicKey = valid
  split_ifs with hkind
  · trivial
  · trivial
  · trivial
  · trivial
  · refine ⟨⟨rfl, by simpa using hkind⟩, ?_⟩
    rintro ⟨e | device, here⟩
    · cases e <;> trivial
    · trivial

theorem heartbeat_only (userID id : String) (status : Presence) :
    (DeviceService.heartbeat userID id status).Only (Request.heartbeat userID id status).mayCall := by
  refine ⟨⟨rfl, rfl, ?_⟩, ?_⟩
  · split_ifs with h
    · exact .inl rfl
    · by_cases hon : status = .online
      · exact .inl hon
      · exact .inr (not_not.1 fun hoff => h ⟨hon, hoff⟩)
  · rintro ⟨e | device, here⟩
    · cases e <;> trivial
    · trivial

theorem initiate_only (userID desktop : String) :
    (s.pairing.initiate userID desktop).Only (Request.initiate userID desktop).mayCall := by
  unfold PairingService.initiate
  generalize blank desktop = missing
  split_ifs
  · trivial
  · refine ⟨⟨rfl, rfl⟩, ?_⟩
    rintro ⟨e | dev, here⟩
    · cases e <;> trivial
    · dsimp only [Prog.bind]
      split_ifs
      · trivial
      · split
        · trivial
        · refine ⟨⟨rfl, rfl⟩, ?_⟩
          rintro ⟨_ | _, here'⟩ <;> trivial

theorem authorize_only (userID pairingID code mobile desktop : String) :
    (PairingService.authorize userID pairingID mobile desktop).Only
      (Request.confirm userID pairingID code mobile).mayCall := by
  refine ⟨⟨rfl, rfl⟩, ?_⟩
  rintro ⟨e | dev, here⟩
  · cases e <;> trivial
  · dsimp only [Prog.bind]
    split_ifs
    · trivial
    · refine ⟨⟨rfl, rfl⟩, ?_⟩
      rintro ⟨_ | pairing, here'⟩
      · trivial
      · exact ⟨rfl, fun _ => trivial⟩

theorem confirm_only (userID pairingID code mobile : String) :
    (s.pairing.confirm userID pairingID code mobile).Only
      (Request.confirm userID pairingID code mobile).mayCall := by
  unfold PairingService.confirm
  generalize (blank pairingID || blank code || blank mobile) = missing
  split_ifs
  · trivial
  · refine ⟨rfl, ?_⟩
    rintro ⟨e | ch, here⟩
    · cases e <;> trivial
    · dsimp only [Prog.bind, PairingService.checkChallenge]
      split_ifs
      · trivial
      · exact ⟨rfl, fun _ => trivial⟩
      · refine ⟨rfl, ?_⟩
        rintro ⟨_ | attempts, here'⟩
        · trivial
        · dsimp only [Prog.bind]
          split_ifs
          · exact ⟨rfl, fun _ => trivial⟩
          · trivial
      · exact authorize_only userID pairingID code mobile ch.desktopDeviceID

theorem createSession_only (userID pairingID : String) :
    (s.session.createSession userID pairingID).Only
      (Request.createSession userID pairingID).mayCall := by
  unfold SessionService.createSession
  split_ifs
  · trivial
  · refine ⟨⟨rfl, rfl⟩, ?_⟩
    rintro ⟨e | pairing, here⟩
    · cases e <;> trivial
    · dsimp only [Prog.bind]
      split_ifs
      · trivial
      · refine ⟨⟨rfl, rfl⟩, ?_⟩
        rintro ⟨_ | session, here'⟩
        · trivial
        · dsimp only [Prog.bind]
          split
          · trivial
          · exact ⟨trivial, fun _ => trivial⟩

theorem pendingForDevice_only (userID desktop : String) :
    (s.session.pendingForDevice userID desktop).Only
      (Request.pendingForDevice userID desktop).mayCall := by
  unfold SessionService.pendingForDevice
  split_ifs
  · trivial
  · refine ⟨⟨rfl, rfl⟩, ?_⟩
    rintro ⟨_ | sessions, here⟩ <;> trivial

theorem endSession_only (userID id reason : String) :
    (SessionService.endSession userID id reason).Only (Request.endSession userID id reason).mayCall := by
  refine ⟨⟨rfl, rfl⟩, ?_⟩
  rintro ⟨e | session, here⟩
  · cases e <;> trivial
  · exact ⟨rfl, fun _ => trivial⟩

/-- A request makes its own calls only. -/
theorem start_only (q : Request) : (q.start s).Only q.mayCall := by
  cases q with
  | registerDevice userID reg => exact (register_only userID reg).map _
  | heartbeat userID id status => exact (heartbeat_only userID id status).map _
  | initiate userID desktop =>
    have h := initiate_only s userID desktop
    show (Response.challenge <$> s.pairing.initiate userID desktop).Only _
    generalize s.pairing.initiate userID desktop = p at h ⊢
    exact h.map _
  | confirm userID pairingID code mobile =>
    have h := confirm_only s userID pairingID code mobile
    show (Response.pairing <$> s.pairing.confirm userID pairingID code mobile).Only _
    generalize s.pairing.confirm userID pairingID code mobile = p at h ⊢
    exact h.map _
  | createSession userID pairingID => exact (createSession_only s userID pairingID).map _
  | pendingForDevice userID desktop => exact (pendingForDevice_only s userID desktop).map _
  | endSession userID id reason => exact (endSession_only userID id reason).map _
  | listDevices userID => exact ⟨rfl, fun ⟨r, _⟩ => by cases r <;> trivial⟩
  | listPairings userID => exact ⟨rfl, fun ⟨r, _⟩ => by cases r <;> trivial⟩
  | listSessions userID => exact ⟨rfl, fun ⟨r, _⟩ => by cases r <;> trivial⟩
  | getDevice userID id =>
    refine ⟨⟨rfl, rfl⟩, ?_⟩
    rintro ⟨e | device, here⟩
    · cases e <;> trivial
    · trivial
  | revokeDevice userID id =>
    refine ⟨⟨rfl, rfl⟩, ?_⟩
    rintro ⟨e | _, here⟩
    · cases e <;> trivial
    · trivial
  | revokePairing userID id =>
    refine ⟨⟨rfl, rfl⟩, ?_⟩
    rintro ⟨e | _, here⟩
    · cases e <;> trivial
    · trivial
  | getSession userID id =>
    refine ⟨⟨rfl, rfl⟩, ?_⟩
    rintro ⟨e | session, here⟩
    · cases e <;> trivial
    · trivial

end Handlers

/-- Every request in flight makes its own calls only. -/
theorem only_step {s : Services} {w : World} (h : w.All fun q p => p.Only q.mayCall) (l : Step) :
    ((system s).step w l).All fun q p => p.Only q.mayCall :=
  h.step (fun q _ _ => start_only s q) fun _ _ _ _ _ _ _ hp => hp.2 _

/-! ### Replies -/

variable {e : Env} {w : Cloud}

/-- A call that succeeds has gone through. -/
theorem exec_ok {c : Cmd} {r : c.Res} (h : (exec e c w).1.1 = .ok r) :
    e.fault = .none ∧ (c.effect e w).1 = .ok r :=
  Fault.apply_ok (k := c.effect e) h

/-- A call that is not lost leaves the store its effect leaves. -/
theorem exec_store (h : e.fault ≠ .lost) (c : Cmd) : (exec e c w).2 = (c.effect e w).2 :=
  Fault.apply_applied h

theorem exec_lost (h : e.fault = .lost) (c : Cmd) : (exec e c w).2 = w := by
  simp only [exec, h, Fault.apply]

theorem exec_goes (h : e.fault = .none) (c : Cmd) :
    (exec e c w).1.1 = (c.effect e w).1 ∧ (exec e c w).2 = (c.effect e w).2 := by
  simp only [exec, h, Fault.apply, and_self]

/-! ### The challenge store -/

/-- What a call can do to Redis. -/
theorem exec_redis (e : Env) (c : Cmd) (w : Cloud) :
    (exec e c w).2.redis = w.redis ∨ e.fault ≠ .lost ∧
      ((∃ ch ttl, c = .save ch ttl ∧ (exec e c w).2.redis = (RedisStore.save ch ttl w.redis).2) ∨
        (∃ id, c = .recordFailedAttempt id ∧
          (exec e c w).2.redis = (RedisStore.recordFailedAttempt id w.redis).2) ∨
        ∃ id, c = .consume id ∧ (exec e c w).2.redis = (RedisStore.consume id w.redis).2) := by
  by_cases hf : e.fault = .lost
  · exact .inl (by rw [exec_lost hf])
  · rw [exec_store hf]
    cases c with
    | save ch ttl => exact .inr ⟨hf, .inl ⟨ch, ttl, rfl, rfl⟩⟩
    | recordFailedAttempt id => exact .inr ⟨hf, .inr (.inl ⟨id, rfl, rfl⟩)⟩
    | consume id => exact .inr ⟨hf, .inr (.inr ⟨id, rfl, rfl⟩)⟩
    | get id =>
      left
      simp only [Cmd.effect, onRedis, RedisStore.get]
      split <;> rfl
    | _ => exact .inl rfl

section Redis
variable (r : Redis) (id x : String) (ch : Challenge) (ttl d : Time)

theorem stored_save :
    (RedisStore.save ch ttl r).2.stored x =
      if x = ch.pairingID then some ⟨ch, r.now + ttl⟩ else r.stored x := by
  by_cases h : x = ch.pairingID
  · subst h
    simp [RedisStore.save, Redis.stored]
  · rw [if_neg h]
    simp only [RedisStore.save, Redis.stored, Function.update_of_ne h]
    rfl

theorem recorded_save :
    (RedisStore.save ch ttl r).2.recorded x = if x = ch.pairingID then 0 else r.recorded x := by
  by_cases h : x = ch.pairingID
  · subst h
    simp [RedisStore.save, Redis.recorded]
  · simp [RedisStore.save, Redis.recorded, h]

@[simp] theorem stored_record : (RedisStore.recordFailedAttempt id r).2.stored x = r.stored x := rfl

theorem recorded_record_ne (h : x ≠ id) :
    (RedisStore.recordFailedAttempt id r).2.recorded x = r.recorded x := by
  simp [RedisStore.recordFailedAttempt, Redis.recorded, h]

/-- A counter that has not lapsed is incremented. -/
theorem recordFailedAttempt_live (h : r.lapsed id = false) :
    (RedisStore.recordFailedAttempt id r).1 = .ok (r.recorded id + 1) ∧
      (RedisStore.recordFailedAttempt id r).2.recorded id = r.recorded id + 1 := by
  have hincr : (RedisStore.incr id r).count = r.recorded id + 1 := by
    unfold RedisStore.incr Redis.counter Redis.recorded
    cases hc : r.attempts id with
    | none => rfl
    | some c =>
      have hlive : c.expireAt.all (r.now ≤ ·) = true := by
        simp only [Redis.lapsed, hc, Option.any_some] at h
        cases hx : c.expireAt with
        | none => rfl
        | some t => simpa [hx] using h
      simp [Option.filter, hlive]
  have hcount : ∀ b : Prop, ∀ _ : Decidable b, ∀ t,
      (if b then { RedisStore.incr id r with expireAt := t } else RedisStore.incr id r).count =
        r.recorded id + 1 := by
    intro b _ t
    split <;> exact hincr
  exact ⟨congrArg _ (hcount _ _ _), by simp [RedisStore.recordFailedAttempt, Redis.recorded, hcount]⟩

theorem stored_consume :
    (RedisStore.consume id r).2.stored x = if x = id then none else r.stored x := by
  by_cases h : x = id
  · subst h
    simp [RedisStore.consume, Redis.stored]
  · rw [if_neg h]
    simp only [RedisStore.consume, Redis.stored, Function.update_of_ne h]
    rfl

theorem recorded_consume_ne (h : x ≠ id) : (RedisStore.consume id r).2.recorded x = r.recorded x := by
  simp [RedisStore.consume, Redis.recorded, h]

/-- Time only takes challenges away. -/
theorem stored_tick : (r.tick d).stored x = r.stored x ∨ (r.tick d).stored x = none := by
  unfold Redis.stored Redis.tick
  cases h : r.challenges x with
  | none => exact .inl rfl
  | some s =>
    by_cases hd : r.now + d ≤ s.expireAt
    · exact .inl (by simp [Option.filter, hd, (Nat.le_add_right _ d).trans hd])
    · exact .inr (by simp [Option.filter, hd])

theorem stored_tick_none (h : r.stored x = none) : (r.tick d).stored x = none := by
  rcases stored_tick r x d with ht | ht
  · rw [ht, h]
  · exact ht

@[simp] theorem recorded_tick : (r.tick d).recorded x = r.recorded x := rfl

/-- `Get` finds the stored challenge, or nothing. -/
theorem get_ok {ch : Challenge} (h : (exec e (.get id) w).1.1 = .ok ch) :
    ∃ s, w.redis.stored id = some s ∧ s.challenge = ch := by
  have h := (exec_ok h).2
  simp only [Cmd.effect, onRedis, RedisStore.get] at h
  cases hs : w.redis.stored id with
  | none => simp [hs] at h
  | some s =>
    simp only [hs, Except.ok.injEq] at h
    exact ⟨s, rfl, h⟩

end Redis

end DeskSync.Fleet
