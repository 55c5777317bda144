import DeskSync.Fleet.Ledger

/-!
# The tables of the three services

The references between the tables, their unique keys, and the columns that go together (`Books`); how rows may
change (`Grows`). `Allowed` is what has to hold when a request makes a call: it is one of its calls, on rows of its
user.

`books_exec`, `exec_grows`: an allowed call keeps the tables in order, and no call loses, renames or hands over a
row.
-/

namespace DeskSync.Fleet

open Backend Proc

/-! ### The invariant -/

/-- The pairing exists, between these devices and of this user. -/
def Paired (db : FleetDb) (id userID mobile desktop : String) : Prop :=
  ∃ p ∈ db.pairings, p.id = id ∧ p.userID = userID ∧ p.mobileDeviceID = mobile ∧ p.desktopDeviceID = desktop

/-- The session exists, over this pairing and of this user. -/
def SessionOf (db : FleetDb) (id pairingID userID : String) : Prop :=
  ∃ x ∈ db.sessions, x.id = id ∧ x.pairingID = pairingID ∧ x.userID = userID

/-- The columns of a session that its end sets. -/
def Session.Coherent (x : Session) : Prop :=
  x.status = .connecting ∧ x.endedAt = none ∧ x.endReason = none ∨
    x.status = .ended ∧ x.endedAt.isSome ∧ x.endReason.isSome

structure Books (w : Cloud) : Prop where
  ledger : Ledger w
  accounts : ∀ d ∈ w.db.devices, d.userID ∈ w.db.users
  presence : ∀ d ∈ w.db.devices, d.revokedAt.isSome → d.status = .offline
  pairs : (w.db.pairings.map fun p => (p.mobileDeviceID, p.desktopDeviceID)).Nodup
  revoked : ∀ p ∈ w.db.pairings, p.revokedAt.isSome = true ↔ p.status = .revoked
  sessions : (w.db.sessions.map (·.id)).Nodup
  paired : ∀ x ∈ w.db.sessions, ∃ mobile desktop, Paired w.db x.pairingID x.userID mobile desktop
  coherent : ∀ x ∈ w.db.sessions, x.Coherent
  events : ∀ ev ∈ w.db.sessionEvents, ∃ x ∈ w.db.sessions, x.id = ev.sessionID

/-- How the tables change: no row is lost, renamed or handed over. -/
structure Grows (w w' : Cloud) : Prop where
  users : ∀ u ∈ w.db.users, u ∈ w'.db.users
  devices : DevicesLE w.db w'.db
  pairings : ∀ id userID mobile desktop, Paired w.db id userID mobile desktop →
    Paired w'.db id userID mobile desktop
  sessions : ∀ id pairingID userID, SessionOf w.db id pairingID userID → SessionOf w'.db id pairingID userID
  ended : ∀ x ∈ w.db.sessions, x.status = .ended → x ∈ w'.db.sessions
  log : w.db.sessionEvents <+: w'.db.sessionEvents

theorem Grows.refl (w : Cloud) : Grows w w where
  users := fun _ h => h
  devices := fun _ _ h => h
  pairings := fun _ _ _ _ h => h
  sessions := fun _ _ _ h => h
  ended := fun _ h _ => h
  log := List.prefix_rfl

theorem Grows.trans {a b c : Cloud} (h : Grows a b) (h' : Grows b c) : Grows a c where
  users := fun u hu => h'.users u (h.users u hu)
  devices := fun id u ho => h'.devices id u (h.devices id u ho)
  pairings := fun id u m d hp => h'.pairings id u m d (h.pairings id u m d hp)
  sessions := fun id p u hs => h'.sessions id p u (h.sessions id p u hs)
  ended := fun x hx he => h'.ended x (h.ended x hx he) he
  log := h.log.trans h'.log

/-! ### What a call asks for -/

/-- The user a request is made for. -/
def Request.userID : Request → String
  | .registerDevice userID _ | .listDevices userID | .getDevice userID _ | .revokeDevice userID _
  | .heartbeat userID _ _ | .initiate userID _ | .confirm userID _ _ _ | .listPairings userID
  | .revokePairing userID _ | .createSession userID _ | .getSession userID _ | .listSessions userID
  | .pendingForDevice userID _ | .endSession userID _ _ => userID

/-- The rows a call refers to belong to the user of the request. -/
def Refers (userID : String) (db : FleetDb) : Cmd → Prop
  | .save ch _ => ch.userID = userID ∧ Owned db ch.desktopDeviceID userID
  | .upsertActivePairing userID' mobile desktop =>
    userID' = userID ∧ Owned db mobile userID ∧ Owned db desktop userID
  | .createSession x => x.userID = userID ∧ x.status = .connecting ∧
      ∃ mobile desktop, Paired db x.pairingID userID mobile desktop
  | .appendEvent id _ _ => ∃ pairingID, SessionOf db id pairingID userID
  | _ => True

/-- A call the request may make, on rows of its user. -/
def Allowed (q : Request) (c : Cmd) (w : Cloud) : Prop := q.mayCall c ∧ Refers q.userID w.db c

theorem Allowed.later {q : Request} {c : Cmd} {w w' : Cloud} (h : Allowed q c w) (hle : Grows w w') :
    Allowed q c w' := by
  refine ⟨h.1, ?_⟩
  have h := h.2
  cases c with
  | save ch ttl => exact ⟨h.1, hle.devices _ _ h.2⟩
  | upsertActivePairing u m d => exact ⟨h.1, hle.devices _ _ h.2.1, hle.devices _ _ h.2.2⟩
  | createSession x =>
    obtain ⟨hu, hs, m, d, hp⟩ := h
    exact ⟨hu, hs, m, d, hle.pairings _ _ _ _ hp⟩
  | appendEvent id ty detail =>
    obtain ⟨p, hs⟩ := h
    exact ⟨p, hle.sessions _ _ _ hs⟩
  | _ => trivial

/-! ### What a call does -/

section Calls
variable {e : Env} {c : Cmd} {w : Cloud}

/-- A statement that writes, with the tables it leaves. -/
inductive Writes (e : Env) (db : FleetDb) : Cmd → FleetDb → Prop
  | register (reg : Registration) : Writes e db (.registerDevice reg) (DeviceRepo.register e reg db).2
  | revokeDevice (id userID : String) :
    Writes e db (.revokeDevice id userID) (DeviceRepo.revoke e.dbNow id userID db).2
  | heartbeat (id userID : String) (status : Presence) :
    Writes e db (.heartbeat id userID status) (DeviceRepo.heartbeat e.dbNow id userID status db).2
  | upsert (userID mobile desktop : String) : Writes e db (.upsertActivePairing userID mobile desktop)
    (PairingRepo.upsertActivePairing e userID mobile desktop db).2
  | revokePairing (id userID : String) :
    Writes e db (.revokePairing id userID) (PairingRepo.revokePairing e.dbNow id userID db).2
  | createSession (x : Session) : Writes e db (.createSession x) (SessionRepo.createSession e x db).2
  | endSession (id userID reason : String) :
    Writes e db (.endSession id userID reason) (SessionRepo.endSession e.dbNow id userID reason db).2
  | appendEvent (id ty : String) (detail : List (String × String)) :
    Writes e db (.appendEvent id ty detail) (SessionRepo.appendEvent e.dbNow id ty detail db).2

/-- A call leaves the tables as they are, or is a statement that writes. -/
theorem exec_db (e : Env) (c : Cmd) (w : Cloud) :
    (exec e c w).2.db = w.db ∨ Writes e w.db c (exec e c w).2.db := by
  by_cases hf : e.fault = .lost
  · rw [exec_lost hf]
    exact .inl rfl
  · rw [exec_store hf]
    cases c with
    | registerDevice reg => exact .inr (.register reg)
    | revokeDevice id userID => exact .inr (.revokeDevice id userID)
    | heartbeat id userID status => exact .inr (.heartbeat id userID status)
    | upsertActivePairing userID mobile desktop => exact .inr (.upsert userID mobile desktop)
    | revokePairing id userID => exact .inr (.revokePairing id userID)
    | createSession x => exact .inr (.createSession x)
    | endSession id userID reason => exact .inr (.endSession id userID reason)
    | appendEvent id ty detail => exact .inr (.appendEvent id ty detail)
    | getDevice id userID => left; simp only [Cmd.effect, onDb, DeviceRepo.get]; split <;> rfl
    | deviceForUser id userID => left; simp only [Cmd.effect, onDb, PairingRepo.deviceForUser]; split <;> rfl
    | pairingForUser id userID => left; simp only [Cmd.effect, onDb, SessionRepo.pairingForUser]; split <;> rfl
    | getSession id userID => left; simp only [Cmd.effect, onDb, SessionRepo.getSession]; split <;> rfl
    | _ => exact .inl rfl

theorem exec_users (e : Env) (c : Cmd) (w : Cloud) : (exec e c w).2.db.users = w.db.users := by
  rcases exec_db e c w with h | h
  · rw [h]
  · generalize (exec e c w).2.db = db' at h ⊢
    cases h with
    | register reg => unfold DeviceRepo.register; split <;> split_ifs <;> rfl
    | revokeDevice id userID => unfold DeviceRepo.revoke; split_ifs <;> rfl
    | heartbeat id userID status => unfold DeviceRepo.heartbeat; split <;> rfl
    | upsert userID mobile desktop =>
      unfold PairingRepo.upsertActivePairing
      split
      · rfl
      · split_ifs <;> rfl
    | revokePairing id userID => unfold PairingRepo.revokePairing; split_ifs <;> rfl
    | createSession x => unfold SessionRepo.createSession; split_ifs <;> rfl
    | endSession id userID reason => rfl
    | appendEvent id ty detail => unfold SessionRepo.appendEvent; split_ifs <;> rfl

/-- What the updates of a device keep and a new device has. -/
theorem exec_devices {P : DeviceRow → Prop}
    (hnew : ∀ reg, c = .registerDevice reg → reg.userID ∈ w.db.users → P (DeviceRepo.inserted e reg))
    (hreg : ∀ reg d, P d → P (DeviceRepo.reregister e.dbNow reg d))
    (hrev : ∀ id u d, P d → P (DeviceRepo.revokeDevice e.dbNow id u d))
    (hbeat : ∀ id u st d, P d → P (DeviceRepo.beat e.dbNow id u st d)) (h : ∀ d ∈ w.db.devices, P d) :
    ∀ d ∈ (exec e c w).2.db.devices, P d := by
  have hmap {f : DeviceRow → DeviceRow} (hf : ∀ d, P d → P (f d)) : ∀ d ∈ w.db.devices.map f, P d :=
    List.forall_mem_map.2 fun d hd => hf d (h d hd)
  rcases exec_tables e c w with ⟨hd, -⟩ | ⟨-, ⟨reg, rfl, hdb⟩ | ⟨id, u, rfl, hdb⟩ | ⟨id, u, st, rfl, hdb⟩ |
    ⟨u, m, d, rfl, hdb⟩ | ⟨id, u, rfl, hdb⟩⟩
  · rwa [hd]
  · rw [hdb]
    unfold DeviceRepo.register
    split
    · split_ifs
      · exact hmap (hreg reg)
      · exact h
    · split_ifs with hn
      · exact h
      · simp only [Bool.or_eq_true, Bool.not_eq_true', not_or, Bool.not_eq_false, List.contains_iff_mem] at hn
        exact List.forall_mem_append.2 ⟨h, List.forall_mem_singleton.2 (hnew reg rfl hn.1)⟩
  · rw [hdb]
    unfold DeviceRepo.revoke
    split_ifs
    · exact hmap (hrev id u)
    · exact h
  · rw [hdb]
    unfold DeviceRepo.heartbeat
    split
    · exact hmap (hbeat id u st)
    · exact h
  · rw [hdb]
    unfold PairingRepo.upsertActivePairing
    split
    · exact h
    · split_ifs <;> exact h
  · rw [hdb]
    unfold PairingRepo.revokePairing
    split_ifs <;> exact h

/-- What becomes of the pairings: each is updated without changing what it stands between, or one is created
between two devices that had none. -/
theorem exec_pairings (e : Env) (c : Cmd) (w : Cloud) :
    (∃ f, SamePair f ∧ (exec e c w).2.db.pairings = w.db.pairings.map f ∧
      ∀ p, (p.revokedAt.isSome = true ↔ p.status = .revoked) →
        ((f p).revokedAt.isSome = true ↔ (f p).status = .revoked)) ∨
      ∃ u m d, c = .upsertActivePairing u m d ∧
        (∀ p ∈ w.db.pairings, (p.mobileDeviceID, p.desktopDeviceID) ≠ (m, d)) ∧
        (exec e c w).2.db.pairings = w.db.pairings ++ [PairingRepo.inserted e u m d] := by
  have hsame : SamePair id := fun p => ⟨rfl, rfl, rfl, rfl⟩
  have hid (h : (exec e c w).2.db.pairings = w.db.pairings) : ∃ f, SamePair f ∧
      (exec e c w).2.db.pairings = w.db.pairings.map f ∧
        ∀ p, (p.revokedAt.isSome = true ↔ p.status = .revoked) →
          ((f p).revokedAt.isSome = true ↔ (f p).status = .revoked) :=
    ⟨id, hsame, h.trans (List.map_id _).symm, fun _ h => h⟩
  rcases exec_tables e c w with ⟨-, hd⟩ | ⟨-, ⟨reg, rfl, hdb⟩ | ⟨id, u, rfl, hdb⟩ | ⟨id, u, st, rfl, hdb⟩ |
    ⟨u, m, d, rfl, hdb⟩ | ⟨id, u, rfl, hdb⟩⟩
  · exact .inl (hid hd)
  · refine .inl (hid ?_)
    rw [hdb]
    unfold DeviceRepo.register
    split <;> split_ifs <;> rfl
  · unfold DeviceRepo.revoke at hdb
    split_ifs at hdb
    · refine .inl ⟨_, revokePairingOf_same _ _ _, by rw [hdb], fun p hp => ?_⟩
      unfold DeviceRepo.revokePairingOf
      split_ifs
      · simp
      · exact hp
    · exact .inl (hid (by rw [hdb]))
  · refine .inl (hid ?_)
    rw [hdb]
    unfold DeviceRepo.heartbeat
    split <;> rfl
  · unfold PairingRepo.upsertActivePairing at hdb
    split at hdb
    · refine .inl ⟨_, reactivate_same _ _ _, by rw [hdb], fun p hp => ?_⟩
      unfold PairingRepo.reactivate
      split_ifs
      · simp
      · exact hp
    · rename_i hfind
      split_ifs at hdb
      · exact .inl (hid (by rw [hdb]))
      · refine .inr ⟨u, m, d, rfl, fun p hp heq => ?_, by rw [hdb]⟩
        obtain ⟨rfl, rfl⟩ := Prod.mk.inj heq
        simpa using List.find?_eq_none.1 hfind p hp
  · unfold PairingRepo.revokePairing at hdb
    split_ifs at hdb
    · refine .inl ⟨_, revokeRow_same _ _ _, by rw [hdb], fun p hp => ?_⟩
      unfold PairingRepo.revokeRow
      split_ifs
      · simp
      · exact hp
    · exact .inl (hid (by rw [hdb]))

/-- What becomes of the sessions: they stay, one is created, or the open one with an id ends. -/
theorem exec_sessions (e : Env) (c : Cmd) (w : Cloud) :
    (exec e c w).2.db.sessions = w.db.sessions ∨
    (∃ x, c = .createSession x ∧ (∀ y ∈ w.db.sessions, y.id ≠ e.genUUID) ∧
      (exec e c w).2.db.sessions = w.db.sessions ++ [SessionRepo.inserted e x]) ∨
    ∃ id u reason, c = .endSession id u reason ∧
      (exec e c w).2.db.sessions = w.db.sessions.map (SessionRepo.endRow e.dbNow id u reason) := by
  rcases exec_db e c w with h | h
  · rw [h]
    exact .inl rfl
  · generalize (exec e c w).2.db = db' at h ⊢
    cases h with
    | register reg => left; unfold DeviceRepo.register; split <;> split_ifs <;> rfl
    | revokeDevice id userID => left; unfold DeviceRepo.revoke; split_ifs <;> rfl
    | heartbeat id userID status => left; unfold DeviceRepo.heartbeat; split <;> rfl
    | upsert userID mobile desktop =>
      left
      unfold PairingRepo.upsertActivePairing
      split
      · rfl
      · split_ifs <;> rfl
    | revokePairing id userID => left; unfold PairingRepo.revokePairing; split_ifs <;> rfl
    | createSession x =>
      unfold SessionRepo.createSession
      split_ifs with hn
      · exact .inl rfl
      · simp only [Bool.or_eq_true, Bool.not_eq_true', List.any_eq_true, beq_iff_eq, not_or, not_exists,
          not_and] at hn
        exact .inr (.inl ⟨x, rfl, hn.2, rfl⟩)
    | endSession id userID reason => exact .inr (.inr ⟨id, userID, reason, rfl, rfl⟩)
    | appendEvent id ty detail => left; unfold SessionRepo.appendEvent; split_ifs <;> rfl

/-- What becomes of the log: one event of an existing session may be added. -/
theorem exec_log (e : Env) (c : Cmd) (w : Cloud) :
    (exec e c w).2.db.sessionEvents = w.db.sessionEvents ∨
    ∃ id ty detail, c = .appendEvent id ty detail ∧ (∃ x ∈ w.db.sessions, x.id = id) ∧
      (exec e c w).2.db.sessionEvents = w.db.sessionEvents ++ [⟨id, ty, detail, e.dbNow⟩] := by
  rcases exec_db e c w with h | h
  · rw [h]
    exact .inl rfl
  · generalize (exec e c w).2.db = db' at h ⊢
    cases h with
    | register reg => left; unfold DeviceRepo.register; split <;> split_ifs <;> rfl
    | revokeDevice id userID => left; unfold DeviceRepo.revoke; split_ifs <;> rfl
    | heartbeat id userID status => left; unfold DeviceRepo.heartbeat; split <;> rfl
    | upsert userID mobile desktop =>
      left
      unfold PairingRepo.upsertActivePairing
      split
      · rfl
      · split_ifs <;> rfl
    | revokePairing id userID => left; unfold PairingRepo.revokePairing; split_ifs <;> rfl
    | createSession x => left; unfold SessionRepo.createSession; split_ifs <;> rfl
    | endSession id userID reason => exact .inl rfl
    | appendEvent id ty detail =>
      unfold SessionRepo.appendEvent
      split_ifs with hany
      · exact .inr ⟨id, ty, detail, rfl, by simpa using hany, rfl⟩
      · exact .inl rfl

/-! ### The invariant is kept -/

theorem endRow_same (now : Time) (id u reason : String) (x : Session) :
    (SessionRepo.endRow now id u reason x).id = x.id ∧
      (SessionRepo.endRow now id u reason x).pairingID = x.pairingID ∧
      (SessionRepo.endRow now id u reason x).userID = x.userID := by
  unfold SessionRepo.endRow
  split_ifs <;> exact ⟨rfl, rfl, rfl⟩

/-- No row is lost, renamed or handed over. -/
theorem exec_grows (e : Env) (c : Cmd) (w : Cloud) : Grows w (exec e c w).2 where
  users := fun _ hu => (exec_users e c w).symm ▸ hu
  devices := exec_devicesLE
  pairings := by
    rintro id u m d ⟨p, hp, hkeys⟩
    rcases exec_pairings e c w with ⟨f, hf, hdb, -⟩ | ⟨u', m', d', -, -, hdb⟩
    · obtain ⟨hid, hu, hm, hd⟩ := hf p
      exact ⟨f p, hdb ▸ List.mem_map_of_mem hp, by rwa [hid, hu, hm, hd]⟩
    · exact ⟨p, hdb ▸ List.mem_append_left _ hp, hkeys⟩
  sessions := by
    rintro id pid u ⟨x, hx, hkeys⟩
    rcases exec_sessions e c w with hdb | ⟨y, -, -, hdb⟩ | ⟨id', u', reason, -, hdb⟩
    · exact ⟨x, hdb ▸ hx, hkeys⟩
    · exact ⟨x, hdb ▸ List.mem_append_left _ hx, hkeys⟩
    · obtain ⟨hid, hp, hu⟩ := endRow_same e.dbNow id' u' reason x
      exact ⟨_, hdb ▸ List.mem_map_of_mem hx, by rwa [hid, hp, hu]⟩
  ended := by
    intro x hx hended
    rcases exec_sessions e c w with hdb | ⟨y, -, -, hdb⟩ | ⟨id', u', reason, -, hdb⟩
    · exact hdb ▸ hx
    · exact hdb ▸ List.mem_append_left _ hx
    · have hstay : SessionRepo.endRow e.dbNow id' u' reason x = x := by
        unfold SessionRepo.endRow
        rw [if_neg fun h => h.2.2.1 hended]
      exact hdb ▸ List.mem_map.2 ⟨x, hx, hstay⟩
  log := by
    rcases exec_log e c w with hdb | ⟨id, ty, detail, -, -, hdb⟩
    · rw [hdb]
    · rw [hdb]
      exact List.prefix_append _ _

/-- An allowed call keeps the invariant. -/
theorem books_exec {q : Request} (h : Books w) (hc : Allowed q c w) : Books (exec e c w).2 := by
  have hgrows := exec_grows e c w
  have hrefers := hc.2
  refine ⟨ledger_exec h.ledger ?_ ?_, ?_, ?_, ?_, ?_, ?_, ?_, ?_, ?_⟩
  · rintro ch ttl rfl
    obtain ⟨hu, ho⟩ := hrefers
    rwa [hu]
  · rintro u m d rfl
    obtain ⟨rfl, hm, hd⟩ := hrefers
    exact ⟨hm, hd⟩
  · rw [exec_users]
    refine exec_devices (P := fun d => d.userID ∈ w.db.users) (fun _ _ hu => hu) (fun reg d hd => ?_)
      (fun id u d hd => ?_) (fun id u st d hd => ?_) h.accounts
    · rwa [reregister_userID]
    · rwa [revokeDevice_userID]
    · rwa [beat_userID]
  · refine exec_devices (P := fun d => d.revokedAt.isSome → d.status = .offline) (fun _ _ _ _ => rfl)
      (fun reg d hd => ?_) (fun id u d hd => ?_) (fun id u st d hd => ?_) h.presence
    · unfold DeviceRepo.reregister
      split_ifs
      · rintro ⟨⟩
      · exact hd
    · unfold DeviceRepo.revokeDevice
      split_ifs
      · exact fun _ => rfl
      · exact hd
    · -- only a device that is not revoked gets a heartbeat
      unfold DeviceRepo.beat
      split_ifs with howns
      · obtain ⟨-, -, hlive⟩ := owns_iff.1 howns
        intro hrev
        rw [hlive] at hrev
        cases hrev
      · exact hd
  · rcases exec_pairings e c w with ⟨f, hf, hdb, -⟩ | ⟨u, m, d, -, hnew, hdb⟩
    · have hkeys : (fun p => ((f p).mobileDeviceID, (f p).desktopDeviceID)) =
          fun p => (p.mobileDeviceID, p.desktopDeviceID) := by
        funext p
        rw [(hf p).2.2.1, (hf p).2.2.2]
      rw [hdb, List.map_map, Function.comp_def, hkeys]
      exact h.pairs
    · rw [hdb]
      exact nodup_column (fun p : PairingRow => (p.mobileDeviceID, p.desktopDeviceID)) h.pairs hnew
  · rcases exec_pairings e c w with ⟨f, -, hdb, hrev⟩ | ⟨u, m, d, -, -, hdb⟩
    · rw [hdb]
      exact List.forall_mem_map.2 fun p hp => hrev p (h.revoked p hp)
    · rw [hdb]
      refine List.forall_mem_append.2 ⟨h.revoked, List.forall_mem_singleton.2 ?_⟩
      simp [PairingRepo.inserted]
  · rcases exec_sessions e c w with hdb | ⟨x, -, hnew, hdb⟩ | ⟨id, u, reason, -, hdb⟩
    · rw [hdb]
      exact h.sessions
    · rw [hdb]
      exact nodup_column (fun x : Session => x.id) h.sessions hnew
    · have hids : (fun x => (SessionRepo.endRow e.dbNow id u reason x).id) = (·.id) := by
        funext x
        exact (endRow_same e.dbNow id u reason x).1
      rw [hdb, List.map_map, Function.comp_def, hids]
      exact h.sessions
  · have hold : ∀ x ∈ w.db.sessions,
        ∃ mobile desktop, Paired (exec e c w).2.db x.pairingID x.userID mobile desktop := by
      intro x hx
      obtain ⟨m, d, hp⟩ := h.paired x hx
      exact ⟨m, d, hgrows.pairings _ _ _ _ hp⟩
    intro y hy
    rcases exec_sessions e c w with hdb | ⟨x, rfl, -, hdb⟩ | ⟨id, u, reason, -, hdb⟩
    · exact hold y (hdb ▸ hy)
    · rw [hdb] at hy
      rcases List.mem_append.1 hy with hy | hy
      · exact hold y hy
      · obtain rfl := List.mem_singleton.1 hy
        obtain ⟨hu, -, m, d, hp⟩ := hrefers
        exact ⟨m, d, hgrows.pairings _ _ _ _ (hu ▸ hp)⟩
    · rw [hdb] at hy
      obtain ⟨x, hx, rfl⟩ := List.mem_map.1 hy
      obtain ⟨-, hp, hu⟩ := endRow_same e.dbNow id u reason x
      rw [hp, hu]
      exact hold x hx
  · rcases exec_sessions e c w with hdb | ⟨x, rfl, -, hdb⟩ | ⟨id, u, reason, -, hdb⟩
    · rw [hdb]
      exact h.coherent
    · rw [hdb]
      refine List.forall_mem_append.2 ⟨h.coherent, List.forall_mem_singleton.2 (.inl ?_)⟩
      exact ⟨hrefers.2.1, rfl, rfl⟩
    · rw [hdb]
      refine List.forall_mem_map.2 fun x hx => ?_
      unfold SessionRepo.endRow
      split_ifs
      · exact .inr ⟨rfl, rfl, rfl⟩
      · exact h.coherent x hx
  · have hold : ∀ ev ∈ w.db.sessionEvents, ∃ x ∈ (exec e c w).2.db.sessions, x.id = ev.sessionID := by
      intro ev hev
      obtain ⟨x, hx, hid⟩ := h.events ev hev
      obtain ⟨y, hy, hyid, -⟩ := hgrows.sessions x.id x.pairingID x.userID ⟨x, hx, rfl, rfl, rfl⟩
      exact ⟨y, hy, hyid.trans hid⟩
    rcases exec_log e c w with hdb | ⟨id, ty, detail, -, ⟨x, hx, hid⟩, hdb⟩
    · rw [hdb]
      exact hold
    · rw [hdb]
      refine List.forall_mem_append.2 ⟨hold, List.forall_mem_singleton.2 ?_⟩
      obtain ⟨y, hy, hyid, -⟩ := hgrows.sessions x.id x.pairingID x.userID ⟨x, hx, rfl, rfl, rfl⟩
      exact ⟨y, hy, hyid.trans hid⟩

end Calls

/-- The clock of the challenge store does not touch the tables. -/
theorem books_tick {w : Cloud} (h : Books w) (d : Tick) :
    Books { w with redis := w.redis.tick d } ∧ Grows w { w with redis := w.redis.tick d } :=
  ⟨{ h with ledger := ledger_tick h.ledger d }, { Grows.refl w with }⟩

end DeskSync.Fleet
