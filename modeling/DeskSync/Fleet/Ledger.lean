import DeskSync.Fleet.Confirm

/-!
# What the tables always satisfy

Whatever the requests, device ids stay unique, a pairing stays between two devices of its user, and a
stored challenge names a desktop its user owned when it was stored (`Ledger`). No condition is needed:
devices are never deleted and never change hands, and the two statements that create a reference check
the owner of the device in the same request.

The operations are run one after the other here. `Made` says where the calls that create rows or
references are made; `op_made` proves it by running the requests, and everything about an operation
follows from it and a lemma for each call (`Op.invariant`).
-/

namespace DeskSync.Fleet

open Backend Proc

/-! ### Devices of a user -/

/-- The device exists and belongs to the user. -/
def Owned (db : FleetDb) (id userID : String) : Prop :=
  ∃ d ∈ db.devices, d.id = id ∧ d.userID = userID

/-- The device belongs to the user, is of the kind and is not revoked. -/
def Live (db : FleetDb) (id userID : String) (kind : Kind) : Prop :=
  ∃ d ∈ db.devices, DeviceRepo.owns id userID d = true ∧ d.kind = kind

instance (db : FleetDb) (id userID : String) (kind : Kind) : Decidable (Live db id userID kind) :=
  inferInstanceAs (Decidable (∃ d ∈ db.devices, _))

theorem owns_iff {id userID : String} {d : DeviceRow} :
    DeviceRepo.owns id userID d = true ↔ d.id = id ∧ d.userID = userID ∧ d.revokedAt = none := by
  simp [DeviceRepo.owns, and_assoc]

theorem Live.owned {db : FleetDb} {id userID : String} {kind : Kind} (h : Live db id userID kind) :
    Owned db id userID := by
  obtain ⟨d, hd, howns, -⟩ := h
  obtain ⟨hid, huser, -⟩ := owns_iff.1 howns
  exact ⟨d, hd, hid, huser⟩

/-! ### The invariant -/

structure Ledger (w : Cloud) : Prop where
  unique : (w.db.devices.map (·.id)).Nodup
  keys : (w.db.devices.map (·.publicKey)).Nodup
  pairings : (w.db.pairings.map (·.id)).Nodup
  owned : ∀ p ∈ w.db.pairings, Owned w.db p.mobileDeviceID p.userID ∧ Owned w.db p.desktopDeviceID p.userID
  challenges : ∀ id st, w.redis.stored id = some st →
    Owned w.db st.challenge.desktopDeviceID st.challenge.userID

theorem Ledger.init {db : FleetDb} (hu : (db.devices.map (·.id)).Nodup)
    (hk : (db.devices.map (·.publicKey)).Nodup) (hp : (db.pairings.map (·.id)).Nodup)
    (ho : ∀ p ∈ db.pairings, Owned db p.mobileDeviceID p.userID ∧ Owned db p.desktopDeviceID p.userID)
    (now : Time) : Ledger (.init db now) := by
  refine ⟨hu, hk, hp, ho, ?_⟩
  rintro id st ⟨⟩

theorem Ledger.device_eq {w : Cloud} (h : Ledger w) {a b : DeviceRow} (ha : a ∈ w.db.devices)
    (hb : b ∈ w.db.devices) (hid : a.id = b.id) : a = b :=
  List.inj_on_of_nodup_map h.unique ha hb hid

theorem Ledger.device_eq_of_key {w : Cloud} (h : Ledger w) {a b : DeviceRow} (ha : a ∈ w.db.devices)
    (hb : b ∈ w.db.devices) (hkey : a.publicKey = b.publicKey) : a = b :=
  List.inj_on_of_nodup_map h.keys ha hb hkey

theorem Ledger.pairing_eq {w : Cloud} (h : Ledger w) {p q : PairingRow} (hp : p ∈ w.db.pairings)
    (hq : q ∈ w.db.pairings) (hid : p.id = q.id) : p = q :=
  List.inj_on_of_nodup_map h.pairings hp hq hid

/-- No device is lost and none changes hands. -/
def DevicesLE (db db' : FleetDb) : Prop := ∀ id userID, Owned db id userID → Owned db' id userID

theorem devicesLE_map {db : FleetDb} {ps : List PairingRow} {f : DeviceRow → DeviceRow}
    (hid : ∀ d, (f d).id = d.id) (huser : ∀ d, (f d).userID = d.userID) :
    DevicesLE db { db with devices := db.devices.map f, pairings := ps } := by
  rintro id userID ⟨d, hd, rfl, rfl⟩
  exact ⟨f d, List.mem_map_of_mem hd, hid d, huser d⟩

section Rows
variable (now : Time) (id userID : String) (reg : Registration) (status : Presence)

@[simp] theorem reregister_id (d : DeviceRow) : (DeviceRepo.reregister now reg d).id = d.id := by
  unfold DeviceRepo.reregister; split <;> rfl

@[simp] theorem reregister_publicKey (d : DeviceRow) :
    (DeviceRepo.reregister now reg d).publicKey = d.publicKey := by
  unfold DeviceRepo.reregister; split <;> rfl

@[simp] theorem reregister_userID (d : DeviceRow) :
    (DeviceRepo.reregister now reg d).userID = d.userID := by
  unfold DeviceRepo.reregister; split <;> rfl

@[simp] theorem revokeDevice_id (d : DeviceRow) :
    (DeviceRepo.revokeDevice now id userID d).id = d.id := by
  unfold DeviceRepo.revokeDevice; split <;> rfl

@[simp] theorem revokeDevice_publicKey (d : DeviceRow) :
    (DeviceRepo.revokeDevice now id userID d).publicKey = d.publicKey := by
  unfold DeviceRepo.revokeDevice; split <;> rfl

@[simp] theorem revokeDevice_userID (d : DeviceRow) :
    (DeviceRepo.revokeDevice now id userID d).userID = d.userID := by
  unfold DeviceRepo.revokeDevice; split <;> rfl

@[simp] theorem beat_id (d : DeviceRow) : (DeviceRepo.beat now id userID status d).id = d.id := by
  unfold DeviceRepo.beat; split <;> rfl

@[simp] theorem beat_publicKey (d : DeviceRow) :
    (DeviceRepo.beat now id userID status d).publicKey = d.publicKey := by
  unfold DeviceRepo.beat; split <;> rfl

@[simp] theorem beat_userID (d : DeviceRow) :
    (DeviceRepo.beat now id userID status d).userID = d.userID := by
  unfold DeviceRepo.beat; split <;> rfl

/-- Neither the devices of a pairing nor its user are ever changed. -/
def SamePair (f : PairingRow → PairingRow) : Prop := ∀ p, (f p).id = p.id ∧ (f p).userID = p.userID ∧
  (f p).mobileDeviceID = p.mobileDeviceID ∧ (f p).desktopDeviceID = p.desktopDeviceID

theorem revokePairingOf_same : SamePair (DeviceRepo.revokePairingOf now id userID) := by
  intro p
  unfold DeviceRepo.revokePairingOf
  split <;> exact ⟨rfl, rfl, rfl, rfl⟩

theorem reactivate_same (mobile desktop : String) : SamePair (PairingRepo.reactivate now mobile desktop) := by
  intro p
  unfold PairingRepo.reactivate
  split <;> exact ⟨rfl, rfl, rfl, rfl⟩

theorem revokeRow_same : SamePair (PairingRepo.revokeRow now id userID) := by
  intro p
  unfold PairingRepo.revokeRow
  split <;> exact ⟨rfl, rfl, rfl, rfl⟩

end Rows

/-! ### What a call does to the tables -/

/-- What a call can do to the devices and the pairings. -/
theorem exec_tables (e : Env) (c : Cmd) (w : Cloud) :
    ((exec e c w).2.db.devices = w.db.devices ∧ (exec e c w).2.db.pairings = w.db.pairings) ∨
      e.fault ≠ .lost ∧
      ((∃ reg, c = .registerDevice reg ∧ (exec e c w).2.db = (DeviceRepo.register e reg w.db).2) ∨
        (∃ id userID, c = .revokeDevice id userID ∧
          (exec e c w).2.db = (DeviceRepo.revoke e.dbNow id userID w.db).2) ∨
        (∃ id userID status, c = .heartbeat id userID status ∧
          (exec e c w).2.db = (DeviceRepo.heartbeat e.dbNow id userID status w.db).2) ∨
        (∃ userID mobile desktop, c = .upsertActivePairing userID mobile desktop ∧
          (exec e c w).2.db = (PairingRepo.upsertActivePairing e userID mobile desktop w.db).2) ∨
        ∃ id userID, c = .revokePairing id userID ∧
          (exec e c w).2.db = (PairingRepo.revokePairing e.dbNow id userID w.db).2) := by
  by_cases hf : e.fault = .lost
  · rw [exec_lost hf]
    exact .inl ⟨rfl, rfl⟩
  · rw [exec_store hf]
    cases c with
    | registerDevice reg => exact .inr ⟨hf, .inl ⟨reg, rfl, rfl⟩⟩
    | revokeDevice id userID => exact .inr ⟨hf, .inr (.inl ⟨id, userID, rfl, rfl⟩)⟩
    | heartbeat id userID status => exact .inr ⟨hf, .inr (.inr (.inl ⟨id, userID, status, rfl, rfl⟩))⟩
    | upsertActivePairing userID mobile desktop =>
      exact .inr ⟨hf, .inr (.inr (.inr (.inl ⟨userID, mobile, desktop, rfl, rfl⟩)))⟩
    | revokePairing id userID => exact .inr ⟨hf, .inr (.inr (.inr (.inr ⟨id, userID, rfl, rfl⟩)))⟩
    | getDevice id userID =>
      left; simp only [Cmd.effect, onDb, DeviceRepo.get]; split <;> exact ⟨rfl, rfl⟩
    | deviceForUser id userID =>
      left; simp only [Cmd.effect, onDb, PairingRepo.deviceForUser]; split <;> exact ⟨rfl, rfl⟩
    | pairingForUser id userID =>
      left; simp only [Cmd.effect, onDb, SessionRepo.pairingForUser]; split <;> exact ⟨rfl, rfl⟩
    | createSession s =>
      left; simp only [Cmd.effect, onDb, SessionRepo.createSession]; split <;> exact ⟨rfl, rfl⟩
    | getSession id userID =>
      left; simp only [Cmd.effect, onDb, SessionRepo.getSession]; split <;> exact ⟨rfl, rfl⟩
    | appendEvent id ty detail =>
      left; simp only [Cmd.effect, onDb, SessionRepo.appendEvent]; split <;> exact ⟨rfl, rfl⟩
    | _ => exact .inl ⟨rfl, rfl⟩

variable {e : Env} {c : Cmd} {w : Cloud}

theorem exec_devicesLE : DevicesLE w.db (exec e c w).2.db := by
  rcases exec_tables e c w with ⟨hd, -⟩ | ⟨-, ⟨reg, rfl, h⟩ | ⟨id, u, rfl, h⟩ | ⟨id, u, st, rfl, h⟩ |
    ⟨u, m, d, rfl, h⟩ | ⟨id, u, rfl, h⟩⟩
  · rintro id userID ⟨d, hmem, hid, huser⟩
    exact ⟨d, hd ▸ hmem, hid, huser⟩
  · rw [h]
    unfold DeviceRepo.register
    split
    · split_ifs
      · exact devicesLE_map (by simp) (by simp)
      · exact fun _ _ h => h
    · split_ifs
      · exact fun _ _ h => h
      · rintro id userID ⟨d, hmem, hid, huser⟩
        exact ⟨d, List.mem_append_left _ hmem, hid, huser⟩
  · rw [h]
    unfold DeviceRepo.revoke
    split_ifs
    · exact devicesLE_map (by simp) (by simp)
    · exact fun _ _ h => h
  · rw [h]
    unfold DeviceRepo.heartbeat
    split
    · exact devicesLE_map (by simp) (by simp)
    · exact fun _ _ h => h
  · rw [h]
    unfold PairingRepo.upsertActivePairing
    split
    · exact fun _ _ h => h
    · split_ifs <;> exact fun _ _ h => h
  · rw [h]
    unfold PairingRepo.revokePairing
    split_ifs <;> exact fun _ _ h => h

/-- A column that the updates keep and that a new row has fresh stays without repetition. -/
theorem exec_nodup {β : Type} (f : DeviceRow → β) (hnew : ∀ reg, c = .registerDevice reg →
      w.db.devices.find? (fun d => d.publicKey == reg.publicKey) = none →
      (∀ d ∈ w.db.devices, d.id ≠ e.genUUID) → ∀ d ∈ w.db.devices, f d ≠ f (DeviceRepo.inserted e reg))
    (hreg : ∀ now reg d, f (DeviceRepo.reregister now reg d) = f d)
    (hrev : ∀ now id u d, f (DeviceRepo.revokeDevice now id u d) = f d)
    (hbeat : ∀ now id u st d, f (DeviceRepo.beat now id u st d) = f d)
    (hu : (w.db.devices.map f).Nodup) : ((exec e c w).2.db.devices.map f).Nodup := by
  rcases exec_tables e c w with ⟨hd, -⟩ | ⟨-, ⟨reg, rfl, h⟩ | ⟨id, u, rfl, h⟩ | ⟨id, u, st, rfl, h⟩ |
    ⟨u, m, d, rfl, h⟩ | ⟨id, u, rfl, h⟩⟩
  · rwa [hd]
  · rw [h]
    unfold DeviceRepo.register
    split
    · split_ifs
      · simpa [Function.comp_def, hreg] using hu
      · exact hu
    · rename_i hfind
      split_ifs with hn
      · exact hu
      · simp only [Bool.or_eq_true, Bool.not_eq_true', List.any_eq_true, beq_iff_eq, not_or,
          not_exists, not_and] at hn
        exact nodup_column f hu (hnew reg rfl hfind hn.2)
  · rw [h]
    unfold DeviceRepo.revoke
    split_ifs
    · simpa [Function.comp_def, hrev] using hu
    · exact hu
  · rw [h]
    unfold DeviceRepo.heartbeat
    split
    · simpa [Function.comp_def, hbeat] using hu
    · exact hu
  · rw [h]
    unfold PairingRepo.upsertActivePairing
    split
    · exact hu
    · split_ifs <;> exact hu
  · rw [h]
    unfold PairingRepo.revokePairing
    split_ifs <;> exact hu

theorem exec_unique (hu : (w.db.devices.map (·.id)).Nodup) :
    ((exec e c w).2.db.devices.map (·.id)).Nodup :=
  exec_nodup (·.id) (fun _ _ _ hid d hd => hid d hd) (by simp) (by simp) (by simp) hu

theorem exec_keys (hu : (w.db.devices.map (·.publicKey)).Nodup) :
    ((exec e c w).2.db.devices.map (·.publicKey)).Nodup := by
  refine exec_nodup (·.publicKey) (fun reg _ hfind _ d hd => ?_) (by simp) (by simp) (by simp) hu
  simpa [DeviceRepo.inserted] using List.find?_eq_none.1 hfind d hd

/-- A pairing after a call was there before with the same devices and user, or has been created. -/
theorem exec_pairing {p : PairingRow} (hp : p ∈ (exec e c w).2.db.pairings) :
    (∃ q ∈ w.db.pairings, q.id = p.id ∧ q.userID = p.userID ∧ q.mobileDeviceID = p.mobileDeviceID ∧
      q.desktopDeviceID = p.desktopDeviceID) ∨
      c = .upsertActivePairing p.userID p.mobileDeviceID p.desktopDeviceID := by
  have hsame : ∀ {f}, SamePair f → p ∈ w.db.pairings.map f → ∃ q ∈ w.db.pairings, q.id = p.id ∧
      q.userID = p.userID ∧ q.mobileDeviceID = p.mobileDeviceID ∧
      q.desktopDeviceID = p.desktopDeviceID := by
    rintro f hf hp
    obtain ⟨q, hq, rfl⟩ := List.mem_map.1 hp
    obtain ⟨hid, huser, hm, hd⟩ := hf q
    exact ⟨q, hq, hid.symm, huser.symm, hm.symm, hd.symm⟩
  have hid : p ∈ w.db.pairings → ∃ q ∈ w.db.pairings, q.id = p.id ∧ q.userID = p.userID ∧
      q.mobileDeviceID = p.mobileDeviceID ∧ q.desktopDeviceID = p.desktopDeviceID :=
    fun hp => ⟨p, hp, rfl, rfl, rfl, rfl⟩
  rcases exec_tables e c w with ⟨-, hd⟩ | ⟨-, ⟨reg, rfl, h⟩ | ⟨id, u, rfl, h⟩ | ⟨id, u, st, rfl, h⟩ |
    ⟨u, m, d, rfl, h⟩ | ⟨id, u, rfl, h⟩⟩
  · exact .inl (hid (hd ▸ hp))
  · rw [h] at hp
    unfold DeviceRepo.register at hp
    split at hp <;> split_ifs at hp <;> exact .inl (hid hp)
  · rw [h] at hp
    unfold DeviceRepo.revoke at hp
    split_ifs at hp
    · exact .inl (hsame (revokePairingOf_same _ _ _) hp)
    · exact .inl (hid hp)
  · rw [h] at hp
    unfold DeviceRepo.heartbeat at hp
    split at hp <;> exact .inl (hid hp)
  · rw [h] at hp
    unfold PairingRepo.upsertActivePairing at hp
    split at hp
    · exact .inl (hsame (reactivate_same _ _ _) hp)
    · split_ifs at hp
      · exact .inl (hid hp)
      · rcases List.mem_append.1 hp with hp | hp
        · exact .inl (hid hp)
        · obtain rfl := List.mem_singleton.1 hp
          exact .inr rfl
  · rw [h] at hp
    unfold PairingRepo.revokePairing at hp
    split_ifs at hp
    · exact .inl (hsame (revokeRow_same _ _ _) hp)
    · exact .inl (hid hp)

theorem exec_pairingIDs (hu : (w.db.pairings.map (·.id)).Nodup) :
    ((exec e c w).2.db.pairings.map (·.id)).Nodup := by
  have hmap : ∀ {f}, SamePair f → ((w.db.pairings.map f).map (·.id)).Nodup := by
    intro f hf
    have hids : (fun p : PairingRow => (f p).id) = (·.id) := funext fun p => (hf p).1
    rw [List.map_map, Function.comp_def, hids]
    exact hu
  rcases exec_tables e c w with ⟨-, hd⟩ | ⟨-, ⟨reg, rfl, h⟩ | ⟨id, u, rfl, h⟩ | ⟨id, u, st, rfl, h⟩ |
    ⟨u, m, d, rfl, h⟩ | ⟨id, u, rfl, h⟩⟩
  · rwa [hd]
  · rw [h]
    unfold DeviceRepo.register
    split <;> split_ifs <;> exact hu
  · rw [h]
    unfold DeviceRepo.revoke
    split_ifs
    · exact hmap (revokePairingOf_same _ _ _)
    · exact hu
  · rw [h]
    unfold DeviceRepo.heartbeat
    split <;> exact hu
  · rw [h]
    unfold PairingRepo.upsertActivePairing
    split
    · exact hmap (reactivate_same _ _ _)
    · split_ifs with hn
      · exact hu
      · simp only [Bool.or_eq_true, Bool.not_eq_true', List.any_eq_true, beq_iff_eq, not_or, not_exists,
          not_and] at hn
        exact nodup_column (fun p : PairingRow => p.id) hu hn.2
  · rw [h]
    unfold PairingRepo.revokePairing
    split_ifs
    · exact hmap (revokeRow_same _ _ _)
    · exact hu

/-- A stored challenge was stored before, or has just been saved. -/
theorem exec_stored {x : String} {st : Stored} (h : (exec e c w).2.redis.stored x = some st) :
    w.redis.stored x = some st ∨ ∃ ttl, c = .save st.challenge ttl := by
  rcases exec_redis e c w with hr | ⟨-, ⟨ch, ttl, rfl, hr⟩ | ⟨id, rfl, hr⟩ | ⟨id, rfl, hr⟩⟩ <;>
    rw [hr] at h
  · exact .inl h
  · rw [stored_save] at h
    split_ifs at h
    · cases h
      exact .inr ⟨ttl, rfl⟩
    · exact .inl h
  · exact .inl h
  · rw [stored_consume] at h
    split_ifs at h
    exact .inl h

/-- The invariant is kept by a call that creates references to the user's own devices only. -/
theorem ledger_exec (h : Ledger w)
    (hsave : ∀ ch ttl, c = .save ch ttl → Owned w.db ch.desktopDeviceID ch.userID)
    (hupsert : ∀ u m d, c = .upsertActivePairing u m d → Owned w.db m u ∧ Owned w.db d u) :
    Ledger (exec e c w).2 := by
  have hle : DevicesLE w.db (exec e c w).2.db := exec_devicesLE
  refine ⟨exec_unique h.unique, exec_keys h.keys, exec_pairingIDs h.pairings, fun p hp => ?_,
    fun x st hst => ?_⟩
  · rcases exec_pairing hp with ⟨q, hq, -, hu, hm, hd⟩ | hc
    · rw [← hu, ← hm, ← hd]
      exact ⟨hle _ _ (h.owned q hq).1, hle _ _ (h.owned q hq).2⟩
    · exact ⟨hle _ _ (hupsert _ _ _ hc).1, hle _ _ (hupsert _ _ _ hc).2⟩
  · rcases exec_stored hst with hst | ⟨ttl, hc⟩
    · exact hle _ _ (h.challenges x st hst)
    · exact hle _ _ (hsave _ _ hc)

/-! ### Calls, one request after the other -/

/-- The registration a request hands to the repository. -/
def normalized (userID : String) (reg : Registration) : Registration :=
  { reg with userID, name := trimSpace reg.name }

/-- The checks of a registration. -/
def acceptable (reg : Registration) : Bool :=
  validKind reg.kind && validPlatform reg.platform &&
    !(reg.name == "" || decide (maxNameLen < reg.name.utf8ByteSize)) && validPublicKey reg.publicKey

/-- The challenge stored under the id is the user's, has not expired by the given clock, and has the
code. -/
def Accepts (s : Services) (w : Cloud) (a : ConfirmArgs) (here : Here) (ch : Challenge) : Prop :=
  (∃ st, w.redis.stored a.pairingID = some st ∧ st.challenge = ch) ∧ verdict s a (.ok ch, here) = some true

/-- The calls that create a row or a reference. -/
def Cmd.creates : Cmd → Bool
  | .registerDevice _ | .save _ _ | .upsertActivePairing _ _ _ => true
  | _ => false

/-- Where a request that starts from `w₀` makes its calls. -/
def Made (s : Services) (w₀ : Cloud) (es : ℕ → Env) : Request → Env → Cmd → Cloud → Prop
  | .registerDevice userID reg, e, .registerDevice reg', w =>
    w = w₀ ∧ e = es 0 ∧ reg' = normalized userID reg ∧ acceptable reg' = true
  | .initiate userID desktop, _, .save ch _, w =>
    w = w₀ ∧ ch.userID = userID ∧ ch.desktopDeviceID = desktop ∧ Live w.db desktop userID .desktop
  | .confirm userID pairingID code mobile, e, .upsertActivePairing userID' mobile' desktop, w =>
    w = w₀ ∧ e = es 2 ∧ userID' = userID ∧ mobile' = mobile ∧ (es 0).fault = .none ∧
      (es 1).fault = .none ∧ Live w.db mobile userID .mobile ∧
      ∃ ch, Accepts s w ⟨userID, pairingID, code, mobile⟩ (es 0).here ch ∧ desktop = ch.desktopDeviceID
  | q, _, c, _ => q.mayCall c ∧ c.creates = false

section Made
variable (s : Services) (w : Cloud) (es : ℕ → Env)

theorem exec_deviceForUser {e : Env} {id userID : String} :
    (exec e (.deviceForUser id userID) w).2 = w := by
  by_cases hf : e.fault = .lost
  · exact exec_lost hf _
  · rw [exec_store hf]
    simp only [Cmd.effect, onDb, PairingRepo.deviceForUser]
    split <;> rfl

theorem exec_get {e : Env} {id : String} : (exec e (.get id) w).2 = w := by
  by_cases hf : e.fault = .lost
  · exact exec_lost hf _
  · rw [exec_store hf]
    simp only [Cmd.effect, onRedis, RedisStore.get]
    split <;> rfl

variable {s w es}

theorem deviceForUser_ok {e : Env} {id userID : String} {dev : DeviceRef}
    (h : (exec e (.deviceForUser id userID) w).1.1 = .ok dev) :
    e.fault = .none ∧ Live w.db id userID dev.kind := by
  obtain ⟨hf, h⟩ := exec_ok h
  refine ⟨hf, ?_⟩
  simp only [Cmd.effect, onDb, PairingRepo.deviceForUser] at h
  split at h
  · rename_i row hrow
    cases h
    exact ⟨row, List.mem_of_find?_eq_some hrow, List.find?_some hrow, rfl⟩
  · cases h

theorem register_made (userID : String) (reg : Registration) :
    (DeviceService.register userID reg).Along exec (Made s w es (.registerDevice userID reg)) es w := by
  unfold DeviceService.register
  dsimp only
  generalize hunnamed :
    (trimSpace reg.name == "" || decide (maxNameLen < (trimSpace reg.name).utf8ByteSize)) = unnamed
  generalize hvalid : validPublicKey reg.publicKey = valid
  split_ifs with hkind hplat hname hkey
  · trivial
  · trivial
  · trivial
  · trivial
  · refine ⟨⟨rfl, rfl, rfl, ?_⟩, ?_⟩
    · simp only [Bool.not_eq_true', Bool.not_eq_false] at hkind hplat hkey
      simp only [Bool.not_eq_true] at hname
      simp only [acceptable, hkind, hplat, hunnamed, hname, hvalid, hkey, Bool.not_false, Bool.and_self]
    · generalize (exec (es 0) (.registerDevice _) w).1 = r
      obtain ⟨e | device, here⟩ := r
      · cases e <;> trivial
      · trivial

theorem initiate_made (userID desktop : String) :
    (s.pairing.initiate userID desktop).Along exec (Made s w es (.initiate userID desktop)) es w := by
  unfold PairingService.initiate
  generalize blank desktop = missing
  split_ifs
  · trivial
  · refine ⟨⟨⟨rfl, rfl⟩, rfl⟩, ?_⟩
    rw [exec_deviceForUser]
    cases hr : (exec (es 0) (.deviceForUser desktop userID) w).1 with
    | mk r here =>
      cases r with
      | error e => cases e <;> trivial
      | ok dev =>
        dsimp only [Prog.bind]
        split_ifs with hkind
        · trivial
        · split
          · trivial
          · have hlive := (deviceForUser_ok (congrArg Prod.fst hr)).2
            rw [not_not.1 hkind] at hlive
            refine ⟨⟨rfl, rfl, rfl, hlive⟩, ?_⟩
            generalize (exec (es 1) (.save _ _) w).1 = r
            obtain ⟨_ | _, _⟩ := r <;> trivial

/-- Past its comparison, a confirmation checks the mobile device and creates the pairing. -/
theorem authorize_made {userID pairingID code mobile : String} {ch : Challenge}
    (h₀ : (es 0).fault = .none) (hch : Accepts s w ⟨userID, pairingID, code, mobile⟩ (es 0).here ch) :
    (PairingService.authorize userID pairingID mobile ch.desktopDeviceID).Along exec
      (Made s w es (.confirm userID pairingID code mobile)) (fun n => es (n + 1)) w := by
  refine ⟨⟨⟨rfl, rfl⟩, rfl⟩, ?_⟩
  rw [exec_deviceForUser]
  cases hr : (exec (es 1) (.deviceForUser mobile userID) w).1 with
  | mk r here =>
    cases r with
    | error e => cases e <;> trivial
    | ok dev =>
      dsimp only [Prog.bind]
      split_ifs with hkind
      · trivial
      · obtain ⟨hf, hlive⟩ := deviceForUser_ok (congrArg Prod.fst hr)
        rw [not_not.1 hkind] at hlive
        refine ⟨⟨rfl, rfl, rfl, rfl, h₀, hf, hlive, ch, hch, rfl⟩, ?_⟩
        generalize (exec (es 2) (.upsertActivePairing _ _ _) w) = out
        obtain ⟨⟨_ | pairing, _⟩, w'⟩ := out
        · trivial
        · exact ⟨⟨rfl, rfl⟩, trivial⟩

theorem confirm_made (userID pairingID code mobile : String) :
    (s.pairing.confirm userID pairingID code mobile).Along exec
      (Made s w es (.confirm userID pairingID code mobile)) es w := by
  unfold PairingService.confirm
  generalize (blank pairingID || blank code || blank mobile) = missing
  split_ifs
  · trivial
  · refine ⟨⟨rfl, rfl⟩, ?_⟩
    rw [exec_get]
    cases hr : (exec (es 0) (.get pairingID) w).1 with
    | mk r here =>
      cases r with
      | error e => cases e <;> trivial
      | ok ch =>
        obtain ⟨st, hst, hch⟩ := get_ok pairingID (congrArg Prod.fst hr)
        have hf := (exec_ok (congrArg Prod.fst hr)).1
        obtain rfl : (es 0).here = here := congrArg Prod.snd hr
        dsimp only [Prog.bind, PairingService.checkChallenge]
        split_ifs with huser hexp hcode
        · trivial
        · exact ⟨⟨rfl, rfl⟩, trivial⟩
        · refine ⟨⟨rfl, rfl⟩, ?_⟩
          generalize (exec (es 1) (.recordFailedAttempt pairingID) w) = out
          obtain ⟨⟨_ | n, _⟩, w'⟩ := out
          · trivial
          · dsimp only [Prog.bind]
            split_ifs
            · exact ⟨⟨rfl, rfl⟩, trivial⟩
            · trivial
        · refine authorize_made hf ⟨⟨st, hst, hch⟩, ?_⟩
          simp only [verdict, if_neg huser, if_neg hexp]
          simpa using hcode

/-- A request that runs alone makes its calls as `Made` says. -/
theorem op_made (q : Request) : (q.start s).Along exec (Made s w es q) es w := by
  cases q with
  | registerDevice userID reg => exact (register_made userID reg).map _
  | initiate userID desktop =>
    have h := @initiate_made s w es userID desktop
    show (Response.challenge <$> s.pairing.initiate userID desktop).Along _ _ es w
    generalize s.pairing.initiate userID desktop = p at h ⊢
    exact h.map _
  | confirm userID pairingID code mobile =>
    have h := @confirm_made s w es userID pairingID code mobile
    show (Response.pairing <$> s.pairing.confirm userID pairingID code mobile).Along _ _ es w
    generalize s.pairing.confirm userID pairingID code mobile = p at h ⊢
    exact h.map _
  | _ =>
    refine (start_only s _).along (fun e c w h => ?_) es w
    cases c <;> first | exact ⟨h, rfl⟩ | exact h.elim

end Made

/-! ### Operations -/

section Ops
variable {s : Services} {w₀ : Cloud} {es : ℕ → Env}

/-- The desktop of an accepted challenge belongs to the user. -/
theorem Accepts.owned {w : Cloud} {a : ConfirmArgs} {here : Here} {ch : Challenge} (hw : Ledger w)
    (h : Accepts s w a here ch) : Owned w.db ch.desktopDeviceID a.userID := by
  obtain ⟨⟨st, hst, rfl⟩, hv⟩ := h
  have huser : st.challenge.userID = a.userID := by
    by_contra hne
    simp [verdict, hne] at hv
  rw [← huser]
  exact hw.challenges a.pairingID st hst

/-- A call made as `Made` says keeps the invariant. -/
theorem ledger_made {q : Request} {e : Env} {c : Cmd} {w : Cloud} (h : Made s w₀ es q e c w)
    (hw : Ledger w) : Ledger (exec e c w).2 := by
  refine ledger_exec hw ?_ ?_
  · rintro ch ttl rfl
    cases q with
    | initiate userID desktop =>
      obtain ⟨-, rfl, rfl, hlive⟩ := h
      exact hlive.owned
    | _ => cases h.2
  · rintro u m d rfl
    cases q with
    | confirm userID pairingID code mobile =>
      obtain ⟨-, -, rfl, rfl, -, -, hlive, ch, hch, rfl⟩ := h
      exact ⟨hlive.owned, hch.owned hw⟩
    | _ => cases h.2

/-- What the calls of a request keep, and the passing of time, is kept by the operation. -/
theorem Op.invariant {I : Cloud → Prop} (op : Op)
    (hcall : ∀ q es, op = .request q es → ∀ e c w, Made s w₀ es q e c w → I w → I (exec e c w).2)
    (htick : ∀ d w, I w → I { w with redis := w.redis.tick d }) (h : I w₀) : I (op.step s w₀) := by
  cases op with
  | request q es => exact (op_made q).invariant (hcall q es rfl) h
  | tick d => exact htick d w₀ h

theorem ledger_tick {w : Cloud} (h : Ledger w) (d : Time) :
    Ledger { w with redis := w.redis.tick d } := by
  refine ⟨h.unique, h.keys, h.pairings, h.owned, fun x st hst => ?_⟩
  rcases stored_tick w.redis x d with ht | ht
  · exact h.challenges x st (ht ▸ hst)
  · rw [ht] at hst
    cases hst

theorem ledger_step (op : Op) (h : Ledger w₀) : Ledger (op.step s w₀) :=
  op.invariant (fun _ _ _ _ _ _ hm hw => ledger_made hm hw) (fun d _ hw => ledger_tick hw d) h

end Ops

theorem sampleLedger : Ledger (.init sampleDb 0) := by
  refine Ledger.init (by decide) (by decide) (by decide) ?_ 0
  rintro p ⟨⟩

/-- An operation whose calls go through; keys drawn are `uuid`. -/
def request (q : Request) (uuid : String) : Op := .request q fun _ => goes uuid

end DeskSync.Fleet
