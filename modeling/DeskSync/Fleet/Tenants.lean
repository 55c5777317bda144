import DeskSync.Fleet.Contract

/-!
# Accounts apart

What a request answers is about rows of its user (`start_keeps`), and its calls leave the rows of all other users as
they are (`exec_frame`): a statement finds its rows by the user, or by a key that the request has looked up as its
user's.

`tenants_apart`: in every run, answers show rows of the user of the request only, and while no request of a user makes
a call, nothing of that user changes.
-/

namespace DeskSync.Fleet

open Backend Proc

/-- The rows of a user, and the events of the sessions among them. -/
def rowsOf (userID : String) (db : FleetDb) : FleetDb where
  users := db.users
  devices := db.devices.filter (·.userID == userID)
  pairings := db.pairings.filter (·.userID == userID)
  sessions := db.sessions.filter (·.userID == userID)
  sessionEvents := db.sessionEvents.filter fun ev =>
    db.sessions.any fun x => x.id == ev.sessionID && x.userID == userID

/-- The user a statement is run for. -/
def Cmd.userID : Cmd → Option String
  | .registerDevice reg => some reg.userID
  | .getDevice _ userID | .listDevices userID | .revokeDevice _ userID | .heartbeat _ userID _
  | .deviceForUser _ userID | .upsertActivePairing userID _ _ | .listPairings userID | .revokePairing _ userID
  | .pairingForUser _ userID | .getSession _ userID | .listSessions userID _
  | .pendingSessionsForDevice userID _ _ | .endSession _ userID _ => some userID
  | .createSession x => some x.userID
  | .save ch _ => some ch.userID
  | .get _ | .recordFailedAttempt _ | .consume _ | .appendEvent _ _ _ => none

/-- A request runs its statements for its user. -/
theorem mayCall_userID {q : Request} {c : Cmd} {userID : String} (h : q.mayCall c) (hu : c.userID = some userID) :
    userID = q.userID := by
  cases q <;> cases c <;> first | exact h.elim | skip
  all_goals simp only [Cmd.userID, Option.some.injEq, reduceCtorEq] at hu
  all_goals subst hu
  all_goals first | exact h | exact h.1 | exact h.2 | exact h.2.1

/-- An update that keeps the owner of every row and changes no row of the user leaves the user's rows as they are. -/
theorem filter_map_frame {α : Type} {p : α → Bool} {f : α → α} {rows : List α} (hkeep : ∀ x ∈ rows, p (f x) = p x)
    (hstay : ∀ x ∈ rows, p x = true → f x = x) : (rows.map f).filter p = rows.filter p := by
  induction rows with
  | nil => rfl
  | cons x rows ih =>
    have hrest := ih (fun y hy => hkeep y (List.mem_cons_of_mem _ hy)) fun y hy => hstay y (List.mem_cons_of_mem _ hy)
    cases hx : p x with
    | false =>
      have hfx : p (f x) = false := (hkeep x List.mem_cons_self).trans hx
      rw [List.map_cons, List.filter_cons_of_neg (by simp [hfx]), List.filter_cons_of_neg (by simp [hx]), hrest]
    | true =>
      have hfx := hstay x List.mem_cons_self hx
      rw [List.map_cons, hfx, List.filter_cons_of_pos hx, List.filter_cons_of_pos hx, hrest]

section Frame
variable {e : Env} {c : Cmd} {w : Cloud} {q : Request} {userID : String}

/-- The devices of another user stay as they are. -/
theorem exec_devices_frame (hw : Books w) (hc : Allowed q c w) (hu : userID ≠ q.userID) :
    (exec e c w).2.db.devices.filter (·.userID == userID) = w.db.devices.filter (·.userID == userID) := by
  have hkeep {f : DeviceRow → DeviceRow} (hf : ∀ d, (f d).userID = d.userID)
      (hstay : ∀ d ∈ w.db.devices, d.userID = userID → f d = d) :
      (w.db.devices.map f).filter (·.userID == userID) = w.db.devices.filter (·.userID == userID) :=
    filter_map_frame (fun d _ => by rw [hf d]) fun d hd h => hstay d hd (beq_iff_eq.1 h)
  rcases exec_tables e c w with ⟨hd, -⟩ | ⟨-, ⟨reg, rfl, hdb⟩ | ⟨id, u, rfl, hdb⟩ | ⟨id, u, st, rfl, hdb⟩ |
    ⟨u, m, d, rfl, hdb⟩ | ⟨id, u, rfl, hdb⟩⟩
  · rw [hd]
  · have huser : reg.userID = q.userID := mayCall_userID hc.1 rfl
    rw [hdb]
    unfold DeviceRepo.register
    split
    · rename_i row hrow
      split_ifs with hown
      · refine hkeep (reregister_userID _ _) fun d hd hdu => ?_
        unfold DeviceRepo.reregister
        rw [if_neg fun hkey => ?_]
        -- the one device with this key is the registering user's
        have hrowkey : row.publicKey = reg.publicKey := by simpa using List.find?_some hrow
        have hdrow := hw.ledger.device_eq_of_key hd (List.mem_of_find?_eq_some hrow) (hkey.trans hrowkey.symm)
        exact hu (hdu.symm.trans ((congrArg (fun d : DeviceRow => d.userID) hdrow).trans (hown.trans huser)))
      · rfl
    · split_ifs
      · rfl
      · have hne : (DeviceRepo.inserted e reg).userID ≠ userID := fun h => hu (h.symm.trans huser)
        simp [hne]
  · have huser : u = q.userID := mayCall_userID hc.1 rfl
    rw [hdb]
    unfold DeviceRepo.revoke
    split_ifs
    · refine hkeep (revokeDevice_userID _ _ _) fun d _ hdu => ?_
      unfold DeviceRepo.revokeDevice
      rw [if_neg fun howns => hu (hdu.symm.trans ((owns_iff.1 howns).2.1.trans huser))]
    · rfl
  · have huser : u = q.userID := mayCall_userID hc.1 rfl
    rw [hdb]
    unfold DeviceRepo.heartbeat
    split
    · refine hkeep (beat_userID _ _ _ _) fun d _ hdu => ?_
      unfold DeviceRepo.beat
      rw [if_neg fun howns => hu (hdu.symm.trans ((owns_iff.1 howns).2.1.trans huser))]
    · rfl
  · rw [hdb]
    unfold PairingRepo.upsertActivePairing
    split
    · rfl
    · split_ifs <;> rfl
  · rw [hdb]
    unfold PairingRepo.revokePairing
    split_ifs <;> rfl

/-- The pairings of another user stay as they are. -/
theorem exec_pairings_frame (hw : Books w) (hc : Allowed q c w) (hu : userID ≠ q.userID) :
    (exec e c w).2.db.pairings.filter (·.userID == userID) = w.db.pairings.filter (·.userID == userID) := by
  have hkeep {f : PairingRow → PairingRow} (hf : SamePair f)
      (hstay : ∀ p ∈ w.db.pairings, p.userID = userID → f p = p) :
      (w.db.pairings.map f).filter (·.userID == userID) = w.db.pairings.filter (·.userID == userID) :=
    filter_map_frame (fun p _ => by rw [(hf p).2.1]) fun p hp h => hstay p hp (beq_iff_eq.1 h)
  rcases exec_tables e c w with ⟨-, hp⟩ | ⟨-, ⟨reg, rfl, hdb⟩ | ⟨id, u, rfl, hdb⟩ | ⟨id, u, st, rfl, hdb⟩ |
    ⟨u, m, d, rfl, hdb⟩ | ⟨id, u, rfl, hdb⟩⟩
  · rw [hp]
  · rw [hdb]
    unfold DeviceRepo.register
    split <;> split_ifs <;> rfl
  · have huser : u = q.userID := mayCall_userID hc.1 rfl
    rw [hdb]
    unfold DeviceRepo.revoke
    split_ifs
    · refine hkeep (revokePairingOf_same _ _ _) fun p _ hpu => ?_
      unfold DeviceRepo.revokePairingOf
      rw [if_neg fun h => hu (hpu.symm.trans (h.1.trans huser))]
    · rfl
  · rw [hdb]
    unfold DeviceRepo.heartbeat
    split <;> rfl
  · obtain ⟨huser, hm, -⟩ := hc.2
    rw [hdb]
    unfold PairingRepo.upsertActivePairing
    split
    · refine hkeep (reactivate_same _ _ _) fun p hp hpu => ?_
      unfold PairingRepo.reactivate
      rw [if_neg fun h => ?_]
      have howned := (hw.ledger.owned p hp).1
      rw [h.1] at howned
      exact hu (hpu.symm.trans (howned.unique hw.ledger hm))
    · split_ifs
      · rfl
      · have hne : (PairingRepo.inserted e u m d).userID ≠ userID := fun h => hu (h.symm.trans huser)
        simp [hne]
  · have huser : u = q.userID := mayCall_userID hc.1 rfl
    rw [hdb]
    unfold PairingRepo.revokePairing
    split_ifs
    · refine hkeep (revokeRow_same _ _ _) fun p _ hpu => ?_
      unfold PairingRepo.revokeRow
      rw [if_neg fun h => ?_]
      simp only [PairingRepo.revocable, Bool.and_eq_true, beq_iff_eq] at h
      exact hu (hpu.symm.trans (h.1.2.trans huser))
    · rfl

/-- The sessions of another user stay as they are. -/
theorem exec_sessions_frame (hc : Allowed q c w) (hu : userID ≠ q.userID) :
    (exec e c w).2.db.sessions.filter (·.userID == userID) = w.db.sessions.filter (·.userID == userID) := by
  rcases exec_sessions e c w with hdb | ⟨x, rfl, -, hdb⟩ | ⟨id, u, reason, rfl, hdb⟩
  · rw [hdb]
  · have huser : x.userID = q.userID := mayCall_userID hc.1 rfl
    have hne : (SessionRepo.inserted e x).userID ≠ userID := fun h => hu (h.symm.trans huser)
    rw [hdb]
    simp [hne]
  · have huser : u = q.userID := mayCall_userID hc.1 rfl
    rw [hdb]
    refine filter_map_frame (fun x _ => ?_) fun x _ hx => ?_
    · rw [(endRow_same e.dbNow id u reason x).2.2]
    · unfold SessionRepo.endRow
      rw [if_neg fun h => hu ((beq_iff_eq.1 hx).symm.trans (h.2.1.trans huser))]

/-- Whether a session is the user's. -/
theorem any_sessions_frame (hc : Allowed q c w) (hu : userID ≠ q.userID) (id : String) :
    ((exec e c w).2.db.sessions.any fun x => x.id == id && x.userID == userID) =
      w.db.sessions.any fun x => x.id == id && x.userID == userID := by
  have hfilter (rows : List Session) : (rows.any fun x => x.id == id && x.userID == userID) =
      (rows.filter (·.userID == userID)).any (·.id == id) := by
    rw [List.any_filter]
    exact congrArg _ (funext fun x => Bool.and_comm _ _)
  rw [hfilter, hfilter, exec_sessions_frame hc hu]

/-- The events of another user's sessions stay as they are. -/
theorem exec_events_frame (hw : Books w) (hc : Allowed q c w) (hu : userID ≠ q.userID) :
    ((exec e c w).2.db.sessionEvents.filter fun ev =>
        (exec e c w).2.db.sessions.any fun x => x.id == ev.sessionID && x.userID == userID) =
      w.db.sessionEvents.filter fun ev => w.db.sessions.any fun x => x.id == ev.sessionID && x.userID == userID := by
  simp only [any_sessions_frame hc hu]
  rcases exec_log e c w with hdb | ⟨id, ty, detail, rfl, -, hdb⟩
  · rw [hdb]
  · obtain ⟨pid, y, hy, hyid, -, hyu⟩ := hc.2
    have hnone : (w.db.sessions.any fun x => x.id == id && x.userID == userID) = false := by
      refine List.any_eq_false.2 fun x hx h => ?_
      simp only [Bool.and_eq_true, beq_iff_eq] at h
      have hxy : x = y := List.inj_on_of_nodup_map hw.sessions hx hy (h.1.trans hyid.symm)
      exact hu (h.2.symm.trans ((congrArg Session.userID hxy).trans hyu))
    rw [hdb, List.filter_append, List.filter_cons_of_neg (by simp [hnone]), List.filter_nil, List.append_nil]

/-- A call leaves the rows of the other users as they are. -/
theorem exec_frame (hw : Books w) (hc : Allowed q c w) (hu : userID ≠ q.userID) :
    rowsOf userID (exec e c w).2.db = rowsOf userID w.db := by
  unfold rowsOf
  rw [exec_users, exec_devices_frame hw hc hu, exec_pairings_frame hw hc hu, exec_sessions_frame hc hu,
    exec_events_frame hw hc hu]

end Frame

/-! ### Runs -/

/-- The step makes no call for the user. -/
def Silent (userID : String) (w : World) : Step → Prop
  | .advance i _ => ∀ t ∈ w.threads[i]?, t.req.userID ≠ userID
  | _ => True

instance (userID : String) (w : World) : ∀ l, Decidable (Silent userID w l)
  | .advance i _ => inferInstanceAs (Decidable (∀ t ∈ w.threads[i]?, t.req.userID ≠ userID))
  | .spawn _ _ => inferInstanceAs (Decidable True)
  | .env _ => inferInstanceAs (Decidable True)

theorem silent_step {s : Services} {w : World} (hw : (contract s).Holds w) {userID : String} {l : Step}
    (hl : Silent userID w l) : rowsOf userID ((system s).step w l).store.db = rowsOf userID w.store.db := by
  rcases (system s).step_cases w l with h | ⟨q, e, rfl, h⟩ | ⟨i, e, q, c, k, rfl, hi, h⟩ | ⟨d, rfl, h⟩
  · rw [h]
  · rw [h]
  · rw [h]
    exact exec_frame hw.inv (hw.keeps i q _ hi).1 (hl _ hi).symm
  · rw [h]
    rfl

/-- **In every run an answer shows rows of the user of the request only, and while no request of a user makes a call,
the user's devices, pairings, sessions and events stay exactly as they are.** -/
theorem tenants_apart (s : Services) (w : Cloud) (hw : Books w) (l₁ l₂ : List Step) :
    (∀ (i : ℕ) q r, ((system s).run w l₁).threads[i]? = some ⟨q, .ret r⟩ →
      r.about q.userID ((system s).run w l₁).store) ∧
    ∀ userID, Run.Guarded (system s).step (Silent userID) ((system s).run w l₁) l₂ →
      rowsOf userID ((system s).run w (l₁ ++ l₂)).store.db = rowsOf userID ((system s).run w l₁).store.db := by
  have hholds := contract_run s hw l₁
  refine ⟨fun i q r hi => hholds.returned hi, fun userID hl => ?_⟩
  unfold System.run
  rw [Run.exec_append]
  have hrun := hl.invariant (I := fun v => (contract s).Holds v ∧
      rowsOf userID v.store.db = rowsOf userID ((system s).run w l₁).store.db)
    (fun v a hv ha => ⟨(hv.1.step (fun q e w _ => start_keeps s q e w) a).1, (silent_step hv.1 ha).trans hv.2⟩)
    ⟨hholds, rfl⟩
  exact hrun.2

/-- A desktop of one user, and a phone of another. -/
def twoTenants : FleetDb where
  users := ["u1", "u2"]
  devices := [sampleDevice "d1" "u1" .desktop, sampleDevice "m2" "u2" .mobile]
  pairings := []
  sessions := []
  sessionEvents := []

theorem twoTenants_books : Books (.init twoTenants 0) where
  ledger := by
    refine Ledger.init (by decide) (by decide) (by decide) ?_ 0
    rintro p ⟨⟩
  accounts := by decide
  presence := by decide
  pairs := by decide
  revoked := by rintro p ⟨⟩
  sessions := by decide
  paired := by rintro x ⟨⟩
  coherent := by rintro x ⟨⟩
  events := by rintro ev ⟨⟩

/-- Both users list their devices. -/
def listed : List Step :=
  [.spawn (.listDevices "u1") (goes ""), .spawn (.listDevices "u2") (goes ""), .advance 1 (goes ""),
    .advance 0 (goes "")]

/-- The second user tries to revoke the desktop, and to report it online. -/
def intrusion : List Step :=
  [.spawn (.revokeDevice "u2" "d1") (goes "x"), .advance 2 (goes "x"),
    .spawn (.heartbeat "u2" "d1" .online) (goes "y"), .advance 3 (goes "y")]

theorem intrusion_fails :
    (((system sampleServices).run (.init twoTenants 0) listed).threads.map (·.prog.result.isSome) = [true, true] ∧
      ∀ (i : ℕ) q r, ((system sampleServices).run (.init twoTenants 0) listed).threads[i]? = some ⟨q, .ret r⟩ →
        r.about q.userID ((system sampleServices).run (.init twoTenants 0) listed).store) ∧
    rowsOf "u1" ((system sampleServices).run (.init twoTenants 0) (listed ++ intrusion)).store.db =
      rowsOf "u1" ((system sampleServices).run (.init twoTenants 0) listed).store.db :=
  have h := tenants_apart sampleServices _ twoTenants_books listed intrusion
  ⟨⟨by decide, h.1⟩, h.2 "u1" (by decide)⟩

end DeskSync.Fleet
