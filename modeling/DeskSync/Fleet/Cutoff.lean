import DeskSync.Fleet.Ledger

/-!
# Signaling tickets after a revocation

A pairing is revoked by its user or with one of its devices, and stays so until a `Confirm` activates it
again (`cut_run`). `CreateSession` asks for an active pairing. `PendingForDevice` joins the sessions
with the pairings and does not look at the status, so the agent goes on getting tickets for sessions
that were created before the revocation (`ticket_after_revocation`).

`answersUsable` is the condition on a `PendingForDevice` under which it does not: no session its query
finds is over a revoked pairing. In every run that meets it, no ticket is issued over a pairing from its
revocation to its next confirmation (`cutOff_of_answersUsable`).
-/

namespace DeskSync.Fleet

open Backend Proc

/-! ### Revocation and what it cuts off -/

/-- The operation revokes the pairing: by its id, or with one of its two devices. -/
def Revokes (w : Cloud) (op : Op) (pairingID : String) : Prop :=
  ∃ p ∈ w.db.pairings, p.id = pairingID ∧
    ((∃ es, op = .request (.revokePairing p.userID pairingID) es ∧ (es 0).fault ≠ .lost) ∨
      ∃ userID id es, op = .request (.revokeDevice userID id) es ∧ (es 0).fault ≠ .lost ∧
        (p.mobileDeviceID = id ∨ p.desktopDeviceID = id) ∧
        w.db.devices.any (DeviceRepo.owns id userID) = true)

/-- The operation is a `Confirm` after which the pairing is active. -/
def Confirms (s : Services) (w : Cloud) (op : Op) (pairingID : String) : Prop :=
  (∃ a es, op = .request (ConfirmArgs.request a) es) ∧
    ∃ p ∈ (op.step s w).db.pairings, p.id = pairingID ∧ p.status = .active

/-- The sessions a response carries a ticket for. -/
def Response.ticketed : Response → List Session
  | .created (.ok c) => [c.session]
  | .pending (.ok cs) => cs.map (·.session)
  | _ => []

/-- The operation issues a ticket for a session over the pairing. -/
def Issues (s : Services) (w : Cloud) (op : Op) (pairingID : String) : Prop :=
  ∃ r, (op.run s w).1 = some r ∧ ∃ session ∈ r.ticketed, session.pairingID = pairingID

/-- No ticket is issued over a pairing between its revocation and its next confirmation. -/
def CutOff (s : Services) (w : Cloud) (l : List Op) : Prop :=
  ∀ l₁ op l₂ op' l₃ pairingID, l = l₁ ++ op :: (l₂ ++ op' :: l₃) →
    Revokes (Run.exec (Op.step s) w l₁) op pairingID →
    Run.Guarded (Op.step s) (fun w op => ¬ Confirms s w op pairingID)
      (Run.exec (Op.step s) w (l₁ ++ [op])) l₂ →
    ¬ Issues s (Run.exec (Op.step s) w (l₁ ++ op :: l₂)) op' pairingID

/-! ### The condition -/

/-- The sessions a `PendingForDevice` that goes through finds are over pairings that are not revoked. -/
def answersUsable (w : Cloud) : Op → Bool
  | .request (.pendingForDevice userID desktop) es =>
    (es 0).fault != .none ||
      match (SessionRepo.pendingSessionsForDevice userID desktop 10 w.db).1 with
      | .error _ => true
      | .ok sessions => sessions.all fun session =>
          w.db.pairings.all fun p => p.id != session.pairingID || p.status != .revoked
  | _ => true

/-! ### A revoked pairing stays revoked -/

/-- The pairing exists and is revoked. -/
def Cut (pairingID : String) (w : Cloud) : Prop :=
  (∃ p ∈ w.db.pairings, p.id = pairingID) ∧
    ∀ p ∈ w.db.pairings, p.id = pairingID → p.status = .revoked

/-- The pairing exists and is revoked or active. -/
def Settled (pairingID : String) (w : Cloud) : Prop :=
  (∃ p ∈ w.db.pairings, p.id = pairingID) ∧
    ∀ p ∈ w.db.pairings, p.id = pairingID → p.status = .revoked ∨ p.status = .active

theorem Cut.settled {pairingID : String} {w : Cloud} (h : Cut pairingID w) : Settled pairingID w :=
  ⟨h.1, fun p hp hid => .inl (h.2 p hp hid)⟩

section Calls
variable {w : Cloud} {e : Env} {c : Cmd} {pairingID : String}

/-- A property of the rows of a pairing is kept by a map that keeps the ids and the property. -/
theorem rows_map {P : PairingRow → Prop} {f : PairingRow → PairingRow} (hf : SamePair f)
    (hP : ∀ p, P p → P (f p))
    (h : (∃ p ∈ w.db.pairings, p.id = pairingID) ∧ ∀ p ∈ w.db.pairings, p.id = pairingID → P p) :
    (∃ p ∈ w.db.pairings.map f, p.id = pairingID) ∧
      ∀ p ∈ w.db.pairings.map f, p.id = pairingID → P p := by
  obtain ⟨⟨p, hp, hid⟩, hall⟩ := h
  refine ⟨⟨f p, List.mem_map_of_mem hp, (hf p).1.trans hid⟩, fun q' hq' hqid => ?_⟩
  obtain ⟨q, hq, rfl⟩ := List.mem_map.1 hq'
  exact hP q (hall q hq ((hf q).1.symm.trans hqid))

/-- A property of the rows of an existing pairing is kept by every call whose updates keep it. -/
theorem rows_exec {P : PairingRow → Prop}
    (hcascade : ∀ now id u p, P p → P (DeviceRepo.revokePairingOf now id u p))
    (hrevoke : ∀ now id u p, P p → P (PairingRepo.revokeRow now id u p))
    (hupsert : ∀ u m d, c = .upsertActivePairing u m d → ∀ now p, P p → P (PairingRepo.reactivate now m d p))
    (h : (∃ p ∈ w.db.pairings, p.id = pairingID) ∧ ∀ p ∈ w.db.pairings, p.id = pairingID → P p) :
    (∃ p ∈ (exec e c w).2.db.pairings, p.id = pairingID) ∧
      ∀ p ∈ (exec e c w).2.db.pairings, p.id = pairingID → P p := by
  rcases exec_tables e c w with ⟨-, hd⟩ | ⟨-, ⟨reg, rfl, hdb⟩ | ⟨id, u, rfl, hdb⟩ |
    ⟨id, u, st, rfl, hdb⟩ | ⟨u, m, d, rfl, hdb⟩ | ⟨id, u, rfl, hdb⟩⟩
  · rwa [hd]
  · rw [hdb]
    unfold DeviceRepo.register
    split <;> split_ifs <;> exact h
  · rw [hdb]
    unfold DeviceRepo.revoke
    split_ifs
    · exact rows_map (revokePairingOf_same _ _ _) (hcascade _ _ _) h
    · exact h
  · rw [hdb]
    unfold DeviceRepo.heartbeat
    split <;> exact h
  · rw [hdb]
    unfold PairingRepo.upsertActivePairing
    split
    · exact rows_map (reactivate_same _ _ _) (hupsert u m d rfl _) h
    · split_ifs with hn
      · exact h
      · obtain ⟨⟨p, hp, hid⟩, hall⟩ := h
        refine ⟨⟨p, List.mem_append_left _ hp, hid⟩, fun q hq hqid => ?_⟩
        rcases List.mem_append.1 hq with hq | hq
        · exact hall q hq hqid
        · -- a created row has a fresh id
          obtain rfl := List.mem_singleton.1 hq
          simp only [Bool.or_eq_true, Bool.not_eq_true', List.any_eq_true, beq_iff_eq, not_or,
            not_exists, not_and] at hn
          exact absurd (hid.trans hqid.symm) (hn.2 p hp)
  · rw [hdb]
    unfold PairingRepo.revokePairing
    split_ifs
    · exact rows_map (revokeRow_same _ _ _) (hrevoke _ _ _) h
    · exact h

theorem revokePairingOf_status (now : Time) (id u : String) (p : PairingRow) :
    (DeviceRepo.revokePairingOf now id u p).status = p.status ∨
      (DeviceRepo.revokePairingOf now id u p).status = .revoked := by
  unfold DeviceRepo.revokePairingOf
  split_ifs
  · exact .inr rfl
  · exact .inl rfl

theorem revokeRow_status (now : Time) (id u : String) (p : PairingRow) :
    (PairingRepo.revokeRow now id u p).status = p.status ∨
      (PairingRepo.revokeRow now id u p).status = .revoked := by
  unfold PairingRepo.revokeRow
  split_ifs
  · exact .inr rfl
  · exact .inl rfl

theorem cut_exec (hc : ∀ u m d, c ≠ .upsertActivePairing u m d) (h : Cut pairingID w) :
    Cut pairingID (exec e c w).2 := by
  refine rows_exec (P := fun p => p.status = .revoked) (fun now id u p hp => ?_)
    (fun now id u p hp => ?_) (fun u m d heq => absurd heq (hc u m d)) h
  · rcases revokePairingOf_status now id u p with hs | hs
    · exact hs.trans hp
    · exact hs
  · rcases revokeRow_status now id u p with hs | hs
    · exact hs.trans hp
    · exact hs

theorem settled_exec (h : Settled pairingID w) : Settled pairingID (exec e c w).2 := by
  refine rows_exec (P := fun p => p.status = .revoked ∨ p.status = .active) (fun now id u p hp => ?_)
    (fun now id u p hp => ?_) (fun u m d _ now p hp => ?_) h
  · rcases revokePairingOf_status now id u p with hs | hs
    · rwa [hs]
    · exact .inl hs
  · rcases revokeRow_status now id u p with hs | hs
    · rwa [hs]
    · exact .inl hs
  · unfold PairingRepo.reactivate
    split_ifs
    · exact .inr rfl
    · exact hp

end Calls

section Ops
variable {s : Services} {w : Cloud} {op : Op} {pairingID : String}

/-- A revoked pairing is revoked after every operation that is no confirmation of it. -/
theorem cut_step (h : Cut pairingID w) (hop : ¬ Confirms s w op pairingID) :
    Cut pairingID (op.step s w) := by
  by_cases hconf : ∃ a es, op = .request (ConfirmArgs.request a) es
  · have hset : Settled pairingID (op.step s w) :=
      op.invariant (fun _ _ _ _ _ _ _ hw => settled_exec hw) (fun _ _ hw => hw) h.settled
    refine ⟨hset.1, fun p hp hid => (hset.2 p hp hid).resolve_right fun hact => ?_⟩
    exact hop ⟨hconf, p, hp, hid, hact⟩
  · refine op.invariant (fun q es heq e c w hm hw => cut_exec ?_ hw) (fun _ _ hw => hw) h
    rintro u m d rfl
    cases q with
    | confirm userID x code mobile => exact hconf ⟨⟨userID, x, code, mobile⟩, es, heq⟩
    | _ => cases hm.2

theorem cut_run {l : List Op} (h : Cut pairingID w)
    (hl : Run.Guarded (Op.step s) (fun w op => ¬ Confirms s w op pairingID) w l) :
    Cut pairingID (Run.exec (Op.step s) w l) :=
  hl.invariant (I := Cut pairingID) (fun _ _ hw hop => cut_step hw hop) h

theorem revokePairing_run {userID id : String} {es : ℕ → Env} (hf : (es 0).fault ≠ .lost) :
    ((Op.request (.revokePairing userID id) es).step s w).db =
      (PairingRepo.revokePairing (es 0).dbNow id userID w.db).2 := by
  have hrun : ((Request.start s (.revokePairing userID id)).run exec es w).2 =
      (exec (es 0) (.revokePairing id userID) w).2 := by
    refine Prog.run_call_ret exec rfl ?_
    rintro ⟨e | _, here⟩
    · cases e <;> exact ⟨_, rfl⟩
    · exact ⟨_, rfl⟩
  exact congrArg Cloud.db (hrun.trans (exec_store hf _))

theorem revokeDevice_run {userID id : String} {es : ℕ → Env} (hf : (es 0).fault ≠ .lost) :
    ((Op.request (.revokeDevice userID id) es).step s w).db =
      (DeviceRepo.revoke (es 0).dbNow id userID w.db).2 := by
  have hrun : ((Request.start s (.revokeDevice userID id)).run exec es w).2 =
      (exec (es 0) (.revokeDevice id userID) w).2 := by
    refine Prog.run_call_ret exec rfl ?_
    rintro ⟨e | _, here⟩
    · cases e <;> exact ⟨_, rfl⟩
    · exact ⟨_, rfl⟩
  exact congrArg Cloud.db (hrun.trans (exec_store hf _))

/-- A map over the pairings that revokes the row cuts the pairing. -/
theorem cut_map {db : FleetDb} {f : PairingRow → PairingRow} {p : PairingRow} (hw : Ledger w)
    (hdb : db.pairings = w.db.pairings.map f) (hf : SamePair f) (hp : p ∈ w.db.pairings)
    (hrev : (f p).status = .revoked) : Cut p.id ⟨db, w.redis⟩ := by
  unfold Cut
  rw [hdb]
  refine ⟨⟨f p, List.mem_map_of_mem hp, (hf p).1⟩, fun q' hq' hqid => ?_⟩
  obtain ⟨q, hq, rfl⟩ := List.mem_map.1 hq'
  rw [hw.pairing_eq hq hp ((hf q).1.symm.trans hqid)]
  exact hrev

/-- A revocation cuts the pairing. -/
theorem cut_of_revokes (hw : Ledger w) (h : Revokes w op pairingID) : Cut pairingID (op.step s w) := by
  obtain ⟨p, hp, rfl, ⟨es, rfl, hf⟩ | ⟨userID, id, es, rfl, hf, href, hown⟩⟩ := h
  · unfold Cut
    rw [revokePairing_run hf]
    unfold PairingRepo.revokePairing
    split_ifs with hany
    · refine cut_map hw rfl (revokeRow_same _ _ _) hp ?_
      unfold PairingRepo.revokeRow
      split_ifs with hc
      · rfl
      · simpa [PairingRepo.revocable] using hc
    · refine ⟨⟨p, hp, rfl⟩, fun q hq hqid => ?_⟩
      rw [hw.pairing_eq hq hp hqid]
      by_contra hne
      exact hany (List.any_eq_true.2 ⟨p, hp, by simpa [PairingRepo.revocable] using hne⟩)
  · unfold Cut
    rw [revokeDevice_run hf]
    unfold DeviceRepo.revoke
    rw [if_pos hown]
    refine cut_map hw rfl (revokePairingOf_same _ _ _) hp ?_
    -- the user that revokes the device is the user of its pairings
    obtain ⟨d, hd, hdown⟩ := List.any_eq_true.1 hown
    obtain ⟨hdid, hduser, -⟩ := owns_iff.1 hdown
    have huser : p.userID = userID := by
      have hown' : Owned w.db id p.userID := by
        rcases href with rfl | rfl
        · exact (hw.owned p hp).1
        · exact (hw.owned p hp).2
      obtain ⟨d', hd', hd'id, hd'user⟩ := hown'
      rw [← hd'user, ← hduser, hw.device_eq hd' hd (hd'id.trans hdid.symm)]
    unfold DeviceRepo.revokePairingOf
    split_ifs with hc
    · rfl
    · by_contra hne
      exact hc ⟨huser, href, hne⟩

/-! ### Tickets -/

theorem pairingForUser_ok {e : Env} {id userID : String} {view : PairingView}
    (h : (exec e (.pairingForUser id userID) w).1.1 = .ok view) :
    ∃ p ∈ w.db.pairings, p.id = id ∧ p.status = view.status := by
  have h := (exec_ok h).2
  simp only [Cmd.effect, onDb, SessionRepo.pairingForUser] at h
  split at h
  · rename_i p hp
    cases h
    have hid := List.find?_some hp
    simp only [Bool.and_eq_true, beq_iff_eq] at hid
    exact ⟨p, List.mem_of_find?_eq_some hp, hid.1, rfl⟩
  · cases h

/-- The session `CreateSession` of the repository returns is over the pairing asked for. -/
def SessionSpec : (c : Cmd) → Reply c → Prop
  | .createSession session, r => ∀ session', r.1 = .ok session' → session'.pairingID = session.pairingID
  | _, _ => True

theorem exec_sessionSpec (e : Env) (c : Cmd) (w : Cloud) : SessionSpec c (exec e c w).1 := by
  cases c with
  | createSession session =>
    intro session' h
    have h := (exec_ok h).2
    simp only [Cmd.effect, onDb, SessionRepo.createSession] at h
    split_ifs at h
    cases h
    rfl
  | _ => trivial

theorem createSession_post (userID id : String) :
    (s.session.createSession userID id).Post SessionSpec fun r =>
      ∀ c, r = .ok c → c.session.pairingID = id := by
  unfold SessionService.createSession
  split_ifs
  · rintro c ⟨⟩
  · rintro ⟨e | view, here⟩ -
    · cases e <;> rintro c ⟨⟩
    · dsimp only [Prog.bind]
      split_ifs
      · rintro c ⟨⟩
      · rintro ⟨_ | session, here'⟩ hsession
        · rintro c ⟨⟩
        · dsimp only [Prog.bind]
          split
          · rintro c ⟨⟩
          · rintro r - c ⟨⟩
            exact hsession session rfl

/-- `CreateSession` issues a ticket over an active pairing only. -/
theorem createSession_run {userID id : String} {es : ℕ → Env} {c : Created}
    (h : ((s.session.createSession userID id).run exec es w).1 = .ok c) :
    c.session.pairingID = id ∧ ∃ p ∈ w.db.pairings, p.id = id ∧ p.status = .active := by
  refine ⟨(createSession_post userID id).run exec_sessionSpec es w c h, ?_⟩
  unfold SessionService.createSession at h
  split_ifs at h
  · cases h
  · rw [Prog.perform_bind, Prog.run_call] at h
    cases hr : (exec (es 0) (.pairingForUser id userID) w).1 with
    | mk r here =>
      rw [hr] at h
      cases r with
      | error err => cases err <;> cases h
      | ok view =>
        obtain ⟨p, hp, hid, hstatus⟩ := pairingForUser_ok (congrArg Prod.fst hr)
        refine ⟨p, hp, hid, hstatus.trans ?_⟩
        by_contra hact
        dsimp only at h
        rw [if_pos hact] at h
        cases h

/-- A loop that succeeds has one result for each element, that element's own. -/
theorem mem_mapM_ok {α β ε : Type} {f : α → Except ε β} {xs : List α} {ys : List β}
    (h : xs.mapM f = .ok ys) : ∀ y ∈ ys, ∃ x ∈ xs, f x = .ok y := by
  induction xs generalizing ys with
  | nil =>
    cases h
    rintro y ⟨⟩
  | cons x xs ih =>
    rw [List.mapM_cons] at h
    cases hx : f x with
    | error _ =>
      rw [hx] at h
      cases h
    | ok y =>
      cases hxs : xs.mapM f with
      | error _ =>
        rw [hx, hxs] at h
        cases h
      | ok ys' =>
        rw [hx, hxs] at h
        cases h
        rintro y' hy'
        rcases List.mem_cons.1 hy' with rfl | hy'
        · exact ⟨x, List.mem_cons_self, hx⟩
        · obtain ⟨x', hx', hf⟩ := ih hxs y' hy'
          exact ⟨x', List.mem_cons_of_mem _ hx', hf⟩

/-- The loop of `PendingForDevice` answers the sessions it was given. -/
theorem answer_session {now : Time} {userID : String} {sessions : List Session} {cs : List Created}
    (h : s.session.answer now userID sessions = .ok cs) : ∀ c ∈ cs, c.session ∈ sessions := by
  intro c hc
  obtain ⟨session, hmem, hok⟩ := mem_mapM_ok h c hc
  split at hok
  · cases hok
  · cases hok
    exact hmem

/-- `PendingForDevice` issues tickets for the sessions its query finds. -/
theorem pendingForDevice_run {userID desktop : String} {es : ℕ → Env} {cs : List Created}
    (h : ((s.session.pendingForDevice userID desktop).run exec es w).1 = .ok cs) :
    (es 0).fault = .none ∧ ∃ sessions,
      (SessionRepo.pendingSessionsForDevice userID desktop 10 w.db).1 = .ok sessions ∧
      ∀ c ∈ cs, c.session ∈ sessions := by
  unfold SessionService.pendingForDevice at h
  split_ifs at h
  · cases h
  · rw [Prog.perform_bind, Prog.run_call] at h
    cases hr : (exec (es 0) (.pendingSessionsForDevice userID desktop 10) w).1 with
    | mk r here =>
      rw [hr] at h
      cases r with
      | error err => cases h
      | ok sessions =>
        obtain ⟨hf, hok⟩ := exec_ok (congrArg Prod.fst hr)
        exact ⟨hf, sessions, hok, answer_session h⟩

/-- Under the guard no ticket is issued over a revoked pairing. -/
theorem not_issues_of_cut (h : Cut pairingID w) (hg : answersUsable w op = true) :
    ¬ Issues s w op pairingID := by
  rintro ⟨r, hr, session, hmem, rfl⟩
  cases op with
  | tick d => cases hr
  | request q es =>
    obtain rfl := Option.some.inj hr
    cases q with
    | createSession userID id =>
      rw [Request.start, Prog.run_map] at hmem
      cases hc : ((s.session.createSession userID id).run exec es w).1 with
      | error e =>
        rw [hc] at hmem
        cases hmem
      | ok c =>
        rw [hc] at hmem
        obtain rfl := List.mem_singleton.1 hmem
        obtain ⟨hid, p, hp, hpid, hact⟩ := createSession_run hc
        rw [h.2 p hp (hpid.trans hid.symm)] at hact
        cases hact
    | pendingForDevice userID desktop =>
      rw [Request.start, Prog.run_map] at hmem
      cases hc : ((s.session.pendingForDevice userID desktop).run exec es w).1 with
      | error e =>
        rw [hc] at hmem
        cases hmem
      | ok cs =>
        rw [hc] at hmem
        obtain ⟨c, hcmem, rfl⟩ := List.mem_map.1 hmem
        obtain ⟨hf, sessions, hquery, hsub⟩ := pendingForDevice_run hc
        obtain ⟨p, hp, hid⟩ := h.1
        simp only [answersUsable, hf, bne_self_eq_false, Bool.false_or, hquery, List.all_eq_true,
          Bool.or_eq_true, bne_iff_ne] at hg
        rcases hg c.session (hsub c hcmem) p hp with hne | hne
        · exact hne hid
        · exact hne (h.2 p hp hid)
    | _ =>
      rw [Request.start, Prog.run_map] at hmem
      cases hmem

end Ops

/-- In every run in which `PendingForDevice` finds no session over a revoked pairing, a revocation cuts
the pairing off from signaling until it is confirmed again. -/
theorem cutOff_of_answersUsable (s : Services) (db : FleetDb) (now : Time) (hl : Ledger (.init db now))
    (l : List Op) (h : Run.Guarded (Op.step s) (fun w op => answersUsable w op = true) (.init db now) l) :
    CutOff s (.init db now) l := by
  rintro l₁ op l₂ op' l₃ pairingID rfl hrev hquiet
  have hledger : Ledger (Run.exec (Op.step s) (.init db now) l₁) :=
    Run.invariant (fun _ op hw => ledger_step op hw) hl l₁
  have hcut : Cut pairingID (Run.exec (Op.step s) (.init db now) (l₁ ++ op :: l₂)) := by
    rw [show l₁ ++ op :: l₂ = (l₁ ++ [op]) ++ l₂ by simp, Run.exec_append]
    refine cut_run ?_ hquiet
    rw [Run.exec_append]
    exact cut_of_revokes hledger hrev
  refine not_issues_of_cut hcut ?_
  rw [show l₁ ++ op :: (l₂ ++ op' :: l₃) = (l₁ ++ op :: l₂) ++ op' :: l₃ by simp] at h
  exact (Run.guarded_append.1 h).2.1

/-! ### A session from before the revocation -/

/-- The phone opens a session over the pairing `p1`. -/
def sessionOpened : List Op :=
  [request (.initiate "u1" "d1") "x", request (.confirm "u1" "x" "7" "m1") "p1",
    request (.createSession "u1" "p1") "s1"]

def revokeP1 : Op := request (.revokePairing "u1" "p1") ""

def pollD1 : Op := request (.pendingForDevice "u1" "d1") ""

set_option maxRecDepth 8000 in
/-- The agent gets a ticket for a session over a pairing revoked before. -/
theorem ticket_after_revocation :
    ¬ CutOff sampleServices (.init sampleDb 0) (sessionOpened ++ [revokeP1, pollD1]) := by
  intro h
  refine h sessionOpened revokeP1 [] pollD1 [] "p1" rfl ⟨_, List.mem_cons_self, rfl, .inl ⟨_, rfl, ?_⟩⟩
    trivial ⟨_, rfl, _, List.mem_cons_self, rfl⟩
  decide

set_option maxRecDepth 8000 in
theorem cutOff_polled :
    CutOff sampleServices (.init sampleDb 0)
      (sessionOpened ++ [pollD1, request (.endSession "u1" "s1" "") "", revokeP1, pollD1,
        request (.createSession "u1" "p1") "s2"]) :=
  cutOff_of_answersUsable sampleServices sampleDb 0 sampleLedger _ (by decide)

end DeskSync.Fleet
