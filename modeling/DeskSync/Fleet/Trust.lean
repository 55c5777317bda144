import DeskSync.Fleet.Ledger

/-!
# Active pairings and live devices

An active pairing should stand between a live phone and a live desktop of its user. Two operations break
this. `Confirm` checks the phone but takes the desktop from the challenge, and the desktop may have been
revoked since `Initiate` (`confirm_revoked_desktop`). `Register` changes the kind of a device when its
owner registers the key again, whatever pairings it is in.

`keepsTrust` excludes the operations that do so: a `Confirm` that reaches its `UpsertActivePairing`
while the desktop of the challenge is no live desktop of the user, and a `Register` that changes the
kind of a device of an active pairing. In every run without them every active pairing is trusted
(`trusted_of_keepsTrust`); a device revocation reaches all pairings of the device, since a pairing
belongs to the user that owns its devices (`Ledger`).
-/

namespace DeskSync.Fleet

open Backend Proc

/-- Every active pairing is between a live phone and a live desktop of its user. -/
def Trusted (db : FleetDb) : Prop :=
  ∀ p ∈ db.pairings, p.status = .active →
    Live db p.mobileDeviceID p.userID .mobile ∧ Live db p.desktopDeviceID p.userID .desktop

/-! ### The condition -/

/-- An active pairing references the device. -/
def inActivePairing (db : FleetDb) (id : String) : Bool :=
  db.pairings.any fun p => p.status == .active && (p.mobileDeviceID == id || p.desktopDeviceID == id)

/-- The registration changes the kind of no device in an active pairing. -/
def keepsKinds (db : FleetDb) (reg : Registration) : Bool :=
  db.devices.all fun d =>
    d.publicKey != reg.publicKey || d.userID != reg.userID || d.kind == reg.kind ||
      !inActivePairing db d.id

/-- A `Confirm` that goes through to its `UpsertActivePairing` finds the desktop of the challenge a live
desktop of the user; a `Register` keeps the kinds of the devices in active pairings. -/
def keepsTrust (s : Services) (w : Cloud) : Op → Bool
  | .request (.registerDevice userID reg) es =>
    (es 0).fault == .lost || !acceptable (normalized userID reg) ||
      keepsKinds w.db (normalized userID reg)
  | .request (.confirm userID pairingID code mobile) es =>
    match w.redis.stored pairingID with
    | none => true
    | some st =>
      let ch := st.challenge
      (es 0).fault != .none || (es 1).fault != .none || (es 2).fault == .lost ||
        verdict s ⟨userID, pairingID, code, mobile⟩ (.ok ch, (es 0).here) != some true ||
        !decide (Live w.db mobile userID .mobile) || decide (Live w.db ch.desktopDeviceID userID .desktop)
  | _ => true

/-! ### Calls -/

/-- A live device stays live when a map over the devices keeps what the lookups ask for. -/
theorem live_map {db : FleetDb} {ps : List PairingRow} {f : DeviceRow → DeviceRow} {id userID : String}
    {kind : Kind} (h : Live db id userID kind)
    (hf : ∀ d ∈ db.devices, DeviceRepo.owns id userID d = true → d.kind = kind →
      DeviceRepo.owns id userID (f d) = true ∧ (f d).kind = kind) :
    Live { db with devices := db.devices.map f, pairings := ps } id userID kind := by
  obtain ⟨d, hd, howns, hkind⟩ := h
  obtain ⟨howns', hkind'⟩ := hf d hd howns hkind
  exact ⟨f d, List.mem_map_of_mem hd, howns', hkind'⟩

theorem live_append {db : FleetDb} {ds : List DeviceRow} {id userID : String} {kind : Kind}
    (h : Live db id userID kind) : Live { db with devices := db.devices ++ ds } id userID kind := by
  obtain ⟨d, hd, hlive⟩ := h
  exact ⟨d, List.mem_append_left _ hd, hlive⟩

/-- A pairing that a cascade leaves active was active and is not reached by it. -/
theorem active_of_revokePairingOf {now : Time} {id userID : String} {p : PairingRow}
    (h : (DeviceRepo.revokePairingOf now id userID p).status = .active) :
    DeviceRepo.revokePairingOf now id userID p = p ∧
      ¬ (p.userID = userID ∧ (p.mobileDeviceID = id ∨ p.desktopDeviceID = id)) := by
  unfold DeviceRepo.revokePairingOf at h ⊢
  split_ifs at h ⊢ with hc
  exact ⟨rfl, fun hp => hc ⟨hp.1, hp.2, by rw [h]; simp⟩⟩

theorem active_of_revokeRow {now : Time} {id userID : String} {p : PairingRow}
    (h : (PairingRepo.revokeRow now id userID p).status = .active) :
    PairingRepo.revokeRow now id userID p = p := by
  unfold PairingRepo.revokeRow at h ⊢
  split_ifs at h ⊢
  rfl

section Calls
variable {w : Cloud} {e : Env}

/-- Registering a device keeps trust, if it keeps the kinds of the devices in active pairings. -/
theorem trusted_register (hw : Ledger w) (ht : Trusted w.db) {reg : Registration}
    (hk : keepsKinds w.db reg = true) : Trusted (DeviceRepo.register e reg w.db).2 := by
  unfold DeviceRepo.register
  split
  · rename_i row hrow
    split_ifs with huser
    · have hkey : row.publicKey = reg.publicKey := by simpa using List.find?_some hrow
      have hstay : ∀ {p id userID kind}, p ∈ w.db.pairings → p.status = .active →
          (p.mobileDeviceID = id ∨ p.desktopDeviceID = id) → Live w.db id userID kind →
          Live { w.db with devices := w.db.devices.map (DeviceRepo.reregister e.dbNow reg) }
            id userID kind := by
        intro p id userID kind hp hact href hlive
        refine live_map hlive fun d hd howns hkind => ?_
        obtain ⟨hid, hduser, -⟩ := owns_iff.1 howns
        unfold DeviceRepo.reregister
        split_ifs with hdkey
        · have hdrow := hw.device_eq_of_key hd (List.mem_of_find?_eq_some hrow) (hdkey.trans hkey.symm)
          have hin : inActivePairing w.db d.id = true := by
            simp only [inActivePairing, List.any_eq_true, Bool.and_eq_true, beq_iff_eq, Bool.or_eq_true]
            exact ⟨p, hp, hact, hid ▸ href⟩
          have hkinds := List.all_eq_true.1 hk d hd
          simp only [hdkey, hdrow ▸ huser, hin, bne_self_eq_false, Bool.false_or, Bool.not_true,
            Bool.or_false, beq_iff_eq] at hkinds
          exact ⟨owns_iff.2 ⟨hid, hduser, rfl⟩, hkinds.symm.trans hkind⟩
        · exact ⟨howns, hkind⟩
      intro p hp hact
      obtain ⟨hm, hd⟩ := ht p hp hact
      exact ⟨hstay hp hact (.inl rfl) hm, hstay hp hact (.inr rfl) hd⟩
    · exact ht
  · split_ifs
    · exact ht
    · intro p hp hact
      obtain ⟨hm, hd⟩ := ht p hp hact
      exact ⟨live_append hm, live_append hd⟩

/-- A device revocation reaches every active pairing of the device. -/
theorem trusted_revoke (ht : Trusted w.db) {now : Time} {id userID : String} :
    Trusted (DeviceRepo.revoke now id userID w.db).2 := by
  unfold DeviceRepo.revoke
  split_ifs
  · intro p' hp' hact
    obtain ⟨p, hp, rfl⟩ := List.mem_map.1 hp'
    obtain ⟨heq, hmiss⟩ := active_of_revokePairingOf hact
    rw [heq] at hact ⊢
    have hstay : ∀ {dev kind}, (p.mobileDeviceID = dev ∨ p.desktopDeviceID = dev) →
        Live w.db dev p.userID kind →
        Live { w.db with
          devices := w.db.devices.map (DeviceRepo.revokeDevice now id userID)
          pairings := w.db.pairings.map (DeviceRepo.revokePairingOf now id userID) } dev p.userID kind := by
      intro dev kind href hlive
      refine live_map hlive fun d _ howns hkind => ?_
      unfold DeviceRepo.revokeDevice
      split_ifs with hrev
      · obtain ⟨hid, hduser, -⟩ := owns_iff.1 howns
        obtain ⟨hid', hduser', -⟩ := owns_iff.1 hrev
        exact absurd ⟨hduser.symm.trans hduser', hid.symm.trans hid' ▸ href⟩ hmiss
      · exact ⟨howns, hkind⟩
    exact ⟨hstay (.inl rfl) (ht p hp hact).1, hstay (.inr rfl) (ht p hp hact).2⟩
  · exact ht

theorem trusted_heartbeat (ht : Trusted w.db) {now : Time} {id userID : String} {status : Presence} :
    Trusted (DeviceRepo.heartbeat now id userID status w.db).2 := by
  unfold DeviceRepo.heartbeat
  split
  · have hstay : ∀ {dev user kind}, Live w.db dev user kind →
        Live { w.db with devices := w.db.devices.map (DeviceRepo.beat now id userID status) }
          dev user kind := by
      intro dev user kind hlive
      refine live_map hlive fun d _ howns hkind => ?_
      unfold DeviceRepo.beat
      split_ifs
      · exact ⟨howns, hkind⟩
      · exact ⟨howns, hkind⟩
    exact fun p hp hact => ⟨hstay (ht p hp hact).1, hstay (ht p hp hact).2⟩
  · exact ht

/-- Activating a pairing of two live devices keeps trust. -/
theorem trusted_upsert (hw : Ledger w) (ht : Trusted w.db) {userID mobile desktop : String}
    (hm : Live w.db mobile userID .mobile) (hd : Live w.db desktop userID .desktop) :
    Trusted (PairingRepo.upsertActivePairing e userID mobile desktop w.db).2 := by
  unfold PairingRepo.upsertActivePairing
  split
  · intro p' hp' hact
    obtain ⟨p, hp, rfl⟩ := List.mem_map.1 hp'
    obtain ⟨-, huser, hmob, hdesk⟩ := reactivate_same e.dbNow mobile desktop p
    rw [huser, hmob, hdesk]
    by_cases hc : p.mobileDeviceID = mobile ∧ p.desktopDeviceID = desktop
    · obtain ⟨rfl, rfl⟩ := hc
      -- the pairing belongs to the owner of its devices
      have hsame : p.userID = userID := by
        obtain ⟨a, ha, haid, hauser⟩ := (hw.owned p hp).1
        obtain ⟨b, hb, hbid, hbuser⟩ := hm.owned
        rw [← hauser, ← hbuser, hw.device_eq ha hb (haid.trans hbid.symm)]
      rw [hsame]
      exact ⟨hm, hd⟩
    · rw [PairingRepo.reactivate, if_neg hc] at hact
      exact ht p hp hact
  · split_ifs
    · exact ht
    · intro p hp hact
      rcases List.mem_append.1 hp with hp | hp
      · exact ht p hp hact
      · obtain rfl := List.mem_singleton.1 hp
        exact ⟨hm, hd⟩

theorem trusted_revokePairing (ht : Trusted w.db) {now : Time} {id userID : String} :
    Trusted (PairingRepo.revokePairing now id userID w.db).2 := by
  unfold PairingRepo.revokePairing
  split_ifs
  · intro p' hp' hact
    obtain ⟨p, hp, rfl⟩ := List.mem_map.1 hp'
    have heq := active_of_revokeRow hact
    rw [heq] at hact ⊢
    exact ht p hp hact
  · exact ht

end Calls

/-! ### Runs -/

/-- Under the guard, the calls of an operation keep trust. -/
theorem trusted_made {s : Services} {w₀ : Cloud} {q : Request} {es : ℕ → Env}
    (hg : keepsTrust s w₀ (.request q es) = true) {e : Env} {c : Cmd} {w : Cloud}
    (h : Made s w₀ es q e c w) (hw : Ledger w) (ht : Trusted w.db) : Trusted (exec e c w).2.db := by
  rcases exec_tables e c w with ⟨hdev, hpair⟩ | ⟨hf, ⟨reg, rfl, hdb⟩ | ⟨id, u, rfl, hdb⟩ |
    ⟨id, u, st, rfl, hdb⟩ | ⟨u, m, d, rfl, hdb⟩ | ⟨id, u, rfl, hdb⟩⟩
  · unfold Trusted Live
    rwa [hdev, hpair]
  · rw [hdb]
    cases q with
    | registerDevice userID reg' =>
      obtain ⟨rfl, rfl, rfl, hacc⟩ := h
      refine trusted_register hw ht ?_
      simpa [keepsTrust, hf, hacc] using hg
    | _ => cases h.2
  · rw [hdb]
    exact trusted_revoke ht
  · rw [hdb]
    exact trusted_heartbeat ht
  · rw [hdb]
    cases q with
    | confirm userID pairingID code mobile =>
      obtain ⟨rfl, rfl, rfl, rfl, hf₀, hf₁, hlive, ch, ⟨⟨st, hst, rfl⟩, hv⟩, rfl⟩ := h
      refine trusted_upsert hw ht hlive ?_
      simpa [keepsTrust, hst, hf₀, hf₁, hf, hv, hlive] using hg
    | _ => cases h.2
  · rw [hdb]
    exact trusted_revokePairing ht

/-- In every run in which no confirmation activates a pairing with a desktop that is not live, and no
registration changes the kind of a device in an active pairing, every active pairing is trusted in every
state. -/
theorem trusted_of_keepsTrust (s : Services) (db : FleetDb) (now : Time)
    (hl : Ledger (.init db now)) (ht : Trusted db) (l : List Op)
    (h : Run.Guarded (Op.step s) (fun w op => keepsTrust s w op = true) (.init db now) l) :
    Run.Always (Op.step s) (fun w => Trusted w.db) (.init db now) l := by
  have hrun : Run.Always (Op.step s) (fun w => Ledger w ∧ Trusted w.db) (.init db now) l := by
    refine h.always (fun w op hw hg => ?_) ⟨hl, ht⟩
    refine op.invariant (I := fun w => Ledger w ∧ Trusted w.db) ?_ ?_ hw
    · rintro q es rfl e c w' hm ⟨hw', ht'⟩
      exact ⟨ledger_made hm hw', trusted_made hg hm hw' ht'⟩
    · rintro d w' ⟨hw', ht'⟩
      exact ⟨ledger_tick hw' d, ht'⟩
  exact hrun.mono fun w hw => hw.2

/-! ### A desktop revoked between the two steps -/

/-- The desktop is revoked after it has shown its code; the phone confirms. -/
def confirmRevoked : List Op :=
  [request (.initiate "u1" "d1") "x", request (.revokeDevice "u1" "d1") "",
    request (.confirm "u1" "x" "7" "m1") "p1"]

/-- The phone confirms, and the desktop is revoked. -/
def confirmThenRevoke : List Op :=
  [request (.initiate "u1" "d1") "x", request (.confirm "u1" "x" "7" "m1") "p1",
    request (.revokeDevice "u1" "d1") ""]

set_option maxRecDepth 8000 in
/-- `confirmRevoked` ends with an active pairing to a revoked desktop. -/
theorem confirm_revoked_desktop :
    ¬ Run.Always (Op.step sampleServices) (fun w => Trusted w.db) (.init sampleDb 0) confirmRevoked := by
  intro h
  exact absurd (h.last _ (List.mem_singleton_self _) rfl).2 (by decide)

set_option maxRecDepth 8000 in
theorem trusted_confirmThenRevoke :
    Run.Always (Op.step sampleServices) (fun w => Trusted w.db) (.init sampleDb 0) confirmThenRevoke := by
  refine trusted_of_keepsTrust sampleServices sampleDb 0 sampleLedger ?_ confirmThenRevoke (by decide)
  rintro p ⟨⟩

end DeskSync.Fleet
