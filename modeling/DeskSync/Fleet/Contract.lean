import DeskSync.Fleet.Books
import DeskSync.Fleet.Cutoff
import DeskSync.Lib.Rely

/-!
# The services under interleaved requests

Any number of requests in flight, and any call failing. What a request needs for its next call it has looked up in
an earlier one, and the others have made calls since; `Cmd.about` is what a reply says about the tables for good.
So the requests make allowed calls only, and answer with rows of their user (`start_keeps`), and the rest is the
rule for contracts: `books_kept`.
-/

namespace DeskSync.Fleet

open Backend Proc

/-! ### What a reply says -/

/-- A device, a pairing and a session of the user, as an answer shows them. -/
def Device.about (userID : String) (w : Cloud) (d : Device) : Prop := d.userID = userID ∧ Owned w.db d.id userID

def Pairing.about (userID : String) (w : Cloud) (p : Pairing) : Prop :=
  p.userID = userID ∧ Paired w.db p.id userID p.mobileDeviceID p.desktopDeviceID ∧
    Owned w.db p.mobileDeviceID userID ∧ Owned w.db p.desktopDeviceID userID

def Session.about (userID : String) (w : Cloud) (x : Session) : Prop :=
  x.userID = userID ∧ SessionOf w.db x.id x.pairingID userID

section Later
variable {userID : String} {w w' : Cloud}

theorem Device.about.later {d : Device} (h : d.about userID w) (hle : Grows w w') : d.about userID w' :=
  ⟨h.1, hle.devices _ _ h.2⟩

theorem Pairing.about.later {p : Pairing} (h : p.about userID w) (hle : Grows w w') : p.about userID w' :=
  ⟨h.1, hle.pairings _ _ _ _ h.2.1, hle.devices _ _ h.2.2.1, hle.devices _ _ h.2.2.2⟩

theorem Session.about.later {x : Session} (h : x.about userID w) (hle : Grows w w') : x.about userID w' :=
  ⟨h.1, hle.sessions _ _ _ h.2⟩

end Later

/-- What a successful reply says about the tables. -/
def Cmd.about (w : Cloud) : (c : Cmd) → c.Res → Prop
  | .registerDevice reg, d => d.about reg.userID w
  | .getDevice _ userID, d => d.about userID w
  | .listDevices userID, ds => ∀ d ∈ ds, d.about userID w
  | .heartbeat _ userID _, d => d.about userID w
  | .deviceForUser id userID, _ => Owned w.db id userID
  | .upsertActivePairing userID _ _, p => p.about userID w
  | .listPairings userID, ps => ∀ p ∈ ps, p.about userID w
  | .get _, ch => Owned w.db ch.desktopDeviceID ch.userID
  | .pairingForUser id userID, view => Paired w.db id userID view.mobileDeviceID view.desktopDeviceID
  | .createSession x, y => y.about x.userID w ∧ y.pairingID = x.pairingID
  | .getSession _ userID, x => x.about userID w
  | .listSessions userID _, xs => ∀ x ∈ xs, x.about userID w
  | .pendingSessionsForDevice userID _ _, xs => ∀ x ∈ xs, x.about userID w
  | .endSession id userID _, x => x.about userID w ∧ x.id = id
  | _, _ => True

theorem mem_newestFirst {α : Type} {key : α → Time} {rows : List α} {x : α} :
    x ∈ newestFirst key rows ↔ x ∈ rows :=
  List.mem_insertionSort _

/-- A device has one owner. -/
theorem Owned.unique {w : Cloud} {id u u' : String} (hw : Ledger w) (h : Owned w.db id u) (h' : Owned w.db id u') :
    u = u' := by
  obtain ⟨d, hd, hid, hu⟩ := h
  obtain ⟨d', hd', hid', hu'⟩ := h'
  rw [← hu, ← hu', hw.device_eq hd hd' (hid.trans hid'.symm)]

section About
variable {e : Env} {w : Cloud}

theorem register_about {reg : Registration} {d : Device}
    (h : (DeviceRepo.register e reg w.db).1 = .ok d) :
    d.userID = reg.userID ∧ (Owned w.db d.id reg.userID ∨
      (DeviceRepo.register e reg w.db).2.devices = w.db.devices ++ [DeviceRepo.inserted e reg] ∧
        d.id = e.genUUID) := by
  unfold DeviceRepo.register at h ⊢
  split at h
  · rename_i row hrow
    split_ifs at h with huser
    obtain rfl := Except.ok.inj h
    have hid : (DeviceRepo.reregister e.dbNow reg row).id = row.id := reregister_id _ _ _
    have hu : (DeviceRepo.reregister e.dbNow reg row).userID = row.userID := reregister_userID _ _ _
    exact ⟨hu.trans huser, .inl ⟨row, List.mem_of_find?_eq_some hrow, hid.symm, huser⟩⟩
  · rename_i hfind
    split_ifs at h with hn
    obtain rfl := Except.ok.inj h
    refine ⟨rfl, .inr ⟨?_, rfl⟩⟩
    rw [if_neg hn]

/-- What the reply of a call that goes through says. -/
theorem exec_about {q : Request} {c : Cmd} {r : c.Res} (hw : Books w) (hc : Allowed q c w)
    (h : (exec e c w).1.1 = .ok r) : c.about (exec e c w).2 r := by
  have hgrows := exec_grows e c w
  obtain ⟨hf, h⟩ := exec_ok h
  cases c with
  | registerDevice reg =>
    obtain ⟨hu, ho | ⟨hdb, hid⟩⟩ := register_about h
    · exact ⟨hu, hgrows.devices _ _ ho⟩
    · refine ⟨hu, DeviceRepo.inserted e reg, ?_, hid.symm, rfl⟩
      rw [(exec_goes hf (.registerDevice reg)).2]
      exact hdb ▸ List.mem_append_right _ (List.mem_singleton_self _)
  | getDevice id userID =>
    simp only [Cmd.effect, onDb, DeviceRepo.get] at h
    split at h
    · rename_i row hrow
      obtain rfl := Except.ok.inj h
      have howns : DeviceRepo.owns id userID row = true := List.find?_some hrow
      have hu := (owns_iff.1 howns).2.1
      exact ⟨hu, hgrows.devices _ _ ⟨row, List.mem_of_find?_eq_some hrow, rfl, hu⟩⟩
    · cases h
  | listDevices userID =>
    obtain rfl := Except.ok.inj h
    intro d hd
    obtain ⟨row, hrow, rfl⟩ := List.mem_map.1 (mem_newestFirst.1 hd)
    obtain ⟨hmem, hu⟩ := List.mem_filter.1 hrow
    simp only [Bool.and_eq_true, beq_iff_eq] at hu
    exact ⟨hu.1, hgrows.devices _ _ ⟨row, hmem, rfl, hu.1⟩⟩
  | heartbeat id userID status =>
    simp only [Cmd.effect, onDb, DeviceRepo.heartbeat] at h
    split at h
    · rename_i row hrow
      obtain rfl := Except.ok.inj h
      have howns : DeviceRepo.owns id userID row = true := List.find?_some hrow
      have hu := (owns_iff.1 howns).2.1
      have hid : (DeviceRepo.beat e.dbNow id userID status row).id = row.id := beat_id _ _ _ _ _
      have hu' : (DeviceRepo.beat e.dbNow id userID status row).userID = row.userID := beat_userID _ _ _ _ _
      exact ⟨hu'.trans hu, hgrows.devices _ _ ⟨row, List.mem_of_find?_eq_some hrow, hid.symm, hu⟩⟩
    · cases h
  | deviceForUser id userID =>
    simp only [Cmd.effect, onDb, PairingRepo.deviceForUser] at h
    split at h
    · rename_i row hrow
      have howns : DeviceRepo.owns id userID row = true := List.find?_some hrow
      obtain ⟨hid, hu, -⟩ := owns_iff.1 howns
      exact hgrows.devices _ _ ⟨row, List.mem_of_find?_eq_some hrow, hid, hu⟩
    · cases h
  | upsertActivePairing u m d =>
    obtain ⟨hu, hm, hd⟩ := hc.2
    subst hu
    simp only [Cmd.effect, onDb, PairingRepo.upsertActivePairing] at h
    split at h
    · rename_i row hrow
      obtain rfl := Except.ok.inj h
      have hmem := List.mem_of_find?_eq_some hrow
      have hkeys := List.find?_some hrow
      simp only [Bool.and_eq_true, beq_iff_eq] at hkeys
      obtain ⟨rfl, rfl⟩ := hkeys
      -- the pairing that is found stands between devices of the user, so it is the user's
      have huser := Owned.unique hw.ledger (hw.ledger.owned row hmem).1 hm
      obtain ⟨hid, hu, hmob, hdesk⟩ := reactivate_same e.dbNow row.mobileDeviceID row.desktopDeviceID row
      have hpaired : Paired w.db row.id q.userID row.mobileDeviceID row.desktopDeviceID :=
        ⟨row, hmem, rfl, huser, rfl, rfl⟩
      refine ⟨hu.trans huser, ?_, ?_, ?_⟩
      · show Paired _ (PairingRepo.reactivate _ _ _ row).id _ (PairingRepo.reactivate _ _ _ row).mobileDeviceID
          (PairingRepo.reactivate _ _ _ row).desktopDeviceID
        rw [hid, hmob, hdesk]
        exact hgrows.pairings _ _ _ _ hpaired
      · show Owned _ (PairingRepo.reactivate _ _ _ row).mobileDeviceID _
        rw [hmob]
        exact hgrows.devices _ _ hm
      · show Owned _ (PairingRepo.reactivate _ _ _ row).desktopDeviceID _
        rw [hdesk]
        exact hgrows.devices _ _ hd
    · rename_i hfind
      split_ifs at h with hn
      obtain rfl := Except.ok.inj h
      refine ⟨rfl, ⟨PairingRepo.inserted e q.userID m d, ?_, rfl, rfl, rfl, rfl⟩, hgrows.devices _ _ hm,
        hgrows.devices _ _ hd⟩
      rw [(exec_goes hf (.upsertActivePairing q.userID m d)).2]
      simp only [Cmd.effect, onDb, PairingRepo.upsertActivePairing, hfind, if_neg hn]
      exact List.mem_append_right _ (List.mem_singleton_self _)
  | listPairings userID =>
    obtain rfl := Except.ok.inj h
    intro p hp
    obtain ⟨row, hrow, rfl⟩ := List.mem_map.1 (mem_newestFirst.1 hp)
    obtain ⟨hmem, hu⟩ := List.mem_filter.1 hrow
    simp only [Bool.and_eq_true, beq_iff_eq] at hu
    obtain ⟨hm, hd⟩ := hw.ledger.owned row hmem
    rw [hu.1] at hm hd
    exact ⟨hu.1, hgrows.pairings _ _ _ _ ⟨row, hmem, rfl, hu.1, rfl, rfl⟩, hgrows.devices _ _ hm,
      hgrows.devices _ _ hd⟩
  | get id =>
    simp only [Cmd.effect, onRedis, RedisStore.get] at h
    cases hs : w.redis.stored id with
    | none => simp [hs] at h
    | some st =>
      simp only [hs, Except.ok.injEq] at h
      subst h
      exact hgrows.devices _ _ (hw.ledger.challenges id st hs)
  | pairingForUser id userID =>
    simp only [Cmd.effect, onDb, SessionRepo.pairingForUser] at h
    split at h
    · rename_i row hrow
      obtain rfl := Except.ok.inj h
      have hkeys := List.find?_some hrow
      simp only [Bool.and_eq_true, beq_iff_eq] at hkeys
      exact hgrows.pairings _ _ _ _ ⟨row, List.mem_of_find?_eq_some hrow, hkeys.1, hkeys.2, rfl, rfl⟩
    · cases h
  | createSession x =>
    simp only [Cmd.effect, onDb, SessionRepo.createSession] at h
    split_ifs at h with hn
    obtain rfl := Except.ok.inj h
    refine ⟨⟨rfl, SessionRepo.inserted e x, ?_, rfl, rfl, rfl⟩, rfl⟩
    rw [(exec_goes hf (.createSession x)).2]
    simp only [Cmd.effect, onDb, SessionRepo.createSession, if_neg hn]
    exact List.mem_append_right _ (List.mem_singleton_self _)
  | getSession id userID =>
    simp only [Cmd.effect, onDb, SessionRepo.getSession] at h
    split at h
    · rename_i row hrow
      obtain rfl := Except.ok.inj h
      have hkeys := List.find?_some hrow
      simp only [Bool.and_eq_true, beq_iff_eq] at hkeys
      exact ⟨hkeys.2, hgrows.sessions _ _ _ ⟨row, List.mem_of_find?_eq_some hrow, rfl, rfl, hkeys.2⟩⟩
    · cases h
  | listSessions userID limit =>
    obtain rfl := Except.ok.inj h
    intro x hx
    obtain ⟨hmem, hu⟩ := List.mem_filter.1 (mem_newestFirst.1 (List.mem_of_mem_take hx))
    have hu := beq_iff_eq.1 hu
    exact ⟨hu, hgrows.sessions _ _ _ ⟨x, hmem, rfl, rfl, hu⟩⟩
  | pendingSessionsForDevice userID id limit =>
    obtain rfl := Except.ok.inj h
    intro x hx
    obtain ⟨hmem, hu⟩ := List.mem_filter.1 (mem_newestFirst.1 (List.mem_of_mem_take hx))
    simp only [SessionRepo.isPending, Bool.and_eq_true, beq_iff_eq] at hu
    exact ⟨hu.1.1, hgrows.sessions _ _ _ ⟨x, hmem, rfl, rfl, hu.1.1⟩⟩
  | endSession id userID reason =>
    rw [(exec_goes hf (.endSession id userID reason)).2]
    simp only [Cmd.effect, onDb, SessionRepo.endSession, SessionRepo.getSession] at h ⊢
    split at h
    · rename_i row hrow
      obtain rfl := Except.ok.inj h
      have hkeys := List.find?_some hrow
      simp only [Bool.and_eq_true, beq_iff_eq] at hkeys
      exact ⟨⟨hkeys.2, row, List.mem_of_find?_eq_some hrow, rfl, rfl, hkeys.2⟩, hkeys.1⟩
    · cases h
  | _ => trivial

end About

/-! ### Requests -/

/-- What an answer shows belongs to the user. -/
def Response.about (userID : String) (w : Cloud) : Response → Prop
  | .device (.ok d) => d.about userID w
  | .devices (.ok ds) => ∀ d ∈ ds, d.about userID w
  | .pairing (.ok p) => p.about userID w
  | .pairings (.ok ps) => ∀ p ∈ ps, p.about userID w
  | .created (.ok c) => c.session.about userID w
  | .pending (.ok cs) => ∀ c ∈ cs, c.session.about userID w
  | .session (.ok x) => x.about userID w
  | .sessions (.ok xs) => ∀ x ∈ xs, x.about userID w
  | _ => True

theorem Response.about.later {userID : String} {w w' : Cloud} {r : Response} (h : r.about userID w)
    (hle : Grows w w') : r.about userID w' := by
  match r, h with
  | .device (.ok d), h => exact Device.about.later h hle
  | .devices (.ok ds), h => exact fun d hd => (h d hd).later hle
  | .pairing (.ok p), h => exact Pairing.about.later h hle
  | .pairings (.ok ps), h => exact fun p hp => (h p hp).later hle
  | .created (.ok c), h => exact Session.about.later h hle
  | .pending (.ok cs), h => exact fun c hc => (h c hc).later hle
  | .session (.ok x), h => exact Session.about.later h hle
  | .sessions (.ok xs), h => exact fun x hx => (h x hx).later hle
  | .device (.error _), _ | .devices (.error _), _ | .pairing (.error _), _ | .pairings (.error _), _
  | .created (.error _), _ | .pending (.error _), _ | .session (.error _), _ | .sessions (.error _), _
  | .done _, _ | .challenge _, _ => trivial

/-- The requests grant each other that the tables stay in order and only grow, and answer with rows of their
user. -/
def contract (s : Services) : Contract (system s) where
  inv := Books
  le := Grows
  pre := Allowed
  post := fun q r w => r.about q.userID w
  refl := Grows.refl
  trans := fun _ _ _ => Grows.trans
  pre_later := fun _ _ _ _ h hle => h.later hle
  post_later := fun _ _ _ _ h hle => h.later hle
  exec := fun _ e c w hw hc => ⟨books_exec hw hc, exec_grows e c w⟩
  env := fun d _ hw => books_tick hw d

/-- A part of a request: it makes allowed calls, and its result satisfies `post`. -/
abbrev Within {α : Type} (q : Request) (post : α → Cloud → Prop) (p : Handler α) (w : Cloud) : Prop :=
  p.Safe exec Books Grows (Allowed q) post w

section Requests
variable {α : Type} {q : Request} {post : α → Cloud → Prop} {w : Cloud}

/-- A call, and what is made of its reply. -/
theorem Within.call {c : Cmd} {k : Reply c → Handler α} (hc : Allowed q c w)
    (hok : ∀ r here w', Grows w w' → c.about w' r → Within q post (k (.ok r, here)) w')
    (herr : ∀ err here w', Grows w w' → Within q post (k (.error err, here)) w') :
    Within q post (.call c k) w := by
  refine ⟨hc, fun e w' hle hw' => ?_⟩
  have hgrows := hle.trans (exec_grows e c w')
  cases hr : (exec e c w').1 with
  | mk r here =>
    cases r with
    | error err => exact herr err here _ hgrows
    | ok r => exact hok r here _ hgrows (exec_about hw' (hc.later hle) (congrArg Prod.fst hr))

variable (s : Services)

theorem register_within (userID : String) (reg : Registration) :
    Within (.registerDevice userID reg) (fun r w => Response.about userID w (.device r))
      (DeviceService.register userID reg) w := by
  unfold DeviceService.register
  dsimp only
  generalize (trimSpace reg.name == "" || decide (maxNameLen < (trimSpace reg.name).utf8ByteSize)) = unnamed
  generalize validPublicKey reg.publicKey = valid
  split_ifs with hkind
  · trivial
  · trivial
  · trivial
  · trivial
  · exact .call ⟨⟨rfl, by simpa using hkind⟩, trivial⟩ (fun d here w' _ hd => hd)
      fun err here w' _ => by cases err <;> trivial

theorem initiate_within (userID desktop : String) :
    Within (.initiate userID desktop) (fun _ _ => True) (s.pairing.initiate userID desktop) w := by
  unfold PairingService.initiate
  generalize blank desktop = missing
  split_ifs
  · trivial
  · refine .call ⟨⟨rfl, rfl⟩, trivial⟩ (fun dev here w' _ hdev => ?_) fun err here w' _ => by cases err <;> trivial
    dsimp only [Prog.bind]
    split_ifs
    · trivial
    · split
      · trivial
      · exact .call ⟨⟨rfl, rfl⟩, rfl, hdev⟩ (fun _ _ _ _ _ => trivial) fun _ _ _ _ => trivial

/-- What `Confirm` returns with. -/
abbrev confirmed (userID : String) (r : Except AppError Pairing) (w : Cloud) : Prop :=
  Response.about userID w (.pairing r)

theorem authorize_within {userID pairingID code mobile desktop : String} (hd : Owned w.db desktop userID) :
    Within (.confirm userID pairingID code mobile) (confirmed userID)
      (PairingService.authorize userID pairingID mobile desktop) w := by
  refine .call ⟨⟨rfl, rfl⟩, trivial⟩ (fun dev here w' hle hm => ?_) fun err here w' _ => by cases err <;> trivial
  dsimp only [Prog.bind]
  split_ifs
  · trivial
  · refine .call ⟨⟨rfl, rfl⟩, rfl, hm, hle.devices _ _ hd⟩ (fun p here' w' hle' hp => ?_) fun _ _ _ _ => trivial
    exact .call ⟨rfl, trivial⟩ (fun _ _ _ hle _ => Pairing.about.later hp hle)
      fun _ _ _ hle => Pairing.about.later hp hle

theorem confirm_within (userID pairingID code mobile : String) :
    Within (.confirm userID pairingID code mobile) (confirmed userID)
      (s.pairing.confirm userID pairingID code mobile) w := by
  unfold PairingService.confirm
  generalize (blank pairingID || blank code || blank mobile) = missing
  split_ifs
  · trivial
  · refine .call ⟨rfl, trivial⟩ (fun ch here w' _ hch => ?_) fun err here w' _ => by cases err <;> trivial
    dsimp only [Prog.bind, PairingService.checkChallenge]
    split_ifs with huser
    · trivial
    · exact .call ⟨rfl, trivial⟩ (fun _ _ _ _ _ => trivial) fun _ _ _ _ => trivial
    · refine .call ⟨rfl, trivial⟩ (fun attempts here' w' _ _ => ?_) fun _ _ _ _ => trivial
      dsimp only [Prog.bind]
      split_ifs
      · exact .call ⟨rfl, trivial⟩ (fun _ _ _ _ _ => trivial) fun _ _ _ _ => trivial
      · trivial
    · have hd : Owned w'.db ch.desktopDeviceID ch.userID := hch
      rw [not_not.1 huser] at hd
      exact authorize_within hd

theorem createSession_within (userID pairingID : String) :
    Within (.createSession userID pairingID) (fun r w => Response.about userID w (.created r))
      (s.session.createSession userID pairingID) w := by
  unfold SessionService.createSession
  split_ifs
  · trivial
  · refine .call ⟨⟨rfl, rfl⟩, trivial⟩ (fun view here w' _ hview => ?_) fun err here w' _ => by cases err <;> trivial
    dsimp only [Prog.bind]
    split_ifs
    · trivial
    · refine .call ⟨⟨rfl, rfl⟩, rfl, rfl, _, _, hview⟩ (fun x here' w' _ hx => ?_) fun _ _ _ _ => trivial
      dsimp only [Prog.bind]
      split
      · trivial
      · exact .call ⟨trivial, _, hx.1.2⟩ (fun _ _ _ hle _ => Session.about.later hx.1 hle)
          fun _ _ _ hle => Session.about.later hx.1 hle

theorem pendingForDevice_within (userID desktop : String) :
    Within (.pendingForDevice userID desktop) (fun r w => Response.about userID w (.pending r))
      (s.session.pendingForDevice userID desktop) w := by
  unfold SessionService.pendingForDevice
  split_ifs
  · trivial
  · refine .call ⟨⟨rfl, rfl⟩, trivial⟩ (fun xs here w' _ hxs => ?_) fun _ _ _ _ => trivial
    show Response.about userID w' (.pending (s.session.answer here.now userID xs))
    cases hcs : s.session.answer here.now userID xs with
    | error _ => trivial
    | ok cs => exact fun c hc => hxs _ (answer_session hcs c hc)

theorem endSession_within (userID id reason : String) :
    Within (.endSession userID id reason) (fun r w => Response.about userID w (.session r))
      (SessionService.endSession userID id reason) w := by
  refine .call ⟨⟨rfl, rfl⟩, trivial⟩ (fun x here w' _ hx => ?_) fun err here w' _ => by cases err <;> trivial
  obtain ⟨hx, hid⟩ := hx
  exact .call ⟨rfl, _, hid ▸ hx.2⟩ (fun _ _ _ hle _ => Session.about.later hx hle)
    fun _ _ _ hle => Session.about.later hx hle

/-- Every request keeps to the contract from its start. -/
theorem start_keeps (q : Request) (e : Env) (w : Cloud) : (contract s).Keeps q ((system s).start q e) w := by
  cases q with
  | registerDevice userID reg => exact (register_within userID reg).map _ fun _ _ h => h
  | initiate userID desktop =>
    have h := initiate_within s userID desktop (w := w)
    show Within _ _ (Response.challenge <$> s.pairing.initiate userID desktop) w
    generalize s.pairing.initiate userID desktop = p at h ⊢
    exact h.map _ fun _ _ _ => trivial
  | confirm userID pairingID code mobile =>
    have h := confirm_within s userID pairingID code mobile (w := w)
    show Within _ _ (Response.pairing <$> s.pairing.confirm userID pairingID code mobile) w
    generalize s.pairing.confirm userID pairingID code mobile = p at h ⊢
    exact h.map _ fun _ _ h => h
  | createSession userID pairingID => exact (createSession_within s userID pairingID).map _ fun _ _ h => h
  | pendingForDevice userID desktop => exact (pendingForDevice_within s userID desktop).map _ fun _ _ h => h
  | endSession userID id reason => exact (endSession_within userID id reason).map _ fun _ _ h => h
  | listDevices userID =>
    exact Within.call ⟨rfl, trivial⟩ (fun _ _ _ _ h => h) fun err _ _ _ => by cases err <;> trivial
  | listPairings userID =>
    exact Within.call ⟨rfl, trivial⟩ (fun _ _ _ _ h => h) fun err _ _ _ => by cases err <;> trivial
  | listSessions userID =>
    exact Within.call ⟨rfl, trivial⟩ (fun _ _ _ _ h => h) fun err _ _ _ => by cases err <;> trivial
  | getDevice userID id =>
    exact Within.call ⟨⟨rfl, rfl⟩, trivial⟩ (fun _ _ _ _ h => h) fun err _ _ _ => by cases err <;> trivial
  | heartbeat userID id status =>
    refine Within.call ⟨?_, trivial⟩ (fun _ _ _ _ h => h) fun err _ _ _ => by cases err <;> trivial
    exact (heartbeat_only userID id status).1
  | revokeDevice userID id =>
    exact Within.call ⟨⟨rfl, rfl⟩, trivial⟩ (fun _ _ _ _ _ => trivial) fun err _ _ _ => by cases err <;> trivial
  | revokePairing userID id =>
    exact Within.call ⟨⟨rfl, rfl⟩, trivial⟩ (fun _ _ _ _ _ => trivial) fun err _ _ _ => by cases err <;> trivial
  | getSession userID id =>
    exact Within.call ⟨⟨rfl, rfl⟩, trivial⟩ (fun _ _ _ _ h => h) fun err _ _ _ => by cases err <;> trivial

end Requests

/-! ### Runs -/

/-- In every run the contract holds, and between any two of its moments the tables have only grown. -/
theorem contract_run (s : Services) {w : Cloud} (hw : Books w) (l : List Step) :
    (contract s).Holds ((system s).run w l) :=
  (contract s).run (fun q e w _ => start_keeps s q e w) hw l

theorem grows_run (s : Services) {w : World} (hw : (contract s).Holds w) (l : List Step) :
    Grows w.store (Run.exec (system s).step w l).store := by
  induction l generalizing w with
  | nil => exact .refl _
  | cons a l ih =>
    obtain ⟨hstep, hle⟩ := hw.step (fun q e w _ => start_keeps s q e w) a
    exact hle.trans (ih hstep)

/-- **Whatever requests are in flight and whichever of their calls fail, the tables keep their references, keys and
column agreements, and from any moment of a run to a later one no row is lost, renamed or handed over, no ended
session changes, and the log is only appended to.** -/
theorem books_kept (s : Services) (w : Cloud) (hw : Books w) (l₁ l₂ : List Step) :
    Books ((system s).run w (l₁ ++ l₂)).store ∧
      Grows ((system s).run w l₁).store ((system s).run w (l₁ ++ l₂)).store := by
  refine ⟨(contract_run s hw _).inv, ?_⟩
  unfold System.run
  rw [Run.exec_append]
  exact grows_run s (contract_run s hw l₁) l₂

theorem sampleBooks : Books (.init sampleDb 0) where
  ledger := sampleLedger
  accounts := by decide
  presence := by decide
  pairs := by decide
  revoked := by rintro p ⟨⟩
  sessions := by decide
  paired := by rintro x ⟨⟩
  coherent := by rintro x ⟨⟩
  events := by rintro ev ⟨⟩

/-- Two confirmations of one code, whose calls take turns. -/
def confirmedTwice : List Step :=
  [.spawn (.initiate "u1" "d1") (goes "c1"), .advance 0 (goes "c1"), .advance 0 (goes "c1"),
    .spawn (.confirm "u1" "c1" "7" "m1") (goes ""), .spawn (.confirm "u1" "c1" "7" "m2") (goes "")] ++
    (List.range 8).map fun n => .advance (n % 2 + 1) (goes (if n % 2 = 0 then "p1" else "p2"))

/-- One pairing is there, then both, and the tables are in order. -/
theorem confirmedTwice_kept :
    (((system sampleServices).run (.init sampleDb 0) (confirmedTwice.take 10)).store.db.pairings.map (·.id) = ["p1"] ∧
      ((system sampleServices).run (.init sampleDb 0)
        (confirmedTwice.take 10 ++ confirmedTwice.drop 10)).store.db.pairings.map (·.id) = ["p1", "p2"]) ∧
    Books ((system sampleServices).run (.init sampleDb 0) (confirmedTwice.take 10 ++ confirmedTwice.drop 10)).store ∧
      Grows ((system sampleServices).run (.init sampleDb 0) (confirmedTwice.take 10)).store
        ((system sampleServices).run (.init sampleDb 0) (confirmedTwice.take 10 ++ confirmedTwice.drop 10)).store :=
  ⟨by decide +kernel, books_kept sampleServices _ sampleBooks (confirmedTwice.take 10) (confirmedTwice.drop 10)⟩

end DeskSync.Fleet
