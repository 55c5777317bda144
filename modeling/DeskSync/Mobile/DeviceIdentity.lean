import DeskSync.Fleet.Repository
import DeskSync.Lib.Base64
import DeskSync.Lib.Proc

/-!
# The identity of the phone

`DeviceIdentity.ensureRegistered` (`features/devices/application/device_identity.dart`) on the secure storage
of the phone and the `devices` table. The first call generates a key and stores it, registers the phone with
it, and stores the id that the server has assigned. A later call finds the id.

Any number of calls are under way at once; a step is one operation of the storage, or one registration. Two
calls that both find no key both generate one: `two_first_calls` is a run after which the phone has two rows,
and each call has returned another id. `oneDevice_iff`: where all calls return and no registration fails, they
return one id, which is the one stored, and register one key, if and only if no call finds the storage without
a key while another one is about to store one.
-/

namespace DeskSync.Mobile.DeviceIdentity

open Fleet Proc
open Proc.Prog (perform)

/-- `StorageKeys`, the two of the device. -/
inductive StorageKey
  | mobileDeviceId
  | mobileDevicePublicKey
  deriving DecidableEq

/-- What `Random.secure` draws for a key. -/
abbrev Draw := {bs : Bytes // bs.length = 32}

def base64Encode (bs : Bytes) : String :=
  String.ofList ((Base64.encode Base64.std true bs).map fun b => Char.ofNat b.toNat)

def generateRandomKeyBase64 (draw : Draw) : String := base64Encode draw.1

inductive TargetPlatform
  | android
  | fuchsia
  | iOS
  | linux
  | macOS
  | windows

def platform : TargetPlatform → Platform
  | .iOS => .ios
  | .android => .android
  | _ => .android

def deviceName : TargetPlatform → String
  | .iOS => "iPhone"
  | _ => "Android device"

structure DeviceRegistration where
  kind : Kind
  platform : Platform
  name : String
  publicKey : String

/-- `toJson`, and what the server makes of it for the user that is signed in. -/
def DeviceRegistration.of (reg : DeviceRegistration) (userID : String) : Registration where
  userID := userID
  kind := reg.kind
  platform := reg.platform
  name := reg.name
  publicKey := reg.publicKey
  fcmToken := none

/-! ### `DeviceIdentity` -/

inductive Call
  | read (key : StorageKey)
  | write (key : StorageKey) (value : String)
  | register (registration : DeviceRegistration)

/-- A read comes with what is drawn after it. -/
@[reducible] def Reply : Call → Type
  | .read _ => Option String × Draw
  | .write _ _ => Unit
  | .register _ => Except RepoError Device

abbrev Handler := Prog Reply

abbrev Result := Except RepoError String

/-- The value, if there is one and it is not empty. -/
def present (value : Option String) : Option String := value.filter (· != "")

/-- `_ensurePublicKey`, where no key is stored. -/
def storeKey (key : String) : Handler String := do
  perform (Call.write .mobileDevicePublicKey key)
  return key

/-- `_ensurePublicKey`. -/
def ensurePublicKey : Handler String := do
  let (existing, draw) ← perform (Call.read .mobileDevicePublicKey)
  match present existing with
  | some key => return key
  | none => storeKey (generateRandomKeyBase64 draw)

/-- The end of `ensureRegistered`. -/
def storeId (id : String) : Handler Result := do
  perform (Call.write .mobileDeviceId id)
  return .ok id

def registration (target : TargetPlatform) (publicKey : String) : DeviceRegistration where
  kind := .mobile
  platform := platform target
  name := deviceName target
  publicKey := publicKey

/-- `ensureRegistered`, once there is a key. -/
def registerWith (target : TargetPlatform) (publicKey : String) : Handler Result := do
  let device : Except RepoError Device ← perform (Call.register (registration target publicKey))
  match device with
  | .ok device => storeId device.id
  | .error e => return .error e

def ensureRegistered (target : TargetPlatform) : Handler Result := do
  let (existing, _) ← perform (Call.read .mobileDeviceId)
  match present existing with
  | some id => return .ok id
  | none => do
    let publicKey ← ensurePublicKey
    registerWith target publicKey

/-! ### The storage and the server -/

structure Phone where
  store : StorageKey → Option String
  db : FleetDb

/-- What a call finds outside: the draws of the phone, who is signed in, and the database. -/
structure Env where
  draw : Draw
  userID : String
  server : Fleet.Env

def exec (e : Env) : (c : Call) → Phone → Reply c × Phone
  | .read key, s => ((s.store key, e.draw), s)
  | .write key value, s => ((), { s with store := Function.update s.store key (some value) })
  | .register reg, s =>
    let (reply, db) := DeviceRepo.register e.server (reg.of e.userID) s.db
    (reply, { s with db })

def system (target : TargetPlatform) : System Phone Unit Reply Result Env Empty where
  start _ _ := ensureRegistered target
  exec := exec
  env := nofun

abbrev World := Pool Phone Unit Reply Result

abbrev Step := Label Unit Env Empty

/-- The storage is empty. -/
def fresh (db : FleetDb) : World := ⟨⟨fun _ => none, db⟩, []⟩

def Call.registers : Call → Option String
  | .register reg => some reg.publicKey
  | _ => none

/-- The key that a step registers. -/
def registered (w : World) : Step → Option String
  | .advance i _ => (w.threads[i]?.bind fun t => t.prog.pending).bind Call.registers
  | _ => none

abbrev Observed := World × List String

abbrev observed (target : TargetPlatform) : Observed → Step → Observed :=
  Run.observe (system target).step registered

def run (target : TargetPlatform) (db : FleetDb) (l : List Step) : Observed :=
  Run.exec (observed target) (fresh db, []) l

/-- Every call has returned one id, which is stored, and one key has been registered. -/
def OneDevice (p : Observed) : Prop :=
  (∃ id, ∀ t ∈ p.1.threads, t.prog.result = some (.ok id) ∧ p.1.store.store .mobileDeviceId = some id) ∧
    ∃ key, ∀ k ∈ p.2, k = key

/-- A registration does not fail. -/
def Succeeds (w : World) : Step → Prop
  | .advance i e =>
    match w.threads[i]? with
    | some ⟨_, .call (.register reg) _⟩ => (exec e (.register reg) w.store).1.isOk
    | _ => True
  | _ => True

/-- The key that a call is about to store. -/
def storing : Handler Result → Option String
  | .call (.write .mobileDevicePublicKey key) _ => some key
  | _ => none

/-- A call that finds no key generates no other one than those that are about to be stored. -/
def Agreed (w : World) : Step → Prop
  | .advance i e =>
    match w.threads[i]? with
    | some ⟨_, .call (.read .mobileDevicePublicKey) _⟩ =>
      present (w.store.store .mobileDevicePublicKey) = none →
        ∀ t ∈ w.threads, ∀ key ∈ storing t.prog, key = generateRandomKeyBase64 e.draw
    | _ => True
  | _ => True

instance (w : World) (l : Step) : Decidable (Succeeds w l) := by
  unfold Succeeds
  split
  · split <;> infer_instance
  · infer_instance

instance (w : World) (l : Step) : Decidable (Agreed w l) := by
  unfold Agreed
  split
  · split <;> infer_instance
  · infer_instance

/-! ### The server -/

/-- The id of the row that has the key. -/
def enrolled (key : String) (db : FleetDb) : Option String :=
  (db.devices.find? fun row => row.publicKey == key).map fun row => row.id

/-- A registration that succeeds returns the id of the row that has the key, and no row before it gets
another id. -/
theorem register_ok {e : Fleet.Env} {reg : Registration} {db : FleetDb} {device : Device}
    (h : (DeviceRepo.register e reg db).1 = .ok device) :
    enrolled reg.publicKey (DeviceRepo.register e reg db).2 = some device.id ∧
      ∀ id, enrolled reg.publicKey db = some id → id = device.id := by
  unfold DeviceRepo.register at h ⊢
  split at h
  · next row hfind =>
    split_ifs at h with huser
    cases h
    have hid : (DeviceRepo.reregister e.dbNow reg row).id = row.id := by
      unfold DeviceRepo.reregister
      split_ifs <;> rfl
    have hkey (row : DeviceRow) : (DeviceRepo.reregister e.dbNow reg row).publicKey = row.publicKey := by
      unfold DeviceRepo.reregister
      split_ifs <;> rfl
    simp only [hfind, if_pos huser, enrolled, List.find?_map, Function.comp_def, hkey, Option.map_some, hid,
      true_and, Option.some.injEq]
    exact fun id hid' => hid'.symm
  · next hfind =>
    split_ifs at h with hbad
    cases h
    simp only [hfind, hbad, enrolled]
    simp [List.find?_append, hfind, DeviceRepo.inserted]

/-! ### The stages of a call -/

/-- What a call is at, where `key` is the key of the phone. -/
inductive Stage (target : TargetPlatform) (key : String) (s : Phone) : Handler Result → Prop
  | starting : Stage target key s (ensureRegistered target)
  | seeking : Stage target key s (ensurePublicKey >>= registerWith target)
  | storing : Stage target key s (storeKey key >>= registerWith target)
  | registering : s.store .mobileDevicePublicKey = some key → Stage target key s (registerWith target key)
  | recording (id) : s.store .mobileDevicePublicKey = some key → enrolled key s.db = some id →
    Stage target key s (storeId id)
  | returned (id) : s.store .mobileDevicePublicKey = some key → enrolled key s.db = some id →
    s.store .mobileDeviceId = some id → Stage target key s (.ret (.ok id))

theorem Stage.mono {target : TargetPlatform} {key : String} {s s' : Phone} {p : Handler Result}
    (h : Stage target key s p)
    (hkey : s.store .mobileDevicePublicKey = some key → s'.store .mobileDevicePublicKey = some key)
    (hrow : ∀ id, enrolled key s.db = some id → enrolled key s'.db = some id)
    (hid : ∀ id, enrolled key s.db = some id → s.store .mobileDeviceId = some id →
      s'.store .mobileDeviceId = some id) : Stage target key s' p := by
  cases h with
  | starting => exact .starting
  | seeking => exact .seeking
  | storing => exact .storing
  | registering h => exact .registering (hkey h)
  | recording id h hr => exact .recording id (hkey h) (hrow id hr)
  | returned id h hr hi => exact .returned id (hkey h) (hrow id hr) (hid id hr hi)

/-- While no key is stored, only calls that are about to store one depend on which it is. -/
theorem Stage.rekey {target : TargetPlatform} {key key' : String} {s : Phone} {p : Handler Result}
    (h : Stage target key s p) (hnone : s.store .mobileDevicePublicKey ≠ some key)
    (hstoring : ∀ k ∈ DeviceIdentity.storing p, k = key') : Stage target key' s p := by
  cases h with
  | starting => exact .starting
  | seeking => exact .seeking
  | storing =>
    obtain rfl := hstoring key rfl
    exact .storing
  | registering h | recording _ h | returned _ h => exact absurd h hnone

/-- All calls and what is stored agree on the key, and on the id of its row. -/
structure Tidy (target : TargetPlatform) (key : String) (p : Observed) : Prop where
  nonempty : key ≠ ""
  publicKey : p.1.store.store .mobileDevicePublicKey = none ∨
    p.1.store.store .mobileDevicePublicKey = some key
  deviceId : ∀ id, p.1.store.store .mobileDeviceId = some id →
    p.1.store.store .mobileDevicePublicKey = some key ∧ enrolled key p.1.store.db = some id
  threads : p.1.All fun _ => Stage target key p.1.store
  registered : ∀ k ∈ p.2, k = key ∧ p.1.store.store .mobileDevicePublicKey = some key

theorem generate_ne_empty (draw : Draw) : generateRandomKeyBase64 draw ≠ "" := by
  intro h
  have hlen := congrArg (fun s => s.toList.length) h
  simp only [generateRandomKeyBase64, base64Encode, String.toList_ofList, List.length_map, Base64.encode,
    List.length_append, Base64.length_unpack, draw.2] at hlen
  simp at hlen

theorem present_eq_some {value : Option String} {v : String} (h : present value = some v) : value = some v :=
  (Option.filter_eq_some_iff.1 h).1

theorem present_of_ne {v : String} (h : v ≠ "") : present (some v) = some v := by
  simp [present, Option.filter, h]

section Step
variable {target : TargetPlatform} {key key' : String} {p : Observed} {i : ℕ} {q : Unit} {e : Env} {c : Call}
  {k : Reply c → Handler Result}

theorem observed_call (hi : p.1.threads[i]? = some ⟨q, .call c k⟩) :
    observed target p (.advance i e) =
      (⟨(exec e c p.1.store).2, p.1.threads.set i ⟨q, k (exec e c p.1.store).1⟩⟩,
        p.2 ++ c.registers.toList) := by
  rw [observed, Run.observe, System.step_advance _ hi]
  simp only [DeviceIdentity.registered, hi, Option.bind_some, Prog.pending_call]
  rfl

theorem observed_idle (hi : ∀ q c k, p.1.threads[i]? ≠ some ⟨q, .call c k⟩) :
    observed target p (.advance i e) = p := by
  rcases ht : p.1.threads[i]? with _ | ⟨q, r | ⟨c, k⟩⟩
  · simp [observed, Run.observe, System.step, DeviceIdentity.registered, ht]
  · simp [observed, Run.observe, System.step, DeviceIdentity.registered, ht]
  · exact absurd ht (hi q c k)

/-- A call on the storage that reads, or writes what is to be written. -/
theorem Tidy.storage (hp : Tidy target key p) (hi : p.1.threads[i]? = some ⟨q, .call c k⟩)
    (hdb : (exec e c p.1.store).2.db = p.1.store.db)
    (hkey : (exec e c p.1.store).2.store .mobileDevicePublicKey = p.1.store.store .mobileDevicePublicKey ∨
      (exec e c p.1.store).2.store .mobileDevicePublicKey = some key)
    (hid : ∀ id, (exec e c p.1.store).2.store .mobileDeviceId = some id →
      (exec e c p.1.store).2.store .mobileDevicePublicKey = some key ∧ enrolled key p.1.store.db = some id)
    (hkeep : ∀ id, enrolled key p.1.store.db = some id → p.1.store.store .mobileDeviceId = some id →
      (exec e c p.1.store).2.store .mobileDeviceId = some id)
    (hstage : Stage target key (exec e c p.1.store).2 (k (exec e c p.1.store).1))
    (hevent : c.registers = none) : Tidy target key (observed target p (.advance i e)) := by
  have hmono : p.1.store.store .mobileDevicePublicKey = some key →
      (exec e c p.1.store).2.store .mobileDevicePublicKey = some key := by
    intro h
    rcases hkey with hkey | hkey
    · rw [hkey, h]
    · exact hkey
  rw [observed_call hi, hevent, Option.toList_none, List.append_nil]
  refine ⟨hp.nonempty, ?_, fun id h => ?_, ?_, fun k hk => ?_⟩
  · rcases hkey with hkey | hkey
    · rw [hkey]
      exact hp.publicKey
    · exact .inr hkey
  · rw [hdb]
    exact hid id h
  · refine Pool.All.set (fun j q p' hj => (hp.threads j q p' hj).mono hmono (fun id h => ?_) hkeep) hstage
    rw [hdb, h]
  · exact ⟨(hp.registered k hk).1, hmono (hp.registered k hk).2⟩

theorem Tidy.step (hp : Tidy target key p) (l : Step) (hok : Succeeds p.1 l) (hagreed : Agreed p.1 l) :
    ∃ key', Tidy target key' (observed target p l) := by
  cases l with
  | env v => cases v
  | spawn q e =>
    refine ⟨key, hp.nonempty, hp.publicKey, hp.deviceId, ?_, ?_⟩
    · exact hp.threads.step (fun _ _ _ => .starting) (fun _ _ _ _ _ heq => nomatch heq)
    · show ∀ k ∈ p.2 ++ [], _
      rw [List.append_nil]
      exact hp.registered
  | advance i e =>
    by_cases hcall : ∀ q c k, p.1.threads[i]? ≠ some ⟨q, .call c k⟩
    · rw [observed_idle hcall]
      exact ⟨key, hp⟩
    push Not at hcall
    obtain ⟨q, c, k, hi⟩ := hcall
    have hstored := hp.deviceId
    cases hp.threads i q _ hi with
    | starting =>
      refine ⟨key, hp.storage hi rfl (.inl rfl) hstored (fun id _ h => h) ?_ rfl⟩
      show Stage target key p.1.store (match present (p.1.store.store .mobileDeviceId) with
        | some id => .ret (.ok id)
        | none => ensurePublicKey >>= registerWith target)
      cases hpresent : present (p.1.store.store .mobileDeviceId) with
      | none => exact .seeking
      | some id =>
        have hid := present_eq_some hpresent
        exact .returned id (hstored id hid).1 (hstored id hid).2 hid
    | seeking =>
      rcases hp.publicKey with hnone | hkey
      · -- the key drawn here is the one of the phone from now on
        have hne : p.1.store.store .mobileDevicePublicKey ≠ some key := by simp [hnone]
        simp only [Agreed, hi, hnone] at hagreed
        refine ⟨generateRandomKeyBase64 e.draw, ?_⟩
        rw [observed_call hi]
        refine ⟨generate_ne_empty _, .inl hnone, fun id h => absurd (hstored id h).1 hne, ?_, ?_⟩
        · refine Pool.All.set (fun j q p' hj => (hp.threads j q p' hj).rekey hne
            (hagreed rfl _ (List.mem_of_getElem? hj))) ?_
          show Stage target _ p.1.store ((match present (p.1.store.store .mobileDevicePublicKey) with
            | some key => .ret key
            | none => storeKey (generateRandomKeyBase64 e.draw)) >>= registerWith target)
          rw [hnone]
          exact .storing
        · show ∀ k ∈ p.2 ++ [], _
          rw [List.append_nil]
          exact fun k hk => absurd (hp.registered k hk).2 hne
      · refine ⟨key, hp.storage hi rfl (.inl rfl) hstored (fun id _ h => h) ?_ rfl⟩
        show Stage target key p.1.store ((match present (p.1.store.store .mobileDevicePublicKey) with
          | some key => .ret key
          | none => storeKey (generateRandomKeyBase64 e.draw)) >>= registerWith target)
        rw [hkey, present_of_ne hp.nonempty]
        exact .registering hkey
    | storing =>
      refine ⟨key, hp.storage hi rfl (.inr rfl) ?_ (fun id _ h => h) (.registering rfl) rfl⟩
      exact fun id h => ⟨rfl, (hstored id h).2⟩
    | registering hkey =>
      simp only [Succeeds, hi] at hok
      let reg := (registration target key).of e.userID
      rcases hreply : (DeviceRepo.register e.server reg p.1.store.db).1 with err | device
      · simp [exec, reg, hreply, Except.isOk, Except.toBool] at hok
      obtain ⟨hrow, hsame⟩ := register_ok hreply
      have hmono (id : String) (h : enrolled key p.1.store.db = some id) :
          enrolled key (DeviceRepo.register e.server reg p.1.store.db).2 = some id := by
        rw [hsame id h]
        exact hrow
      refine ⟨key, ?_⟩
      rw [observed_call hi]
      refine ⟨hp.nonempty, hp.publicKey, fun id h => ⟨hkey, hmono id (hstored id h).2⟩, ?_, fun k hk => ?_⟩
      · refine Pool.All.set (fun j q p' hj => ?_) ?_
        · exact (hp.threads j q p' hj).mono id hmono fun _ _ h => h
        show Stage target key _ (match (DeviceRepo.register e.server reg p.1.store.db).1 with
          | .ok device => storeId device.id
          | .error e => .ret (.error e))
        rw [hreply]
        exact .recording device.id hkey hrow
      · rcases List.mem_append.1 hk with hk | hk
        · exact ⟨(hp.registered k hk).1, hkey⟩
        · exact ⟨List.mem_singleton.1 hk, hkey⟩
    | recording id hkey hrow =>
      refine ⟨key, hp.storage hi rfl (.inl rfl) ?_ ?_ (.returned id hkey hrow rfl) rfl⟩
      · rintro id' h
        cases h
        exact ⟨hkey, hrow⟩
      · intro id' hrow' _
        rw [← hrow', hrow]
        rfl

end Step

/-! ### A key that a call holds -/

/-- A call is about to register the phone with the key, or the phone has been registered with it. -/
def Held (target : TargetPlatform) (key : String) (p : Observed) : Prop :=
  (∃ i : ℕ, ∃ q : Unit, p.1.threads[i]? = some ⟨q, storeKey key >>= registerWith target⟩ ∨
    p.1.threads[i]? = some ⟨q, registerWith target key⟩) ∨ key ∈ p.2

theorem Held.step {target : TargetPlatform} {key : String} {p : Observed} (h : Held target key p) (l : Step) :
    Held target key (observed target p l) := by
  rcases h with ⟨i, q, h | h⟩ | h
  · rcases (system target).thread_next l h with hstay | ⟨e, c, k, rfl, hcall, hnext⟩
    · exact .inl ⟨i, q, .inl hstay⟩
    · cases hcall
      exact .inl ⟨i, q, .inr hnext⟩
  · rcases (system target).thread_next l h with hstay | ⟨e, c, k, rfl, hcall, -⟩
    · exact .inl ⟨i, q, .inr hstay⟩
    · refine .inr ?_
      rw [hcall] at h
      rw [observed_call h]
      cases hcall
      exact List.mem_append_right _ (List.mem_singleton_self _)
  · exact .inr (List.mem_append_left _ h)

/-- Once all calls have returned, every key that was held has been registered. -/
theorem Held.registered {target : TargetPlatform} {key : String} {p : Observed} (h : Held target key p)
    (hall : ∀ t ∈ p.1.threads, t.prog.result.isSome) : key ∈ p.2 := by
  rcases h with ⟨i, q, h | h⟩ | h
  · exact absurd (hall _ (List.mem_of_getElem? h)) (by simp [storeKey, perform])
  · exact absurd (hall _ (List.mem_of_getElem? h)) (by simp [registerWith, perform])
  · exact h

/-- Two calls hold different keys. -/
def Forked (target : TargetPlatform) (p : Observed) : Prop :=
  ∃ key key', key ≠ key' ∧ Held target key p ∧ Held target key' p

/-- A call that finds no key and does not agree with those about to be stored holds another one. -/
theorem Tidy.forked {target : TargetPlatform} {key : String} {p : Observed} (hp : Tidy target key p) (l : Step)
    (hagreed : ¬Agreed p.1 l) : Forked target (observed target p l) := by
  cases l with
  | env v => cases v
  | spawn q e => exact absurd trivial hagreed
  | advance i e =>
    by_cases hcall : ∀ q c k, p.1.threads[i]? ≠ some ⟨q, .call c k⟩
    · refine absurd ?_ hagreed
      simp only [Agreed]
      split
      · next hi => exact absurd hi (hcall _ _ _)
      · trivial
    push Not at hcall
    obtain ⟨q, c, k, hi⟩ := hcall
    cases hp.threads i q _ hi with
    | starting | storing | registering | recording =>
      simp only [Agreed, hi, not_true_eq_false] at hagreed
    | seeking =>
      simp only [Agreed, hi] at hagreed
      push Not at hagreed
      obtain ⟨hnone, ⟨q', p'⟩, hmem, key', hstoring, hne⟩ := hagreed
      obtain ⟨j, hj⟩ := List.mem_iff_getElem?.1 hmem
      have hheld : Held target key' p := by
        refine .inl ⟨j, q', .inl ?_⟩
        cases hp.threads j q' p' hj with
        | storing =>
          cases hstoring
          exact hj
        | starting | seeking | registering | recording | returned => cases hstoring
      refine ⟨key', generateRandomKeyBase64 e.draw, hne, hheld.step _, .inl ⟨i, q, .inl ?_⟩⟩
      have hlt := (List.getElem?_eq_some_iff.1 hi).1
      rw [observed_call hi, List.getElem?_set_self hlt]
      show some (Thread.mk q ((match present (p.1.store.store .mobileDevicePublicKey) with
        | some key => .ret key
        | none => storeKey (generateRandomKeyBase64 e.draw)) >>= registerWith target)) = _
      rw [hnone]

theorem fresh_tidy (target : TargetPlatform) (db : FleetDb) : ∃ key, Tidy target key (fresh db, []) :=
  ⟨"-", by decide, .inl rfl, nofun, .nil _, nofun⟩

theorem Tidy.oneDevice {target : TargetPlatform} {key : String} {p : Observed} (hp : Tidy target key p)
    (hall : ∀ t ∈ p.1.threads, t.prog.result.isSome) : OneDevice p := by
  refine ⟨⟨(enrolled key p.1.store.db).getD "", fun ⟨q, p'⟩ ht => ?_⟩, key, fun k hk => (hp.registered k hk).1⟩
  obtain ⟨j, hj⟩ := List.mem_iff_getElem?.1 ht
  have hres := hall _ ht
  cases hp.threads j q p' hj with
  | returned id hkey hrow hid =>
    rw [hrow, Option.getD_some]
    exact ⟨rfl, hid⟩
  | starting | seeking | storing | registering | recording => cases hres

/-- Where all calls return and no registration fails, the phone is one device if and only if no call generates
a second key while a first one is about to be stored. -/
theorem oneDevice_iff (target : TargetPlatform) (db : FleetDb) (l : List Step)
    (hok : Run.Guarded (system target).step Succeeds (fresh db) l)
    (hall : ∀ t ∈ (run target db l).1.threads, t.prog.result.isSome) :
    OneDevice (run target db l) ↔ Run.Guarded (system target).step Agreed (fresh db) l := by
  have hok' := hok.observe registered []
  rw [← Run.guarded_observe registered []]
  constructor
  · rintro ⟨-, key, hkeys⟩
    refine Run.Guarded.of_not_exec (J := fun p => ∃ key, Tidy target key p) (B := Forked target) ?_ ?_ ?_ hok'
      (fresh_tidy target db) ?_
    · exact fun p a ⟨key, hp⟩ hg hagreed => hp.step a hg hagreed
    · exact fun p a ⟨key, hp⟩ _ hagreed => hp.forked a hagreed
    · exact fun p a ⟨key, key', hne, h, h'⟩ => ⟨key, key', hne, h.step a, h'.step a⟩
    · rintro ⟨key₁, key₂, hne, h₁, h₂⟩
      exact hne ((hkeys _ (h₁.registered hall)).trans (hkeys _ (h₂.registered hall)).symm)
  · intro hagreed
    obtain ⟨key, hp⟩ := (hok'.and hagreed).invariant (I := fun p => ∃ key, Tidy target key p)
      (fun p a ⟨key, hp⟩ hg => hp.step a hg.1 hg.2) (fresh_tidy target db)
    exact hp.oneDevice hall

/-! ### Two runs -/

def emptyDb : FleetDb where
  users := ["u"]
  devices := []
  pairings := []
  sessions := []
  sessionEvents := []

theorem length_draw (b : UInt8) : (List.replicate 32 b).length = 32 := List.length_replicate

/-- The phone draws the byte `b` all over, and the database the id. -/
def drawing (b : UInt8) (id : String) : Env where
  draw := ⟨List.replicate 32 b, length_draw b⟩
  userID := "u"
  server := {
    fault := .none
    dbNow := 0
    genUUID := id
    here := { now := 0, uuid := "", digit := fun _ => none } }

/-- The two calls take turns. -/
def alternating : List Step :=
  [.spawn () (drawing 0 "d0"), .spawn () (drawing 0 "d0"),
    .advance 0 (drawing 0 "d0"), .advance 1 (drawing 0 "d0"), .advance 0 (drawing 1 "d0"),
    .advance 1 (drawing 2 "d0"), .advance 0 (drawing 0 "d0"), .advance 1 (drawing 0 "d0"),
    .advance 0 (drawing 0 "d1"), .advance 1 (drawing 0 "d2"), .advance 0 (drawing 0 "d0"),
    .advance 1 (drawing 0 "d0")]

/-- The second call looks for the key when the first one has stored it. -/
def following : List Step :=
  [.spawn () (drawing 0 "d0"), .spawn () (drawing 0 "d0"),
    .advance 0 (drawing 0 "d0"), .advance 1 (drawing 0 "d0"), .advance 0 (drawing 1 "d0"),
    .advance 0 (drawing 0 "d0"), .advance 1 (drawing 2 "d0"),
    .advance 0 (drawing 0 "d1"), .advance 1 (drawing 0 "d2"), .advance 0 (drawing 0 "d0"),
    .advance 1 (drawing 0 "d0")]

theorem alternating_results : ((run .android emptyDb alternating).1.threads.map fun t => t.prog.result) =
    [some (.ok "d1"), some (.ok "d2")] := by
  decide

theorem two_first_calls :
    Run.Guarded (system .android).step Succeeds (fresh emptyDb) alternating ∧
      (∀ t ∈ (run .android emptyDb alternating).1.threads, t.prog.result.isSome) ∧
      ¬OneDevice (run .android emptyDb alternating) := by
  refine ⟨by decide, by decide, ?_⟩
  rintro ⟨⟨id, hid⟩, -⟩
  have hall (r : Option Result) (hr : r ∈ (run .android emptyDb alternating).1.threads.map fun t => t.prog.result) :
      r = some (.ok id) := by
    obtain ⟨t, ht, rfl⟩ := List.mem_map.1 hr
    exact (hid t ht).1
  rw [alternating_results] at hall
  have h₁ := hall (some (.ok "d1")) (by simp)
  have h₂ := hall (some (.ok "d2")) (by simp)
  have heq := h₁.trans h₂.symm
  revert heq
  decide

theorem second_call_follows : OneDevice (run .android emptyDb following) :=
  (oneDevice_iff .android emptyDb following (by decide) (by decide)).2 (by decide)

end DeskSync.Mobile.DeviceIdentity
