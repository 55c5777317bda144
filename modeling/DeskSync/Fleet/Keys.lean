import DeskSync.Fleet.Ledger
import DeskSync.Lib.Base64

/-!
# A device key belongs to one account

The index on `devices.public_key` compares texts, and `validPublicKey` accepts many texts of one key: with
padding or without, between blanks, with line breaks in it, and with any of the values of the two bits
that the last character has to spare. `Register` stores the text as it came. So a user gets another
user's key registered by sending it in another spelling (`respelled_key`), which is what the guard of the
upsert is there to prevent.

`keysApart` is the condition on a `Register` under which this does not happen, and
`unshared_iff_keysApart` says that it is exact: in every run, from any tables, of any requests in any
order, the accounts share no key if and only if every registration meets it.
-/

namespace DeskSync.Fleet

open Backend Proc

/-! ### Keys -/

/-- What `DecodeString` yields, when it is a key. -/
def decodeKey (padded : Bool) (key : String) : Option Bytes :=
  (Base64.decode Base64.std padded (bytes key)).filter fun k => k.length == x25519KeyLen

/-- The key that `validPublicKey` finds in a text. -/
def decodedKey (key : String) : Option Bytes :=
  let key := trimSpace key
  if key == "" then none else (decodeKey true key).or (decodeKey false key)

theorem isBase64_eq (b : UInt8) : isBase64 b = (Base64.std.value b).isSome := by
  simp only [isBase64, Base64.std, Base64.value, apply_ite Option.isSome, Option.isSome_some,
    Option.isSome_none]
  simp only [Bool.if_true_left, Bool.or_assoc, Bool.or_false, Bool.decide_eq_true]

theorem decodedLen_eq (padded : Bool) (key : String) :
    decodedLen padded key = (Base64.decode Base64.std padded (bytes key)).map List.length := by
  have halphabet : isBase64 = fun b => (Base64.std.value b).isSome := funext isBase64_eq
  simp only [decodedLen, Base64.decode, halphabet]
  rw [apply_ite (Option.map List.length), Option.map_some, Option.map_none, Base64.length_pack,
    Base64.length_filterMap_takeWhile]

theorem isSome_decodeKey (padded : Bool) (key : String) :
    (decodeKey padded key).isSome = (decodedLen padded key == some x25519KeyLen) := by
  rw [decodedLen_eq, decodeKey]
  cases Base64.decode Base64.std padded (bytes key) with
  | none => rfl
  | some k => by_cases hk : k.length = x25519KeyLen <;> simp [Option.filter, hk]

/-- The check of a registration asks for a key in the text. -/
theorem validPublicKey_eq (key : String) : validPublicKey key = (decodedKey key).isSome := by
  unfold validPublicKey decodedKey
  by_cases hblank : trimSpace key = ""
  · simp [hblank]
  · simp [hblank, ← isSome_decodeKey]

/-- Both texts are accepted, and are the same key. -/
def sameKey (a b : String) : Bool := validPublicKey a && decodedKey a == decodedKey b

theorem sameKey_iff {a b : String} :
    sameKey a b = true ↔ ∃ k, decodedKey a = some k ∧ decodedKey b = some k := by
  rw [sameKey, validPublicKey_eq, Bool.and_eq_true, Option.isSome_iff_exists, beq_iff_eq]
  constructor
  · rintro ⟨⟨k, ha⟩, hab⟩
    exact ⟨k, ha, hab ▸ ha⟩
  · rintro ⟨k, ha, hb⟩
    exact ⟨⟨k, ha⟩, ha.trans hb.symm⟩

theorem sameKey_symm {a b : String} (h : sameKey a b = true) : sameKey b a = true := by
  obtain ⟨k, ha, hb⟩ := sameKey_iff.1 h
  exact sameKey_iff.2 ⟨k, hb, ha⟩

/-! ### Keys of one user -/

/-- No two rows of different users hold the same key. -/
def Unshared (db : FleetDb) : Prop :=
  ∀ a ∈ db.devices, ∀ b ∈ db.devices, sameKey a.publicKey b.publicKey = true → a.userID = b.userID

instance (db : FleetDb) : Decidable (Unshared db) :=
  inferInstanceAs (Decidable (∀ a ∈ db.devices, ∀ b ∈ db.devices, _ → _))

/-! ### The condition -/

/-- The registration inserts a row: its text is new, its user exists, and the id is free. -/
def inserts (e : Env) (reg : Registration) (db : FleetDb) : Bool :=
  e.fault != .lost && db.devices.all (fun row => row.publicKey != reg.publicKey) &&
    db.users.contains reg.userID && db.devices.all (fun row => row.id != e.genUUID)

/-- The registration a request is about to make. -/
def Cmd.registration : Cmd → Option Registration
  | .registerDevice reg => some reg
  | _ => none

/-- A registration that inserts a row brings a key that no other user has, in whatever spelling. -/
def keysApart (w : World) : Step → Bool
  | .advance i e =>
    (w.threads[i]?.bind fun t => t.prog.pending.bind Cmd.registration).all fun reg =>
      !inserts e reg w.store.db || w.store.db.devices.all fun row =>
        row.userID == reg.userID || !sameKey row.publicKey reg.publicKey
  | _ => true

/-! ### Owners -/

/-- Who registered which text. -/
def owners (db : FleetDb) : List (String × String) := db.devices.map fun d => (d.userID, d.publicKey)

/-- `Unshared`, of owners. -/
def OwnersApart (l : List (String × String)) : Prop :=
  ∀ a ∈ l, ∀ b ∈ l, sameKey a.2 b.2 = true → a.1 = b.1

theorem unshared_iff {db : FleetDb} : Unshared db ↔ OwnersApart (owners db) := by
  simp only [Unshared, OwnersApart, owners, List.forall_mem_map]

theorem ownersApart_concat {l : List (String × String)} {a : String × String} (h : OwnersApart l) :
    OwnersApart (l ++ [a]) ↔ ∀ b ∈ l, sameKey b.2 a.2 = true → b.1 = a.1 := by
  constructor
  · exact fun hall b hb => hall b (List.mem_append_left _ hb) a List.mem_concat_self
  · intro ha b hb c hc hkey
    rcases List.mem_append.1 hb with hbl | hba <;> rcases List.mem_append.1 hc with hcl | hca
    · exact h b hbl c hcl hkey
    · rw [List.mem_singleton.1 hca] at hkey ⊢
      exact ha b hbl hkey
    · rw [List.mem_singleton.1 hba] at hkey ⊢
      exact (ha c hcl (sameKey_symm hkey)).symm
    · rw [List.mem_singleton.1 hba, List.mem_singleton.1 hca]

section Calls
variable {e : Env} {c : Cmd} {w : Cloud}

theorem owners_map {db : FleetDb} {ps : List PairingRow} {f : DeviceRow → DeviceRow}
    (huser : ∀ d, (f d).userID = d.userID) (hkey : ∀ d, (f d).publicKey = d.publicKey) :
    owners { db with devices := db.devices.map f, pairings := ps } = owners db := by
  simp only [owners, List.map_map, Function.comp_def, huser, hkey]

section Updates
variable (now : Time) (id userID : String) (db : FleetDb)

theorem owners_revoke : owners (DeviceRepo.revoke now id userID db).2 = owners db := by
  unfold DeviceRepo.revoke
  split_ifs
  · exact owners_map (by simp) (by simp)
  · rfl

theorem owners_heartbeat (status : Presence) :
    owners (DeviceRepo.heartbeat now id userID status db).2 = owners db := by
  unfold DeviceRepo.heartbeat
  split
  · exact owners_map (by simp) (by simp)
  · rfl

theorem owners_upsertActivePairing (mobile desktop : String) :
    owners (PairingRepo.upsertActivePairing e userID mobile desktop db).2 = owners db := by
  unfold PairingRepo.upsertActivePairing
  split
  · rfl
  · split_ifs <;> rfl

theorem owners_revokePairing : owners (PairingRepo.revokePairing now id userID db).2 = owners db := by
  unfold PairingRepo.revokePairing
  split_ifs <;> rfl

end Updates

/-- A registration adds its user and its text when it inserts a row. -/
theorem owners_register {reg : Registration} (hf : e.fault ≠ .lost) :
    owners (DeviceRepo.register e reg w.db).2 =
      owners w.db ++ if inserts e reg w.db then [(reg.userID, reg.publicKey)] else [] := by
  unfold DeviceRepo.register
  split
  · rename_i row hrow
    have hmem := List.mem_of_find?_eq_some hrow
    have hkey : row.publicKey = reg.publicKey := by simpa using List.find?_some hrow
    have hno : ¬ inserts e reg w.db = true := by
      simp only [inserts, Bool.and_eq_true, List.all_eq_true, bne_iff_ne]
      exact fun h => h.1.1.2 row hmem hkey
    rw [if_neg hno, List.append_nil]
    by_cases huser : row.userID = reg.userID
    · rw [if_pos huser]
      exact owners_map (by simp) (by simp)
    · rw [if_neg huser]
  · rename_i hnone
    have hnew : w.db.devices.all (fun row => row.publicKey != reg.publicKey) = true := by
      simpa using hnone
    have hins : inserts e reg w.db = !(!w.db.users.contains reg.userID ||
        w.db.devices.any fun row => row.id == e.genUUID) := by
      simp only [inserts, hnew, bne_iff_ne.2 hf, Bool.true_and, Bool.not_or, Bool.not_not,
        List.not_any_eq_all_not]
      rfl
    rw [hins]
    cases !w.db.users.contains reg.userID || w.db.devices.any fun row => row.id == e.genUUID with
    | true => simp
    | false => simp [owners, DeviceRepo.inserted]

/-- The owners after a call. -/
theorem exec_owners (e : Env) (c : Cmd) (w : Cloud) :
    (owners (exec e c w).2.db = owners w.db ∧
        ∀ reg, c = .registerDevice reg → inserts e reg w.db = false) ∨
      ∃ reg, c = .registerDevice reg ∧ inserts e reg w.db = true ∧
        owners (exec e c w).2.db = owners w.db ++ [(reg.userID, reg.publicKey)] := by
  by_cases hreg : ∃ reg, c = .registerDevice reg
  · obtain ⟨reg, rfl⟩ := hreg
    have howners : owners (exec e (.registerDevice reg) w).2.db =
        owners w.db ++ if inserts e reg w.db then [(reg.userID, reg.publicKey)] else [] := by
      by_cases hf : e.fault = .lost
      · rw [exec_lost hf]
        simp [inserts, hf]
      · rw [exec_store hf]
        exact owners_register hf
    rw [howners]
    by_cases hins : inserts e reg w.db = true
    · exact .inr ⟨reg, rfl, hins, by rw [if_pos hins]⟩
    · left
      rw [if_neg hins, List.append_nil]
      refine ⟨rfl, fun reg' heq => ?_⟩
      obtain rfl := Cmd.registerDevice.inj heq
      simpa using hins
  · left
    refine ⟨?_, fun reg heq => absurd ⟨reg, heq⟩ hreg⟩
    rcases exec_tables e c w with ⟨hd, -⟩ | ⟨-, ⟨reg, rfl, h⟩ | ⟨id, u, rfl, h⟩ | ⟨id, u, st, rfl, h⟩ |
      ⟨u, m, d, rfl, h⟩ | ⟨id, u, rfl, h⟩⟩
    · rw [owners, hd, owners]
    · exact absurd ⟨reg, rfl⟩ hreg
    · rw [h, owners_revoke]
    · rw [h, owners_heartbeat]
    · rw [h, owners_upsertActivePairing]
    · rw [h, owners_revokePairing]

end Calls

/-! ### Steps -/

/-- What a step does to the owners, and what the condition asks of it. -/
theorem step_owners (s : Services) (w : World) (l : Step) :
    (owners ((system s).step w l).store.db = owners w.store.db ∧ keysApart w l = true) ∨
      ∃ a, owners ((system s).step w l).store.db = owners w.store.db ++ [a] ∧
        (keysApart w l = true ↔ ∀ b ∈ owners w.store.db, sameKey b.2 a.2 = true → b.1 = a.1) := by
  cases l with
  | spawn q e => exact .inl ⟨rfl, rfl⟩
  | env d => exact .inl ⟨rfl, rfl⟩
  | advance i e =>
    cases h : w.threads[i]? with
    | none =>
      left
      simp only [System.step, keysApart, h, Option.bind_none, Option.all_none, and_self]
    | some t =>
      obtain ⟨q, p⟩ := t
      cases p with
      | ret r =>
        left
        simp only [System.step, keysApart, h, Option.bind_some, Prog.pending_ret, Option.bind_none,
          Option.all_none, and_self]
      | call c k =>
        rw [(system s).step_advance h e]
        show (owners (exec e c w.store).2.db = _ ∧ _) ∨ ∃ a, owners (exec e c w.store).2.db = _ ∧ _
        have hguard : keysApart w (.advance i e) = c.registration.all fun reg =>
            !inserts e reg w.store.db || w.store.db.devices.all fun row =>
              row.userID == reg.userID || !sameKey row.publicKey reg.publicKey := by
          simp only [keysApart, h, Option.bind_some, Prog.pending_call]
        rw [hguard]
        rcases exec_owners e c w.store with ⟨heq, hno⟩ | ⟨reg, rfl, hins, heq⟩
        · refine .inl ⟨heq, ?_⟩
          cases c with
          | registerDevice reg => rw [Cmd.registration, Option.all_some, hno reg rfl]; rfl
          | _ => rfl
        · refine .inr ⟨_, heq, ?_⟩
          simp only [Cmd.registration, Option.all_some, hins, owners, List.forall_mem_map, Bool.not_true,
            Bool.false_or, List.all_eq_true, Bool.or_eq_true, beq_iff_eq, Bool.not_eq_true',
            ← Bool.not_eq_true]
          exact forall₂_congr fun row _ => by rw [or_comm, imp_iff_not_or]

/-- **The accounts share no key in a run exactly when every registration that inserts a row brings a key
no other user has.** -/
theorem unshared_iff_keysApart (s : Services) (w : Cloud) (hw : Unshared w.db) (l : List Step) :
    Run.Always (system s).step (fun w => Unshared w.store.db) ⟨w, []⟩ l ↔
      Run.Guarded (system s).step (fun w l => keysApart w l = true) ⟨w, []⟩ l := by
  refine Run.always_iff_guarded (J := fun w : World => Unshared w.store.db) (fun _ h => h) ?_ ?_ hw l
  · intro w l h hg
    rw [unshared_iff] at h ⊢
    rcases step_owners s w l with ⟨heq, -⟩ | ⟨a, heq, hiff⟩
    · rwa [heq]
    · rw [heq, ownersApart_concat h]
      exact hiff.1 hg
  · intro w l h h'
    rw [unshared_iff] at h h'
    rcases step_owners s w l with ⟨-, hg⟩ | ⟨a, heq, hiff⟩
    · exact hg
    · rw [heq, ownersApart_concat h] at h'
      exact hiff.2 h'

/-! ### Another spelling -/

/-- The key of all zeros, in the standard encoding without padding. -/
def zeroKey : String := String.ofList (List.replicate 43 'A')

def keyAlone (publicKey : String) : Registration :=
  { userID := "", kind := .desktop, platform := .linux, name := "n", publicKey, fcmToken := none }

def twoUsers : Cloud := .init { sampleDb with users := ["u1", "u2"] } 0

/-- The first user registers the key without padding; the second registers the given text. -/
def registerBoth (second : String) : List Step :=
  [.spawn (.registerDevice "u1" (keyAlone zeroKey)) (goes ""), .advance 0 (goes "k1"),
    .spawn (.registerDevice "u2" (keyAlone second)) (goes ""), .advance 1 (goes "k2")]

example : sameKey zeroKey (zeroKey ++ "=") = true := by decide +kernel

/-- The same key with its padding is registered for the second user. -/
theorem respelled_key : ¬ Run.Always (system sampleServices).step (fun w => Unshared w.store.db)
    ⟨twoUsers, []⟩ (registerBoth (zeroKey ++ "=")) := by
  intro h
  have hlast : Unshared ((system sampleServices).run twoUsers (registerBoth (zeroKey ++ "="))).store.db := h.last
  revert hlast
  decide +kernel

/-- Another key is registered for the second user. -/
theorem unshared_registerBoth : Run.Always (system sampleServices).step (fun w => Unshared w.store.db)
    ⟨twoUsers, []⟩ (registerBoth (String.ofList ('B' :: List.replicate 42 'A'))) :=
  (unshared_iff_keysApart sampleServices twoUsers (by decide +kernel) _).2 (by decide +kernel)

end DeskSync.Fleet
