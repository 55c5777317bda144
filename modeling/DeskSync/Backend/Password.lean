import DeskSync.Lib.Base64
import DeskSync.Backend.Scan

/-!
# Password hashes

`pkg/crypto/password.go`. `HashPassword` writes the parameters, the salt and the key into a text, and
`VerifyPassword` reads them again and derives the key anew. `decodeHash` reads back what was written
(`decodeHash_encodeHash`), but it takes any numbers that fit, and `argon2.IDKey`, which is a parameter, panics for
no iterations and for no parallelism. So a text with one of these makes `VerifyPassword` panic, and no other does
(`verifyPassword_isSome_iff`).
-/

namespace DeskSync.Backend.Password

open Scan

structure Argon2Params where
  memory : UInt32
  iterations : UInt32
  parallelism : UInt8
  saltLength : UInt32
  keyLength : UInt32
  deriving DecidableEq, Repr

inductive HashError where
  | emptyPassword
  | readSalt
  | invalidHash
  | incompatibleVersion
  deriving DecidableEq, Repr

/-- `argon2.IDKey`; `none` is a panic. -/
abbrev IDKey := (password salt : Bytes) → (time memory : UInt32) → (threads : UInt8) → (keyLen : UInt32) → Option Bytes

/-- `IDKey` panics without iterations and without parallelism, and its key is as long as it is asked to be. -/
structure Argon2 (idKey : IDKey) : Prop where
  panics : ∀ password salt time memory threads keyLen,
    idKey password salt time memory threads keyLen = none ↔ time < 1 ∨ threads < 1
  length : ∀ {password salt time memory threads keyLen key},
    idKey password salt time memory threads keyLen = some key → key.length = keyLen.toNat

/-- `argon2.Version`. -/
def argon2Version : ℕ := 0x13

/-- The text `HashPassword` formats. -/
def encodeHash (p : Argon2Params) (salt key : Bytes) : Bytes :=
  bytes "$argon2id$v=" ++ formatInt argon2Version ++ bytes "$m=" ++ formatInt p.memory.toNat ++
    bytes ",t=" ++ formatInt p.iterations.toNat ++ bytes ",p=" ++ formatInt p.parallelism.toNat ++
    bytes "$" ++ Base64.encode Base64.std false salt ++ bytes "$" ++ Base64.encode Base64.std false key

/-- `HashPassword`; `randRead n` fills a slice of `n` bytes, or fails. -/
def hashPassword (idKey : IDKey) (randRead : (n : ℕ) → Option {salt : Bytes // salt.length = n}) (password : Bytes)
    (p : Argon2Params) : Option (Except HashError Bytes) :=
  if password = [] then some (.error .emptyPassword)
  else match randRead p.saltLength.toNat with
    | none => some (.error .readSalt)
    | some salt => do
      let key ← idKey password salt p.iterations p.memory p.parallelism p.keyLength
      return .ok (encodeHash p salt key)

/-- `Sscanf(text, "v=%d", &version)`. -/
def scanVersion (text : Bytes) : Option ℤ := do
  let text ← literal (bytes "v=") text
  let (version, _) ← scanInt 64 text
  return version

/-- `Sscanf(text, "m=%d,t=%d,p=%d", &memory, &iterations, &parallelism)`. -/
def scanParams (text : Bytes) : Option (UInt32 × UInt32 × UInt8) := do
  let text ← literal (bytes "m=") text
  let (memory, text) ← scanUint 32 text
  let text ← literal (bytes ",t=") text
  let (iterations, text) ← scanUint 32 text
  let text ← literal (bytes ",p=") text
  let (parallelism, _) ← scanUint 8 text
  return (UInt32.ofNat memory, UInt32.ofNat iterations, UInt8.ofNat parallelism)

def decodeHash (encoded : Bytes) : Except HashError (Argon2Params × Bytes × Bytes) :=
  match encoded.splitOn 0x24 with
  | [_, algorithm, version, params, salt, key] =>
    if algorithm ≠ bytes "argon2id" then .error .invalidHash
    else match scanVersion version with
      | none => .error .invalidHash
      | some version =>
        if version ≠ argon2Version then .error .incompatibleVersion
        else match scanParams params with
          | none => .error .invalidHash
          | some (memory, iterations, parallelism) =>
            match Base64.decode Base64.std false salt with
            | none => .error .invalidHash
            | some salt =>
              match Base64.decode Base64.std false key with
              | none => .error .invalidHash
              | some key =>
                .ok (⟨memory, iterations, parallelism, UInt32.ofNat salt.length, UInt32.ofNat key.length⟩, salt, key)
  | _ => .error .invalidHash

/-- `VerifyPassword`: the lengths are compared as `int32`, then the keys. -/
def verifyPassword (idKey : IDKey) (password encoded : Bytes) : Option (Except HashError Bool) :=
  match decodeHash encoded with
  | .error e => some (.error e)
  | .ok (p, salt, key) => do
    let other ← idKey password salt p.iterations p.memory p.parallelism p.keyLength
    if key.length % 2 ^ 32 ≠ other.length % 2 ^ 32 then return .ok false
    else return .ok (key == other)

variable {idKey : IDKey}

/-! ### Panics -/

/-- The text is not taken for a hash, or its parameters are ones `IDKey` runs with. -/
def Derivable (encoded : Bytes) : Prop :=
  ∀ p salt key, decodeHash encoded = .ok (p, salt, key) → 1 ≤ p.iterations ∧ 1 ≤ p.parallelism

theorem verifyPassword_isSome_iff (h : Argon2 idKey) (password encoded : Bytes) :
    (verifyPassword idKey password encoded).isSome = true ↔ Derivable encoded := by
  unfold verifyPassword Derivable
  cases hdecode : decodeHash encoded with
  | error e => exact iff_of_true rfl fun p salt key heq => by cases heq
  | ok parts =>
    obtain ⟨p, salt, key⟩ := parts
    have hpanics := h.panics password salt p.iterations p.memory p.parallelism p.keyLength
    rw [← not_iff_not, not_or, UInt32.not_lt, UInt8.not_lt] at hpanics
    cases hkey : idKey password salt p.iterations p.memory p.parallelism p.keyLength with
    | none =>
      refine iff_of_false ?_ fun hall => hpanics.2 (hall p salt key rfl) hkey
      simp only [hkey]
      exact Bool.false_ne_true
    | some other =>
      refine iff_of_true ?_ ?_
      · simp only [hkey, Option.bind_eq_bind, Option.bind_some]
        split_ifs <;> rfl
      · rintro p' salt' key' ⟨⟩
        exact hpanics.1 (by rw [hkey]; exact Option.some_ne_none _)

/-! ### Round trip -/

section RoundTrip
variable {p : Argon2Params} {salt key : Bytes}

/-- The third part of the text. -/
def versionText : Bytes := bytes "v=" ++ formatInt argon2Version

/-- The fourth part of the text. -/
def paramsText (p : Argon2Params) : Bytes :=
  bytes "m=" ++ (formatInt p.memory.toNat ++ (bytes ",t=" ++ (formatInt p.iterations.toNat ++
    (bytes ",p=" ++ formatInt p.parallelism.toNat))))

theorem scanVersion_versionText : scanVersion versionText = some (argon2Version : ℤ) := by
  have hscan : scanInt 64 (formatInt argon2Version) = some ((argon2Version : ℤ), []) := by
    have h : scanInt 64 (formatInt argon2Version ++ []) = some ((argon2Version : ℤ), []) :=
      scanInt_formatInt (by decide) (by simp)
    rwa [List.append_nil] at h
  simp only [scanVersion, versionText, literal_append, hscan, Option.bind_eq_bind, Option.bind_some, Option.pure_def]

theorem scanParams_paramsText (p : Argon2Params) :
    scanParams (paramsText p) = some (p.memory, p.iterations, p.parallelism) := by
  have hcomma (l rest : Bytes) (h : l.head?.any (fun b => !isDigit b) = true) :
      ∀ b ∈ (l ++ rest).head?, isDigit b = false := by
    cases l with
    | nil => cases h
    | cons a l =>
      rintro b ⟨⟩
      simpa using h
  have hlast : scanUint 8 (formatInt p.parallelism.toNat) = some (p.parallelism.toNat, []) := by
    have h : scanUint 8 (formatInt p.parallelism.toNat ++ []) = some (p.parallelism.toNat, []) :=
      scanUint_formatInt p.parallelism.toNat_lt (by simp)
    rwa [List.append_nil] at h
  simp only [scanParams, paramsText, literal_append, Option.bind_eq_bind, Option.bind_some, Option.pure_def,
    scanUint_formatInt p.memory.toNat_lt (hcomma (bytes ",t=") _ (by decide)),
    scanUint_formatInt p.iterations.toNat_lt (hcomma (bytes ",p=") _ (by decide)), hlast, UInt32.ofNat_toNat,
    UInt8.ofNat_toNat]

/-- The separator is in none of the parts. -/
theorem separator_notMem :
    0x24 ∉ bytes "argon2id" ∧ 0x24 ∉ versionText ∧ 0x24 ∉ paramsText p ∧
      ∀ bs, 0x24 ∉ Base64.encode Base64.std false bs := by
  have hformat (n : ℕ) : 0x24 ∉ formatInt n := fun h => Bool.false_ne_true (mem_formatInt h)
  refine ⟨by decide, ?_, ?_, Base64.not_mem_encode rfl (by decide)⟩
  · rw [versionText, List.mem_append, not_or]
    exact ⟨by decide, hformat _⟩
  · simp only [paramsText, List.mem_append, not_or]
    exact ⟨by decide, hformat _, by decide, hformat _, by decide, hformat _⟩

theorem splitOn_encodeHash (p : Argon2Params) (salt key : Bytes) :
    (encodeHash p salt key).splitOn 0x24 =
      [[], bytes "argon2id", versionText, paramsText p, Base64.encode Base64.std false salt,
        Base64.encode Base64.std false key] := by
  obtain ⟨halgorithm, hversion, hparams, hbase64⟩ := separator_notMem (p := p)
  have hhead : bytes "$argon2id$v=" = 0x24 :: (bytes "argon2id" ++ 0x24 :: bytes "v=") := by decide
  have hmemory : bytes "$m=" = 0x24 :: bytes "m=" := by decide
  have hdollar : bytes "$" = [0x24] := by decide
  have hshape : encodeHash p salt key = [] ++ 0x24 :: (bytes "argon2id" ++ 0x24 :: (versionText ++ 0x24 ::
      (paramsText p ++ 0x24 :: (Base64.encode Base64.std false salt ++ 0x24 ::
        Base64.encode Base64.std false key)))) := by
    rw [encodeHash, hhead, hmemory, hdollar, versionText, paramsText]
    simp only [List.append_assoc, List.cons_append, List.nil_append]
  rw [hshape]
  simp only [List.splitOn_append_cons_of_beq _ _ (beq_self_eq_true (0x24 : UInt8)),
    List.splitOn_eq_singleton halgorithm, List.splitOn_eq_singleton hversion, List.splitOn_eq_singleton hparams,
    List.splitOn_eq_singleton (hbase64 _)]
  rfl

/-- What `HashPassword` writes is read back. -/
theorem decodeHash_encodeHash (hkey : key.length = p.keyLength.toNat) (hsalt : salt.length = p.saltLength.toNat) :
    decodeHash (encodeHash p salt key) = .ok (p, salt, key) := by
  simp only [decodeHash, splitOn_encodeHash, scanVersion_versionText, scanParams_paramsText, Base64.decode_encode,
    hkey, hsalt, UInt32.ofNat_toNat, ne_eq, not_true_eq_false, if_false]

/-- The parameters that do not panic for one password do not for another. -/
theorem Argon2.derives (h : Argon2 idKey) {password salt : Bytes} {time memory : UInt32} {threads : UInt8}
    {keyLen : UInt32} (hkey : idKey password salt time memory threads keyLen = some key) (other : Bytes) :
    ∃ derived, idKey other salt time memory threads keyLen = some derived := by
  refine Option.ne_none_iff_exists'.1 fun hnone => ?_
  have hpanics := (h.panics password salt _ memory _ keyLen).2 ((h.panics other salt _ _ _ _).1 hnone)
  rw [hkey] at hpanics
  cases hpanics

/-- `VerifyPassword` on what `HashPassword` has returned compares the keys. -/
theorem verifyPassword_encodeHash (h : Argon2 idKey) {randRead : (n : ℕ) → Option {salt : Bytes // salt.length = n}}
    {password encoded : Bytes} (hhash : hashPassword idKey randRead password p = some (.ok encoded)) :
    ∃ salt, randRead p.saltLength.toNat = some salt ∧ ∀ other,
      verifyPassword idKey other encoded =
        some (.ok (idKey other salt p.iterations p.memory p.parallelism p.keyLength ==
          idKey password salt p.iterations p.memory p.parallelism p.keyLength)) := by
  unfold hashPassword at hhash
  split_ifs at hhash
  · cases hhash
  split at hhash
  · cases hhash
  · next salt hsalt =>
    refine ⟨salt, hsalt, fun other => ?_⟩
    cases hkey : idKey password salt p.iterations p.memory p.parallelism p.keyLength with
    | none =>
      rw [hkey] at hhash
      cases hhash
    | some key =>
      rw [hkey] at hhash
      obtain rfl : encodeHash p salt key = encoded := Except.ok.inj (Option.some.inj hhash)
      obtain ⟨derived, hderived⟩ := h.derives hkey other
      have hlen : key.length = derived.length := (h.length hkey).trans (h.length hderived).symm
      simp only [verifyPassword, decodeHash_encodeHash (h.length hkey) salt.2, hderived, Option.bind_eq_bind,
        Option.bind_some, hlen, ne_eq, not_true_eq_false, if_false, Option.pure_def]
      exact congrArg (fun b => some (Except.ok b)) BEq.comm

end RoundTrip

/-! ### Passwords -/

/-- `VerifyPassword` panics for the texts that ask for no iterations or no parallelism, and only for these; on what
`HashPassword` has returned it is right. -/
theorem password_hashes (h : Argon2 idKey) :
    (∀ password encoded, (verifyPassword idKey password encoded).isSome = true ↔ Derivable encoded) ∧
      ∀ randRead password p encoded, hashPassword idKey randRead password p = some (.ok encoded) →
        ∃ salt, randRead p.saltLength.toNat = some salt ∧ ∀ other,
          verifyPassword idKey other encoded =
            some (.ok (idKey other salt p.iterations p.memory p.parallelism p.keyLength ==
              idKey password salt p.iterations p.memory p.parallelism p.keyLength)) :=
  ⟨verifyPassword_isSome_iff h, fun _ _ _ _ hhash => verifyPassword_encodeHash h hhash⟩

/-- A derivation that runs under the conditions of the real one: the key is the password, padded or cut. -/
def paddedKey : IDKey := fun password _ time _ threads keyLen =>
  if time < 1 ∨ threads < 1 then none else some ((password ++ List.replicate keyLen.toNat 0).take keyLen.toNat)

theorem argon2_paddedKey : Argon2 paddedKey where
  panics password salt time memory threads keyLen := by
    unfold paddedKey
    split_ifs with h
    · exact iff_of_true rfl h
    · exact iff_of_false (fun heq => by cases heq) h
  length {password salt time memory threads keyLen key} h := by
    unfold paddedKey at h
    split_ifs at h
    rw [← Option.some.inj h, List.length_take, List.length_append, List.length_replicate]
    omega

/-- No iterations, no salt and no key. -/
def noIterations : Bytes := bytes "$argon2id$v=19$m=65536,t=0,p=1$$"

theorem panics_on_noIterations :
    ¬∀ idKey, Argon2 idKey → ∀ password encoded, (verifyPassword idKey password encoded).isSome = true := by
  intro h
  have hnone : (verifyPassword paddedKey (bytes "x") noIterations).isSome = false := by decide
  exact Bool.false_ne_true (hnone.symm.trans (h paddedKey argon2_paddedKey (bytes "x") noIterations))

def sampleParams : Argon2Params := ⟨64, 1, 1, 1, 2⟩

def zeroSalt (n : ℕ) : Option {salt : Bytes // salt.length = n} := some ⟨List.replicate n 0, List.length_replicate⟩

/-- What `HashPassword` returns for `x`. -/
def storedHash : Bytes := encodeHash sampleParams [0] [0x78, 0]

theorem password_hashes_storedHash :
    ((verifyPassword paddedKey (bytes "x") noIterations).isSome = true ↔ Derivable noIterations) ∧
      hashPassword paddedKey zeroSalt (bytes "x") sampleParams = some (.ok storedHash) ∧
      verifyPassword paddedKey (bytes "x") storedHash = some (.ok true) ∧
      verifyPassword paddedKey (bytes "y") storedHash = some (.ok false) := by
  have hhash : hashPassword paddedKey zeroSalt (bytes "x") sampleParams = some (.ok storedHash) := rfl
  obtain ⟨salt, hsalt, hverify⟩ := (password_hashes argon2_paddedKey).2 zeroSalt _ _ _ hhash
  refine ⟨(password_hashes argon2_paddedKey).1 (bytes "x") noIterations, hhash, ?_, ?_⟩
  · rw [hverify]
    rfl
  · rw [hverify]
    rfl

end DeskSync.Backend.Password
