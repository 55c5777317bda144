import DeskSync.Backend.Basic
import DeskSync.Lib.Hex

/-!
# The identity file of the agent

`AgentStore::load_or_create_identity` of the agent's core crate. The first run generates a key and puts it
into the identity file: it writes a temporary file next to it, sets its mode and renames it into place. A
later run reads the key back.

Any number of processes call it on one directory. A step is one operation on the file system, which may
fail. Two calls that both find no identity file both generate a key, and share the temporary file:
`overlapping_calls` is a run in which both return, with two keys. `agreed_of_undisturbed`: as long as a
call renames the temporary file into place only while it holds the key of the call and no call has
returned one, and neither writes to the identity file nor reads a file that no longer is it, all calls
return one key, and the identity file holds it.
-/

namespace DeskSync.AgentStore

open Backend Proc
open Proc.Prog (perform)

/-- The bytes of an X25519 secret key. -/
abbrev Secret := {bs : Bytes // bs.length = 32}

inductive IdentityError
  | io
  /-- `failed to gather entropy` -/
  | entropy
  /-- `invalid secret key hex` -/
  | hex
  /-- `secret key must be 32 bytes` -/
  | length
  deriving DecidableEq

/-- `DeviceIdentity::secret_hex`. -/
def secretHex (s : Secret) : String := Hex.encode s.1

/-- `DeviceIdentity::from_secret_hex`. -/
def fromSecretHex (s : String) : Except IdentityError Secret :=
  match Hex.decode (trimSpace s) with
  | none => .error .hex
  | some raw => if h : raw.length = 32 then .ok ⟨raw, h⟩ else .error .length

/-! ### The file system -/

/-- The files there are, and which of them the identity file and the temporary file are. A file stays
open when it loses its name. -/
structure Fs where
  files : List Bytes
  identity : Option ℕ
  tmp : Option ℕ

/-- The directory with what the two files hold at first, if they are there. -/
def Fs.initially (identity tmp : Option Bytes) : Fs where
  files := [identity.getD [], tmp.getD []]
  identity := identity.map fun _ => 0
  tmp := tmp.map fun _ => 1

/-- Operations on the file system; `write` writes at the start of a file that was opened before. -/
inductive Call
  | exists
  | openIdentity
  | read (fd : ℕ)
  | createDirAll
  | openTmp
  | write (fd : ℕ) (bytes : Bytes)
  | setPermissions (mode : ℕ)
  | rename
  deriving DecidableEq

@[reducible] def Res : Call → Type
  | .exists => Bool
  | .openIdentity => ℕ
  | .read _ => Bytes
  | .openTmp => ℕ
  | _ => Unit

abbrev Reply (c : Call) : Type := Except Unit (Res c)

/-- An operation that goes through. -/
def Call.apply : (c : Call) → Fs → Reply c × Fs
  | .exists, fs => (.ok fs.identity.isSome, fs)
  | .openIdentity, fs =>
    match fs.identity with
    | none => (.error (), fs)
    | some n => (.ok n, fs)
  | .read fd, fs =>
    match fs.files[fd]? with
    | none => (.error (), fs)
    | some text => (.ok text, fs)
  | .createDirAll, fs => (.ok (), fs)
  | .openTmp, fs =>
    match fs.tmp with
    | none => (.ok fs.files.length, { fs with files := fs.files ++ [[]], tmp := some fs.files.length })
    | some n => (.ok n, { fs with files := fs.files.set n [] })
  | .write fd bytes, fs =>
    match fs.files[fd]? with
    | none => (.error (), fs)
    | some old => (.ok (), { fs with files := fs.files.set fd (bytes ++ old.drop bytes.length) })
  | .setPermissions _, fs =>
    match fs.tmp with
    | none => (.error (), fs)
    | some _ => (.ok (), fs)
  | .rename, fs =>
    match fs.tmp with
    | none => (.error (), fs)
    | some n => (.ok (), { fs with identity := some n, tmp := none })

def exec (fails : Bool) (c : Call) (fs : Fs) : Reply c × Fs := if fails then (.error (), fs) else c.apply fs

/-! ### The calls -/

abbrev Handler := Prog Reply

/-- `fs::read_to_string` and `from_secret_hex` on what it reads. -/
def parseIdentity (text : Bytes) : Except IdentityError Secret :=
  match String.fromUTF8? ⟨text.toArray⟩ with
  | none => .error .io
  | some s => fromSecretHex s

/-- `atomic_write` on the identity file. -/
def atomicWrite (bytes : Bytes) (mode : ℕ) : Handler (Except IdentityError Unit) := do
  match ← perform Call.openTmp with
  | .error () => return .error .io
  | .ok fd =>
    match ← perform (Call.write fd bytes) with
    | .error () => return .error .io
    | .ok () =>
      match ← perform (Call.setPermissions mode) with
      | .error () => return .error .io
      | .ok () =>
        match ← perform Call.rename with
        | .error () => return .error .io
        | .ok () => return .ok ()

/-- The path of `load_or_create_identity` that generates a key. -/
def createIdentity (generated : Except Unit Secret) : Handler (Except IdentityError Secret) :=
  match generated with
  | .error () => return .error .entropy
  | .ok secret => do
    match ← perform Call.createDirAll with
    | .error () => return .error .io
    | .ok () =>
      match ← atomicWrite (bytes (secretHex secret)) 0o600 with
      | .error e => return .error e
      | .ok () => return .ok secret

/-- The path that reads the key there is. -/
def loadIdentity : Handler (Except IdentityError Secret) := do
  match ← perform Call.openIdentity with
  | .error () => return .error .io
  | .ok fd =>
    match ← perform (Call.read fd) with
    | .error () => return .error .io
    | .ok text => return parseIdentity text

/-- `load_or_create_identity`, with the key it generates if it does. `Path::exists` is false on errors. -/
def loadOrCreateIdentity (generated : Except Unit Secret) : Handler (Except IdentityError Secret) := do
  match ← perform Call.exists with
  | .ok true => loadIdentity
  | _ => createIdentity generated

/-- Any number of calls, each with the key it would generate. An operation fails if its step says so. -/
def system : System Fs (Except Unit Secret) Reply (Except IdentityError Secret) Bool Empty where
  start generated _ := loadOrCreateIdentity generated
  exec := exec
  env := nofun

abbrev World := Pool Fs (Except Unit Secret) Reply (Except IdentityError Secret)

abbrev Step := Label (Except Unit Secret) Bool Empty

/-- No call has been made. -/
def fresh (identity tmp : Option Bytes) : World := ⟨.initially identity tmp, []⟩

/-! ### One key for all -/

/-- The key in the identity file. -/
def Fs.key (fs : Fs) : Option Secret :=
  (fs.identity.bind (fs.files[·]?)).bind fun text => (parseIdentity text).toOption

/-- The key in the temporary file. -/
def Fs.tmpKey (fs : Fs) : Option Secret :=
  (fs.tmp.bind (fs.files[·]?)).bind fun text => (parseIdentity text).toOption

/-- Some call has returned the key. -/
def Returned (w : World) (secret : Secret) : Prop :=
  ∃ (i : ℕ) (generated : Except Unit Secret), w.threads[i]? = some ⟨generated, .ret (.ok secret)⟩

/-- All calls that have returned a key have returned the same, and the identity file holds it. -/
structure Agreed (w : World) : Prop where
  same : ∀ secret secret', Returned w secret → Returned w secret' → secret = secret'
  held : ∀ secret, Returned w secret → w.store.key = some secret

/-- The key the call returns if its next operation is the last and goes through. -/
def returns (p : Handler (Except IdentityError Secret)) : Option Secret :=
  match p with
  | .ret (.ok secret) => some secret
  | _ => none

/-- No call has returned a key. -/
def noneReturned (w : World) : Bool := w.threads.all fun t => (returns t.prog).isNone

/-- An operation that goes through renames the temporary file only if it holds the key of the call and no
call has returned one, does not write to the identity file, and reads the identity file. -/
def Undisturbed (w : World) : Step → Prop
  | .advance i false =>
    match w.threads[i]? with
    | some ⟨_, .call .rename k⟩ => w.store.tmpKey = returns (k (.ok ())) ∧ noneReturned w = true
    | some ⟨_, .call (.write fd _) _⟩ => w.store.identity ≠ some fd
    | some ⟨_, .call (.read fd) _⟩ => w.store.identity = some fd
    | _ => True
  | _ => True

instance (w : World) (l : Step) : Decidable (Undisturbed w l) := by
  unfold Undisturbed
  split
  · split <;> infer_instance
  · infer_instance

/-! ### The stages of a call -/

inductive Stage
  | checking (generated : Except Unit Secret)
  | opening
  | reading (fd : ℕ)
  | preparing (secret : Secret)
  | opensTmp (secret : Secret)
  | writing (secret : Secret) (fd : ℕ)
  | permitting (secret : Secret)
  | renaming (secret : Secret)
  | done (r : Except IdentityError Secret)

inductive Next : Stage → (c : Call) → Reply c → Stage → Prop
  | finds (generated) : Next (.checking generated) .exists (.ok true) .opening
  | generates (secret r) (hr : r ≠ .ok true) : Next (.checking (.ok secret)) .exists r (.preparing secret)
  | noEntropy (r) (hr : r ≠ .ok true) : Next (.checking (.error ())) .exists r (.done (.error .entropy))
  | opens (fd) : Next .opening .openIdentity (.ok fd) (.reading fd)
  | reads (fd text) : Next (.reading fd) (.read fd) (.ok text) (.done (parseIdentity text))
  | prepares (secret) : Next (.preparing secret) .createDirAll (.ok ()) (.opensTmp secret)
  | opensTmp (secret fd) : Next (.opensTmp secret) .openTmp (.ok fd) (.writing secret fd)
  | writes (secret fd) : Next (.writing secret fd) (.write fd (bytes (secretHex secret))) (.ok ())
      (.permitting secret)
  | permits (secret mode) : Next (.permitting secret) (.setPermissions mode) (.ok ()) (.renaming secret)
  | renames (secret) : Next (.renaming secret) .rename (.ok ()) (.done (.ok secret))
  | fails (x c) (hx : ∀ r, x ≠ .done r) : Next x c (.error ()) (.done (.error .io))

/-- The call follows the stages, and returns what its last stage says. -/
abbrev Follows (x : Stage) (p : Handler (Except IdentityError Secret)) : Prop :=
  p.Conforms (fun _ _ => True) Next (fun x r => x = .done r) x

theorem follows_load : Follows .opening loadIdentity := by
  intro r _
  cases r with
  | error => exact ⟨_, .fails _ _ nofun, rfl⟩
  | ok fd =>
    refine ⟨_, .opens fd, fun r _ => ?_⟩
    cases r with
    | error => exact ⟨_, .fails _ _ nofun, rfl⟩
    | ok text => exact ⟨_, .reads fd text, rfl⟩

theorem follows_create (secret : Secret) : Follows (.preparing secret) (createIdentity (.ok secret)) := by
  intro r _
  cases r with
  | error => exact ⟨_, .fails _ _ nofun, rfl⟩
  | ok =>
    refine ⟨_, .prepares secret, fun r _ => ?_⟩
    cases r with
    | error => exact ⟨_, .fails _ _ nofun, rfl⟩
    | ok fd =>
      refine ⟨_, .opensTmp secret fd, fun r _ => ?_⟩
      cases r with
      | error => exact ⟨_, .fails _ _ nofun, rfl⟩
      | ok =>
        refine ⟨_, .writes secret fd, fun r _ => ?_⟩
        cases r with
        | error => exact ⟨_, .fails _ _ nofun, rfl⟩
        | ok =>
          refine ⟨_, .permits secret _, fun r _ => ?_⟩
          cases r with
          | error => exact ⟨_, .fails _ _ nofun, rfl⟩
          | ok => exact ⟨_, .renames secret, rfl⟩

theorem follows_loadOrCreate (generated : Except Unit Secret) :
    Follows (.checking generated) (loadOrCreateIdentity generated) := by
  have hcreate (r : Reply .exists) (hr : r ≠ .ok true) :
      ∃ x, Next (.checking generated) .exists r x ∧ Follows x (createIdentity generated) := by
    cases generated with
    | error => exact ⟨_, .noEntropy r hr, rfl⟩
    | ok secret => exact ⟨_, .generates secret r hr, follows_create secret⟩
  intro r _
  cases r with
  | error => exact hcreate _ nofun
  | ok found =>
    cases found with
    | true => exact ⟨_, .finds generated, follows_load⟩
    | false => exact hcreate _ nofun

/-- A call that is done has returned. -/
theorem follows_done {r : Except IdentityError Secret} {p : Handler (Except IdentityError Secret)}
    (hp : Follows (.done r) p) : p = .ret r := by
  cases p with
  | ret a =>
    cases hp
    rfl
  | call c k =>
    obtain ⟨x, hnext, -⟩ := hp (.error ()) trivial
    cases hnext with
    | fails x c hx => exact absurd rfl (hx r)

/-! ### The invariant -/

structure Kept (X : ℕ → Stage) (w : World) : Prop where
  conform : w.Conform (fun _ _ => True) Next (fun x r => x = .done r) X
  identity : ∀ n, w.store.identity = some n → n < w.store.files.length
  tmp : ∀ n, w.store.tmp = some n → n < w.store.files.length
  apart : ∀ n, w.store.identity = some n → w.store.tmp ≠ some n
  held : ∀ secret, Returned w secret → w.store.key = some secret

/-- What an operation does. -/
theorem exec_cases (fails : Bool) (c : Call) (fs : Fs) :
    ((exec fails c fs).1 = .error () ∧ (exec fails c fs).2 = fs) ∨
      (fails = false ∧ (∃ r, (exec fails c fs).1 = .ok r) ∧ exec fails c fs = c.apply fs) := by
  cases fails with
  | true => exact .inl ⟨rfl, rfl⟩
  | false =>
    cases hr : (c.apply fs).1 with
    | ok r => exact .inr ⟨rfl, ⟨r, hr⟩, rfl⟩
    | error =>
      refine .inl ⟨hr, ?_⟩
      show (c.apply fs).2 = fs
      cases c with
      | «exists» => rfl
      | createDirAll => rfl
      | openIdentity => cases h : fs.identity <;> simp [Call.apply, h]
      | read fd => cases h : fs.files[fd]? <;> simp [Call.apply, h]
      | openTmp =>
        cases h : fs.tmp <;> simp [Call.apply, h] at hr
      | write fd bytes =>
        cases h : fs.files[fd]? with
        | none => simp [Call.apply, h]
        | some old => simp [Call.apply, h] at hr
      | setPermissions mode => cases h : fs.tmp <;> simp [Call.apply, h]
      | rename =>
        cases h : fs.tmp with
        | none => simp [Call.apply, h]
        | some n => simp [Call.apply, h] at hr

section Step
variable {X : ℕ → Stage} {w : World}

/-- The file system after an operation that leaves the identity file. -/
structure Leaves (fs fs' : Fs) : Prop where
  same : fs'.identity = fs.identity
  key : fs'.key = fs.key
  length : fs.files.length ≤ fs'.files.length
  tmp : ∀ n, fs'.tmp = some n → n < fs'.files.length
  apart : ∀ n, fs'.identity = some n → fs'.tmp ≠ some n

/-- A step that leaves the identity file, after which a call has returned the key in it, if any more. -/
theorem Kept.leave (hp : Kept X w) {X' : ℕ → Stage} {w' : World}
    (hconf : w'.Conform (fun _ _ => True) Next (fun x r => x = .done r) X')
    (hfs : Leaves w.store w'.store)
    (hret : ∀ secret, Returned w' secret → Returned w secret ∨ w.store.key = some secret) : Kept X' w' where
  conform := hconf
  identity := by
    intro n hn
    rw [hfs.same] at hn
    exact (hp.identity n hn).trans_le hfs.length
  tmp := hfs.tmp
  apart := hfs.apart
  held := by
    intro secret hs
    rw [hfs.key]
    exact (hret secret hs).elim (hp.held secret) id

theorem Kept.leaves_self (hp : Kept X w) : Leaves w.store w.store :=
  ⟨rfl, rfl, Nat.le_refl _, hp.tmp, hp.apart⟩

theorem Kept.leaves_openTmp (hp : Kept X w) : Leaves w.store (Call.apply .openTmp w.store).2 := by
  cases h : w.store.tmp with
  | none =>
    simp only [Call.apply, h]
    refine ⟨rfl, ?_, by simp, by simp, fun n hn => ?_⟩
    · unfold Fs.key
      cases hid : w.store.identity with
      | none => rfl
      | some n =>
        dsimp only [Option.bind_some]
        rw [List.getElem?_append_left (hp.identity n hid)]
    · have hlt := hp.identity n hn
      rw [ne_eq, Option.some.injEq]
      exact (Nat.ne_of_lt hlt).symm
  | some m =>
    simp only [Call.apply, h]
    refine ⟨rfl, ?_, by simp, fun n hn => ?_, fun n hn => ?_⟩
    · unfold Fs.key
      cases hid : w.store.identity with
      | none => rfl
      | some n =>
        dsimp only [Option.bind_some]
        have hne : m ≠ n := fun heq => hp.apart n hid (heq ▸ h)
        rw [List.getElem?_set_ne hne]
    · rw [List.length_set]
      exact hp.tmp n (by rwa [h])
    · exact fun heq => hp.apart n hn (h.trans heq)

theorem Kept.leaves_write (hp : Kept X w) {fd : ℕ} (bytes : Bytes) (hfd : w.store.identity ≠ some fd) :
    Leaves w.store (Call.apply (.write fd bytes) w.store).2 := by
  cases h : w.store.files[fd]? with
  | none =>
    simp only [Call.apply, h]
    exact hp.leaves_self
  | some old =>
    simp only [Call.apply, h]
    refine ⟨rfl, ?_, by simp, fun n hn => ?_, hp.apart⟩
    · unfold Fs.key
      cases hid : w.store.identity with
      | none => rfl
      | some n =>
        dsimp only [Option.bind_some]
        have hne : fd ≠ n := fun heq => hfd (heq ▸ hid)
        rw [List.getElem?_set_ne hne]
    · rw [List.length_set]
      exact hp.tmp n hn

/-- A rename that goes through, of the key that the call returns. -/
theorem Kept.rename (hp : Kept X w) {X' : ℕ → Stage} {w' : World} {n : ℕ} {secret : Secret}
    (hconf : w'.Conform (fun _ _ => True) Next (fun x r => x = .done r) X') (htmp : w.store.tmp = some n)
    (hstore : w'.store = { w.store with identity := some n, tmp := none })
    (hkey : w.store.tmpKey = some secret) (hret : ∀ secret', Returned w' secret' → secret' = secret) :
    Kept X' w' where
  conform := hconf
  identity := by
    rw [hstore]
    rintro m ⟨⟩
    exact hp.tmp n htmp
  tmp := by
    rw [hstore]
    exact nofun
  apart := by
    rw [hstore]
    exact fun _ _ => nofun
  held := by
    intro secret' hs
    rw [hret secret' hs, hstore, ← hkey, Fs.tmpKey, htmp]
    rfl

/-- Who has returned after a call has made its next operation. -/
theorem returned_advance {i : ℕ} {generated : Except Unit Secret} {c : Call}
    {k : Reply c → Handler (Except IdentityError Secret)} {e : Bool} {x' : Stage}
    (hi : w.threads[i]? = some ⟨generated, .call c k⟩)
    (hconf : (system.step w (.advance i e)).Conform (fun _ _ => True) Next (fun x r => x = .done r)
      (Function.update X i x')) {secret : Secret} (hs : Returned (system.step w (.advance i e)) secret) :
    Returned w secret ∨ x' = .done (.ok secret) := by
  obtain ⟨j, generated', hj⟩ := hs
  by_cases hji : j = i
  · subst hji
    have hdone := hconf j _ _ hj
    rw [Function.update_self] at hdone
    exact .inr hdone
  · left
    rw [system.step_advance hi, List.getElem?_set_ne (Ne.symm hji)] at hj
    exact ⟨j, generated', hj⟩

theorem returned_none (h : noneReturned w = true) (secret : Secret) : ¬ Returned w secret := by
  rintro ⟨i, generated, hi⟩
  exact absurd (List.all_eq_true.1 h _ (List.mem_of_getElem? hi)) Bool.false_ne_true

theorem kept_step (hp : Kept X w) {l : Step} (hl : Undisturbed w l) :
    ∃ X', Kept X' (system.step w l) := by
  rcases system.conform_cases hp.conform (fun generated _ => follows_loadOrCreate generated)
      (fun _ _ => trivial) l with
    ⟨i, e, rfl, -, hw⟩ | ⟨q, e, rfl, hw, hconf⟩ | ⟨i, e, q, c, k, x', rfl, hi, hw, hnext, hconf⟩ | ⟨v, -⟩
  · rw [hw]
    exact ⟨X, hp⟩
  · refine ⟨_, hp.leave hconf (by rw [hw]; exact hp.leaves_self) fun secret hs => .inl ?_⟩
    obtain ⟨j, q', hj⟩ := hs
    rcases system.thread_cases hj with hj | ⟨q'', e', heq, -, ht⟩ | ⟨e', q'', c, k, heq, -⟩
    · exact ⟨j, q', hj⟩
    · cases ht
    · cases heq
  · have hret {secret : Secret} (hs : Returned (system.step w (.advance i e)) secret) :=
      returned_advance hi hconf hs
    have hstore : (system.step w (.advance i e)).store = (exec e c w.store).2 := by
      rw [hw]
      rfl
    -- a step that leaves the identity file, and returns no key
    have hleave (hfs : Leaves w.store (exec e c w.store).2) (hx : ∀ secret, x' ≠ .done (.ok secret)) :
        Kept (Function.update X i x') (system.step w (.advance i e)) := by
      refine hp.leave hconf (by rwa [hstore]) fun secret hs => ?_
      exact .inl ((hret hs).resolve_right (hx secret))
    have hnext : Next (X i) c (exec e c w.store).1 x' := hnext
    refine ⟨Function.update X i x', ?_⟩
    rcases exec_cases e c w.store with ⟨hr, hfs⟩ | ⟨rfl, ⟨r, hr⟩, hfs⟩
    · have hself : Leaves w.store (exec e c w.store).2 := by
        rw [hfs]
        exact hp.leaves_self
      rw [hr] at hnext
      generalize hX : X i = x at hnext
      cases hnext with
      | generates secret r hr => exact hleave hself nofun
      | noEntropy r hr => exact hleave hself nofun
      | fails x c hx => exact hleave hself nofun
    · rw [hr] at hnext
      simp only [Undisturbed, hi] at hl
      generalize hX : X i = x at hnext
      cases hnext with
      | finds generated => exact hleave hp.leaves_self nofun
      | generates secret r hr => exact hleave hp.leaves_self nofun
      | noEntropy r hr => exact hleave hp.leaves_self nofun
      | opens fd =>
        refine hleave ?_ nofun
        rw [hfs]
        cases h : w.store.identity <;> simp only [Call.apply, h] <;> exact hp.leaves_self
      | prepares secret => exact hleave hp.leaves_self nofun
      | opensTmp secret fd =>
        refine hleave ?_ nofun
        rw [hfs]
        exact hp.leaves_openTmp
      | writes secret fd =>
        refine hleave ?_ nofun
        rw [hfs]
        exact hp.leaves_write _ hl
      | permits secret mode =>
        refine hleave ?_ nofun
        rw [hfs]
        cases h : w.store.tmp <;> simp only [Call.apply, h] <;> exact hp.leaves_self
      | reads fd text =>
        have htext : w.store.files[fd]? = some text := by
          rw [hfs] at hr
          cases h : w.store.files[fd]? with
          | none => simp [Call.apply, h] at hr
          | some text' => simpa [Call.apply, h] using hr
        have hself : Leaves w.store (exec false (.read fd) w.store).2 := by
          rw [hfs]
          simp only [Call.apply, htext]
          exact hp.leaves_self
        refine hp.leave hconf (by rwa [hstore]) fun secret hs => (hret hs).imp_right fun hdone => ?_
        have hl : w.store.identity = some fd := hl
        rw [Fs.key, hl, Option.bind_some, htext, Option.bind_some, Stage.done.inj hdone]
        rfl
      | renames secret =>
        have hlt := (List.getElem?_eq_some_iff.1 hi).1
        have hdone : k (.ok ()) = .ret (.ok secret) := by
          have hnext := hconf i q (k (.ok ())) (by rw [hw]; simp only [system, hr, List.getElem?_set_self hlt])
          rw [Function.update_self] at hnext
          exact follows_done hnext
        obtain ⟨hkey, hnone⟩ : w.store.tmpKey = returns (k (.ok ())) ∧ noneReturned w = true := hl
        rw [hdone] at hkey
        cases htmp : w.store.tmp with
        | none => simp [Fs.tmpKey, htmp, returns] at hkey
        | some n =>
          refine hp.rename hconf htmp ?_ hkey fun secret' hs => ?_
          · rw [hstore, hfs]
            simp only [Call.apply, htmp]
          · have hdone := (hret hs).resolve_left (returned_none hnone secret')
            cases hdone
            rfl
  · exact v.elim

end Step

/-! ### The result -/

theorem kept_fresh (identity tmp : Option Bytes) :
    Kept (fun _ => .checking (.error ())) (fresh identity tmp) where
  conform := by
    intro i q p hi
    cases hi
  identity := by
    intro n hn
    obtain ⟨-, -, rfl⟩ := Option.map_eq_some_iff.1 hn
    exact Nat.zero_lt_two
  tmp := by
    intro n hn
    obtain ⟨-, -, rfl⟩ := Option.map_eq_some_iff.1 hn
    exact Nat.one_lt_two
  apart := by
    intro n hn htmp
    obtain ⟨-, -, rfl⟩ := Option.map_eq_some_iff.1 hn
    obtain ⟨-, -, heq⟩ := Option.map_eq_some_iff.1 htmp
    cases heq
  held := by
    rintro secret ⟨i, q, hi⟩
    cases hi

/-- In a run in which no call is disturbed, from whatever the directory holds, all calls that have
returned a key have returned the one in the identity file. -/
theorem agreed_of_undisturbed (identity tmp : Option Bytes) {l : List Step}
    (h : Run.Guarded system.step Undisturbed (fresh identity tmp) l) :
    Run.Always system.step Agreed (fresh identity tmp) l := by
  refine (h.always (I := fun w => ∃ X, Kept X w) ?_ ⟨_, kept_fresh identity tmp⟩).mono ?_
  · rintro w l ⟨X, hp⟩ hl
    exact kept_step hp hl
  · rintro w ⟨X, hp⟩
    refine ⟨fun secret secret' hs hs' => ?_, hp.held⟩
    exact Option.some.inj ((hp.held secret hs).symm.trans (hp.held secret' hs'))

def sampleSecret (b : UInt8) : Secret := ⟨List.replicate 32 b, List.length_replicate⟩

/-- The first run generates a key, and the next one reads it. -/
def oneAfterTheOther : List Step :=
  [.spawn (.ok (sampleSecret 1)) false] ++ List.replicate 6 (.advance 0 false) ++
    [.spawn (.ok (sampleSecret 2)) false] ++ List.replicate 3 (.advance 1 false)

theorem oneAfterTheOther_agreed : Run.Always system.step Agreed (fresh none none) oneAfterTheOther :=
  agreed_of_undisturbed none none (by decide +kernel)

/-- Both calls find no identity file before either of them makes one. -/
def overlapping : List Step :=
  [.spawn (.ok (sampleSecret 1)) false, .spawn (.ok (sampleSecret 2)) false, .advance 0 false,
    .advance 1 false] ++ List.replicate 5 (.advance 0 false) ++ List.replicate 5 (.advance 1 false)

theorem overlapping_calls :
    (Returned (system.run (.initially none none) overlapping) (sampleSecret 1) ∧
      Returned (system.run (.initially none none) overlapping) (sampleSecret 2)) ∧
    ¬ Run.Always system.step Agreed (fresh none none) overlapping := by
  have hfirst : Returned (system.run (.initially none none) overlapping) (sampleSecret 1) :=
    ⟨0, .ok (sampleSecret 1), by rfl⟩
  have hsecond : Returned (system.run (.initially none none) overlapping) (sampleSecret 2) :=
    ⟨1, .ok (sampleSecret 2), by rfl⟩
  refine ⟨⟨hfirst, hsecond⟩, fun h => ?_⟩
  have hlast : Agreed (system.run (.initially none none) overlapping) := h.last
  exact absurd (hlast.same _ _ hfirst hsecond) (by decide)

end DeskSync.AgentStore
