import DeskSync.Lib.Proc

/-!
# What the backend services share

Application errors (`pkg/errors`), token hashing (`pkg/crypto/token.go`), the string functions of the
Go standard library the services call, and the three ways a call on a store can end.
-/

namespace DeskSync.Backend

open Proc

/-- Milliseconds. -/
abbrev Time := ℕ

/-! ### `pkg/errors` -/

inductive Code where
  | invalidInput
  | unauthorized
  | forbidden
  | notFound
  | conflict
  | rateLimited
  | internal
  | unavailable
  | preconditionF
  deriving DecidableEq, Repr

/-- `errors.Error`; the wrapped cause only feeds log lines and is left out. -/
structure AppError where
  code : Code
  message : String
  deriving DecidableEq, Repr

/-! ### Strings -/

/-- `unicode.IsSpace`. -/
def isSpace (c : Char) : Bool :=
  let n := c.toNat
  (9 ≤ n && n ≤ 13) || n = 32 || n = 0x85 || n = 0xA0 || n = 0x1680 || (0x2000 ≤ n && n ≤ 0x200A) ||
    n = 0x2028 || n = 0x2029 || n = 0x202F || n = 0x205F || n = 0x3000

/-- `strings.TrimSpace`. -/
def trimSpace (s : String) : String :=
  String.ofList ((s.toList.dropWhile isSpace).rdropWhile isSpace)

/-- `strings.TrimSpace(s) == ""`. -/
def blank (s : String) : Bool := trimSpace s == ""

/-- `strings.IndexByte` on a byte slice, `-1` when the byte does not occur. -/
def indexByte (s : List UInt8) (c : UInt8) : ℤ :=
  match s.idxOf? c with
  | some i => i
  | none => -1

/-- The bytes of a Go string. -/
def bytes (s : String) : List UInt8 := s.toUTF8.data.toList

theorem fromUTF8_bytes (s : String) : String.fromUTF8? ⟨(bytes s).toArray⟩ = some s := by
  unfold String.fromUTF8? bytes
  exact dif_pos s.isValidUTF8

/-! ### `pkg/crypto/token.go` -/

/-- `HashToken` is a parameter of every service that stores a token or a code hashed. -/
abbrev TokenHash := String → String

/-- `EqualTokenHash`: the constant-time comparison decides equality. -/
def equalTokenHash (hashToken : TokenHash) (token storedHash : String) : Bool :=
  hashToken token == storedHash

/-! ### Tables -/

/-- A column without repetition stays so when a row with a new value is added. -/
theorem nodup_column {α β : Type} (column : α → β) {rows : List α} {row : α}
    (h : (rows.map column).Nodup) (hnew : ∀ r ∈ rows, column r ≠ column row) :
    ((rows ++ [row]).map column).Nodup := by
  rw [List.map_append, List.map_singleton]
  refine List.nodup_append.2 ⟨h, List.nodup_singleton _, ?_⟩
  rintro _ ha _ hb rfl
  obtain ⟨r, hr, heq⟩ := List.mem_map.1 ha
  exact hnew r hr (heq.trans (List.mem_singleton.1 hb))

/-! ### Calls on a store -/

/-- How a call on a store ends: it goes through, it fails without effect, or it takes effect and its
reply is lost. -/
inductive Fault where
  | none
  | lost
  | replyLost
  deriving DecidableEq, Repr

/-- A store call under a fault; both failures look the same to the caller. -/
def Fault.apply {σ ε ρ : Type} (err : ε) (f : Fault) (call : σ → Except ε ρ × σ) (s : σ) :
    Except ε ρ × σ :=
  match f with
  | .none => call s
  | .lost => (.error err, s)
  | .replyLost => (.error err, (call s).2)

section Apply
variable {σ ε ρ : Type} {err : ε} {f : Fault} {k : σ → Except ε ρ × σ} {s : σ}

/-- The store after a call is the one before it or the one the call leaves. -/
theorem Fault.apply_store (err : ε) (f : Fault) (k : σ → Except ε ρ × σ) (s : σ) :
    (f.apply err k s).2 = s ∨ (f.apply err k s).2 = (k s).2 := by
  cases f <;> simp [Fault.apply]

/-- A call that is not lost takes effect. -/
theorem Fault.apply_applied (h : f ≠ .lost) : (f.apply err k s).2 = (k s).2 := by
  cases f with
  | lost => exact absurd rfl h
  | _ => rfl

/-- A call that fails looks the same whether it took effect or not. -/
theorem Fault.apply_failed (h : f ≠ .none) : (f.apply err k s).1 = .error err := by
  cases f with
  | none => exact absurd rfl h
  | _ => rfl

/-- A call that succeeds has gone through. -/
theorem Fault.apply_ok {r : ρ} (h : (f.apply err k s).1 = .ok r) : f = .none ∧ (k s).1 = .ok r := by
  cases f <;> simp_all [Fault.apply]

/-- What every outcome of the bare call keeps is kept under faults. -/
theorem Fault.apply_invariant {I : σ → Prop} (hs : I s) (hk : I (k s).2) : I (f.apply err k s).2 := by
  rcases Fault.apply_store err f k s with h | h <;> rw [h] <;> assumption

end Apply

end DeskSync.Backend
