import DeskSync.Lib.Bytes

/-!
# Ideal message authentication

A message authentication code tags a message under a key, and a tag is checked against that of the
message at hand. It is *unforgeable* when a check succeeds exactly on the right tag of a message that was
signed under the key before: `check` takes the log of the messages signed so far, by anybody, as nobody
else can come up with a right tag.

`ofSign` is the unforgeable code of a signing function.
-/

namespace DeskSync

/-- One message that was signed. -/
structure Signing (K : Type) where
  key : K
  msg : Bytes
  deriving DecidableEq

structure Mac (K : Type) where
  sign : K → (msg : Bytes) → Bytes
  check : List (Signing K) → K → (msg tag : Bytes) → Bool

namespace Mac

variable {K : Type}

/-- A check succeeds exactly on the right tag of a signed message. -/
structure Unforgeable (M : Mac K) : Prop where
  check_eq_true {log : List (Signing K)} {k : K} {msg tag : Bytes} :
    M.check log k msg tag = true ↔ ⟨k, msg⟩ ∈ log ∧ tag = M.sign k msg

variable [DecidableEq K] (sign : K → Bytes → Bytes)

def ofSign : Mac K where
  sign := sign
  check log k msg tag := decide (⟨k, msg⟩ ∈ log ∧ tag = sign k msg)

theorem ofSign_unforgeable : (ofSign sign).Unforgeable where
  check_eq_true := decide_eq_true_iff

end Mac

end DeskSync
