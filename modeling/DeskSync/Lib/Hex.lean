import DeskSync.Lib.Bytes

/-!
# Hex

Two digits for each byte. `encode` writes lower case, `decode` reads both cases (`decode_encode`).
-/

namespace DeskSync.Hex

/-- The digit of four bits. -/
def digit (v : UInt8) : Char := if v < 10 then Char.ofNat (0x30 + v.toNat) else Char.ofNat (0x57 + v.toNat)

/-- The four bits of a digit. -/
def value (c : Char) : Option UInt8 :=
  let n := c.toNat
  if 0x30 ≤ n && n ≤ 0x39 then some (.ofNat (n - 0x30))
  else if 0x61 ≤ n && n ≤ 0x66 then some (.ofNat (n - 0x57))
  else if 0x41 ≤ n && n ≤ 0x46 then some (.ofNat (n - 0x37))
  else none

def digits (bs : Bytes) : List Char := bs.flatMap fun (b : UInt8) => [digit (b >>> 4), digit (b &&& 0x0F)]

def encode (bs : Bytes) : String := String.ofList (digits bs)

def decodeDigits : List Char → Option Bytes
  | [] => some []
  | [_] => none
  | a :: b :: rest => do
    let high ← value a
    let low ← value b
    let bs ← decodeDigits rest
    return (high <<< 4 ||| low) :: bs

def decode (s : String) : Option Bytes := decodeDigits s.toList

theorem value_high (b : UInt8) : value (digit (b >>> 4)) = some (b >>> 4) := by
  have hall : ∀ n < 256, (value (digit (UInt8.ofNat n >>> 4)) == some (UInt8.ofNat n >>> 4)) = true := by
    decide +kernel
  simpa using hall b.toNat (UInt8.toNat_lt b)

theorem value_low (b : UInt8) : value (digit (b &&& 0x0F)) = some (b &&& 0x0F) := by
  have hall : ∀ n < 256, (value (digit (UInt8.ofNat n &&& 0x0F)) == some (UInt8.ofNat n &&& 0x0F)) = true := by
    decide +kernel
  simpa using hall b.toNat (UInt8.toNat_lt b)

theorem high_low (b : UInt8) : (b >>> 4) <<< 4 ||| (b &&& 0x0F) = b := by
  have hall : ∀ n < 256,
      ((UInt8.ofNat n >>> 4) <<< 4 ||| (UInt8.ofNat n &&& 0x0F) == UInt8.ofNat n) = true := by
    decide +kernel
  simpa using hall b.toNat (UInt8.toNat_lt b)

theorem decodeDigits_digits (bs : Bytes) : decodeDigits (digits bs) = some bs := by
  induction bs with
  | nil => rfl
  | cons b bs ih =>
    rw [digits, List.flatMap_cons, List.cons_append, List.cons_append, List.nil_append, decodeDigits,
      value_high, value_low]
    have hrest : decodeDigits (bs.flatMap fun (b : UInt8) => [digit (b >>> 4), digit (b &&& 0x0F)]) = some bs :=
      ih
    simp only [hrest, Option.bind_eq_bind, Option.bind_some, Option.pure_def, high_low]

/-- What is encoded is read back. -/
theorem decode_encode (bs : Bytes) : decode (encode bs) = some bs := by
  rw [decode, encode, String.toList_ofList]
  exact decodeDigits_digits bs

theorem encode_injective : Function.Injective encode := by
  intro x y h
  have hdecode := congrArg decode h
  rwa [decode_encode, decode_encode, Option.some.injEq] at hdecode

end DeskSync.Hex
