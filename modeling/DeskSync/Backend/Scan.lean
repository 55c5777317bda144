import DeskSync.Backend.Basic
import DeskSync.Lib.Bytes

/-!
# Scanning numbers in Go

What the backend uses of `fmt.Sscanf`: literals, and `%d` for a number of so many bits. `none` is an error. Spaces
before a number are skipped, a line feed among them is an error, and what is left of the input is not looked at.
`%d` reads what `%d` has written (`scanUint_formatInt`, `scanInt_formatInt`).
-/

namespace DeskSync.Backend.Scan

variable {n bits : ℕ} {input rest : Bytes} {b : UInt8}

/-- The runes `fmt` takes for spaces. -/
def spaceRunes : List Char :=
  ['\t', '\n', '\x0B', '\x0C', '\r', ' ', '\u0085', '\u00A0', '\u1680', '\u2000', '\u2001', '\u2002', '\u2003',
    '\u2004', '\u2005', '\u2006', '\u2007', '\u2008', '\u2009', '\u200A', '\u2028', '\u2029', '\u202F', '\u205F',
    '\u3000']

/-- The bytes of the space at the beginning. -/
def spaceWidth (input : Bytes) : ℕ :=
  ((spaceRunes.map String.utf8EncodeChar).find? fun r => r.isPrefixOf input).elim 0 List.length

/-- `SkipSpace`, with `k` bytes left of the rune it skips. -/
def skipRune : ℕ → Bytes → Option Bytes
  | _, [] => some []
  | k + 1, _ :: input => skipRune k input
  | 0, b :: input =>
    if b = 0x0A then none
    else match spaceWidth (b :: input) with
      | 0 => some (b :: input)
      | k + 1 => skipRune k input

def skipSpace (input : Bytes) : Option Bytes := skipRune 0 input

def isDigit (b : UInt8) : Bool := 0x30 ≤ b && b ≤ 0x39

/-- `scanNumber`. -/
def scanNumber (input : Bytes) : Option (ℕ × Bytes) :=
  let digits := input.takeWhile isDigit
  if digits = [] then none
  else some (Nat.ofDigitChars 10 (digits.map fun b => Char.ofNat b.toNat) 0, input.dropWhile isDigit)

/-- `%d` into an unsigned integer. -/
def scanUint (bits : ℕ) (input : Bytes) : Option (ℕ × Bytes) := do
  let input ← skipSpace input
  let (n, input) ← scanNumber input
  if n < 2 ^ bits then some (n, input) else none

/-- `%d` into a signed integer, which may carry a sign. -/
def scanInt (bits : ℕ) (input : Bytes) : Option (ℤ × Bytes) := do
  let input ← skipSpace input
  let negative := input.head? == some 0x2D
  let signed := negative || input.head? == some 0x2B
  let (n, input) ← scanNumber (if signed then input.tail else input)
  let i : ℤ := if negative then -n else n
  if -2 ^ (bits - 1) ≤ i ∧ i < 2 ^ (bits - 1) then some (i, input) else none

/-- Literal text of a format. -/
def literal (text input : Bytes) : Option Bytes :=
  if text.isPrefixOf input then some (input.drop text.length) else none

/-- `%d`. -/
def formatInt (n : ℕ) : Bytes := (Nat.toDigits 10 n).map fun c => UInt8.ofNat c.toNat

theorem literal_append (text input : Bytes) : literal text (text ++ input) = some input := by
  rw [literal, if_pos (List.isPrefixOf_iff_prefix.2 (List.prefix_append text input)), List.drop_left]

/-! ### Digits -/

theorem isDigit_spec (h : isDigit b = true) :
    b ≠ 0x0A ∧ b ≠ 0x2B ∧ b ≠ 0x2D ∧
      (spaceRunes.map String.utf8EncodeChar).all (fun r => r.head?.any (· != b)) = true := by
  revert b
  decide +kernel

theorem isDigit_toDigits {c : Char} (h : c ∈ Nat.toDigits 10 n) :
    isDigit (UInt8.ofNat c.toNat) = true ∧ Char.ofNat (UInt8.ofNat c.toNat).toNat = c := by
  have hdigit := Nat.isDigit_of_mem_toDigits (by decide) le_rfl h
  rw [Char.isDigit, Bool.and_eq_true, decide_eq_true_eq, decide_eq_true_eq] at hdigit
  obtain ⟨hlow, hhigh⟩ := hdigit
  have hlow : 48 ≤ c.toNat := hlow
  have hhigh : c.toNat ≤ 57 := hhigh
  have hall : ∀ k ≤ 57, 48 ≤ k → isDigit (UInt8.ofNat k) = true ∧ (UInt8.ofNat k).toNat = k := by decide
  obtain ⟨hdigit, hnat⟩ := hall c.toNat hhigh hlow
  exact ⟨hdigit, by rw [hnat, Char.ofNat_toNat]⟩

theorem mem_formatInt (h : b ∈ formatInt n) : isDigit b = true := by
  obtain ⟨c, hc, rfl⟩ := List.mem_map.1 h
  exact (isDigit_toDigits hc).1

theorem formatInt_ne_nil (n : ℕ) : formatInt n ≠ [] := by
  rw [formatInt, ne_eq, List.map_eq_nil_iff]
  exact Nat.toDigits_ne_nil

/-- Before a digit there is nothing to skip. -/
theorem skipSpace_digit (h : isDigit b = true) (input : Bytes) : skipSpace (b :: input) = some (b :: input) := by
  obtain ⟨hnl, -, -, hspace⟩ := isDigit_spec h
  have hwidth : spaceWidth (b :: input) = 0 := by
    have hnone : (spaceRunes.map String.utf8EncodeChar).find? (fun r => r.isPrefixOf (b :: input)) = none := by
      refine List.find?_eq_none.2 fun r hr hprefix => ?_
      have hhead := List.all_eq_true.1 hspace r hr
      cases r with
      | nil => cases hhead
      | cons a r =>
        rw [List.isPrefixOf_cons_cons, Bool.and_eq_true, beq_iff_eq] at hprefix
        rw [List.head?_cons, Option.any_some, bne_iff_ne] at hhead
        exact hhead hprefix.1
    rw [spaceWidth, hnone]
    rfl
  rw [skipSpace, skipRune, if_neg hnl, hwidth]

theorem scanNumber_formatInt (n : ℕ) (hrest : ∀ b ∈ rest.head?, isDigit b = false) :
    scanNumber (formatInt n ++ rest) = some (n, rest) := by
  have hdigits : ∀ b ∈ formatInt n, isDigit b = true := fun b hb => mem_formatInt hb
  have hstop : rest.takeWhile isDigit = [] ∧ rest.dropWhile isDigit = rest := by
    cases rest with
    | nil => exact ⟨rfl, rfl⟩
    | cons b rest =>
      have hb : ¬isDigit b = true := by
        rw [hrest b rfl]
        exact Bool.false_ne_true
      exact ⟨List.takeWhile_cons_of_neg hb, List.dropWhile_cons_of_neg hb⟩
  have htake : (formatInt n ++ rest).takeWhile isDigit = formatInt n := by
    rw [List.takeWhile_append_of_pos hdigits, hstop.1, List.append_nil]
  have hdrop : (formatInt n ++ rest).dropWhile isDigit = rest := by
    rw [List.dropWhile_append_of_pos hdigits, hstop.2]
  have hchars : (formatInt n).map (fun b => Char.ofNat b.toNat) = Nat.toDigits 10 n := by
    rw [formatInt, List.map_map]
    exact (List.map_congr_left fun c hc => (isDigit_toDigits hc).2).trans (List.map_id _)
  simp only [scanNumber, htake, hdrop, hchars, if_neg (formatInt_ne_nil n), Nat.ofDigitChars_ten_toDigits]

theorem skipSpace_formatInt (n : ℕ) (rest : Bytes) : skipSpace (formatInt n ++ rest) = some (formatInt n ++ rest) := by
  obtain ⟨b, digits, hb⟩ := List.exists_cons_of_ne_nil (formatInt_ne_nil n)
  rw [hb, List.cons_append]
  exact skipSpace_digit (mem_formatInt (n := n) (by rw [hb]; exact List.mem_cons_self)) _

/-- An unsigned number is read back. -/
theorem scanUint_formatInt (hn : n < 2 ^ bits) (hrest : ∀ b ∈ rest.head?, isDigit b = false) :
    scanUint bits (formatInt n ++ rest) = some (n, rest) := by
  simp only [scanUint, skipSpace_formatInt, scanNumber_formatInt n hrest, Option.bind_eq_bind, Option.bind_some,
    if_pos hn]

/-- A number that fits is read back without a sign. -/
theorem scanInt_formatInt (hn : n < 2 ^ (bits - 1)) (hrest : ∀ b ∈ rest.head?, isDigit b = false) :
    scanInt bits (formatInt n ++ rest) = some ((n : ℤ), rest) := by
  obtain ⟨b, digits, hb⟩ := List.exists_cons_of_ne_nil (formatInt_ne_nil n)
  obtain ⟨-, hplus, hminus, -⟩ := isDigit_spec (mem_formatInt (n := n) (b := b) (by rw [hb]; exact List.mem_cons_self))
  have hhead : (formatInt n ++ rest).head? = some b := by rw [hb, List.cons_append, List.head?_cons]
  have hfits : -2 ^ (bits - 1) ≤ (n : ℤ) ∧ (n : ℤ) < 2 ^ (bits - 1) := by
    have hn : (n : ℤ) < 2 ^ (bits - 1) := by exact_mod_cast hn
    exact ⟨by have := Int.natCast_nonneg n; omega, hn⟩
  have hnegative : (some b == some (0x2D : UInt8)) = false := beq_false_of_ne fun h => hminus (Option.some.inj h)
  have hpositive : (some b == some (0x2B : UInt8)) = false := beq_false_of_ne fun h => hplus (Option.some.inj h)
  simp only [scanInt, skipSpace_formatInt, hhead, hnegative, hpositive, Bool.or_self, Bool.false_eq_true, if_false,
    scanNumber_formatInt n hrest, Option.bind_eq_bind, Option.bind_some, if_pos hfits]

end DeskSync.Backend.Scan
