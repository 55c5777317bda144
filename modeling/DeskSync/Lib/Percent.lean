import DeskSync.Lib.Hex

/-!
# Percent encoding

`queryEscape` writes bytes as a component of a query: unreserved ones as they are, a space as `+` and the others
as `%` and two digits. `queryUnescape` reads a component (`queryUnescape_queryEscape`). `normalize` is what a URI
parser makes of a component before that: escapes of unreserved characters are undone, and what may not stand in
the component is escaped; it leaves what `queryEscape` has written as it is (`normalize_queryEscape`).
-/

namespace DeskSync.Percent

/-- Letters, digits and `-._~`. -/
def unreserved (b : UInt8) : Bool :=
  0x61 ≤ b && b ≤ 0x7A || 0x41 ≤ b && b ≤ 0x5A || 0x30 ≤ b && b ≤ 0x39 || b == 0x2D || b == 0x2E || b == 0x5F ||
    b == 0x7E

def upperDigit (v : UInt8) : Char := if v < 10 then Char.ofNat (0x30 + v.toNat) else Char.ofNat (0x37 + v.toNat)

def escapeByte (b : UInt8) : List Char := ['%', upperDigit (b >>> 4), upperDigit (b &&& 0x0F)]

def queryEscapeByte (b : UInt8) : List Char :=
  if b = 0x20 then ['+'] else if unreserved b then [Char.ofNat b.toNat] else escapeByte b

def queryEscape (bs : Bytes) : List Char := bs.flatMap queryEscapeByte

/-- The byte of two digits. -/
def pair (a b : Char) : Option UInt8 := do
  let high ← Hex.value a
  let low ← Hex.value b
  return high <<< 4 ||| low

/-- `none` for a `%` without two digits after it, and for what is not ASCII. -/
def queryUnescape : List Char → Option Bytes
  | [] => some []
  | c :: cs =>
    if c = '%' then
      match cs with
      | a :: b :: rest => do
        let byte ← pair a b
        let bs ← queryUnescape rest
        return byte :: bs
      | _ => none
    else if 127 < c.toNat then none
    else do
      let bs ← queryUnescape cs
      return (if c = '+' then 0x20 else UInt8.ofNat c.toNat) :: bs

/-- `keep` are the characters that may stand in the component, `canon` what becomes of those (lower case, in a
component whose case does not matter). A `%` without two digits after it is escaped. -/
def normalize (keep : Char → Bool) (canon : Char → Char) : List Char → List Char
  | [] => []
  | c :: cs =>
    if c = '%' then
      match cs with
      | a :: b :: rest =>
        match pair a b with
        | none => escapeByte 0x25 ++ normalize keep canon (a :: b :: rest)
        | some byte =>
          (if unreserved byte then [canon (Char.ofNat byte.toNat)] else escapeByte byte) ++ normalize keep canon rest
      | rest => escapeByte 0x25 ++ normalize keep canon rest
    else if keep c then canon c :: normalize keep canon cs
    else (String.utf8EncodeChar c).flatMap escapeByte ++ normalize keep canon cs

/-- What `queryEscape` writes: unreserved characters, `+` and `%`. -/
def queryChar (c : Char) : Bool := c == '%' || c == '+' || (c.toNat < 0x80 && unreserved (UInt8.ofNat c.toNat))

variable {b : UInt8} {bs : Bytes} {cs : List Char}

theorem pair_upperDigit (b : UInt8) : pair (upperDigit (b >>> 4)) (upperDigit (b &&& 0x0F)) = some b := by
  revert b
  decide +kernel

theorem unreserved_char (h : unreserved b = true) :
    Char.ofNat b.toNat ≠ '%' ∧ Char.ofNat b.toNat ≠ '+' ∧ (Char.ofNat b.toNat).toNat ≤ 127 ∧
      UInt8.ofNat (Char.ofNat b.toNat).toNat = b := by
  revert b
  decide +kernel

theorem queryChar_of_mem {c : Char} (h : c ∈ queryEscape bs) : queryChar c = true := by
  obtain ⟨b, -, hc⟩ := List.mem_flatMap.1 h
  have hall : ∀ b : UInt8, (queryEscapeByte b).all queryChar = true := by decide +kernel
  exact List.all_eq_true.1 (hall b) c hc

theorem queryUnescape_cons {c : Char} (h : c ≠ '%') (cs : List Char) :
    queryUnescape (c :: cs) = if 127 < c.toNat then none else
      (queryUnescape cs).map ((if c = '+' then 0x20 else UInt8.ofNat c.toNat) :: ·) := by
  conv_lhs => unfold queryUnescape
  simp only [if_neg h]
  split_ifs <;> cases queryUnescape cs <;> rfl

theorem queryUnescape_append (b : UInt8) (cs : List Char) :
    queryUnescape (queryEscapeByte b ++ cs) = (queryUnescape cs).map (b :: ·) := by
  unfold queryEscapeByte
  split_ifs with hspace hun
  · subst hspace
    rw [List.singleton_append, queryUnescape_cons (by decide), if_neg (by decide), if_pos rfl]
  · obtain ⟨hpercent, hplus, hascii, hbyte⟩ := unreserved_char hun
    rw [List.singleton_append, queryUnescape_cons hpercent, if_neg (not_lt.2 hascii), if_neg hplus, hbyte]
  · rw [escapeByte, List.cons_append, List.cons_append, List.cons_append, List.nil_append, queryUnescape, if_pos rfl]
    simp only [pair_upperDigit]
    cases queryUnescape cs <;> rfl

/-- What is escaped is read back. -/
theorem queryUnescape_queryEscape (bs : Bytes) : queryUnescape (queryEscape bs) = some bs := by
  induction bs with
  | nil => rfl
  | cons b bs ih =>
    rw [queryEscape, List.flatMap_cons, queryUnescape_append]
    show Option.map _ (queryUnescape (queryEscape bs)) = _
    rw [ih, Option.map_some]

section Normalize
variable {keep : Char → Bool} {canon : Char → Char}

theorem normalize_cons {c : Char} (h : c ≠ '%') (hkeep : keep c = true) (cs : List Char) :
    normalize keep canon (c :: cs) = canon c :: normalize keep canon cs := by
  conv_lhs => unfold normalize
  simp only [if_neg h, if_pos hkeep]

theorem normalize_append (hkeep : ∀ c, queryChar c = true → c ≠ '%' → keep c = true)
    (hcanon : ∀ c, canon c = c) (b : UInt8) (cs : List Char) :
    normalize keep canon (queryEscapeByte b ++ cs) = queryEscapeByte b ++ normalize keep canon cs := by
  unfold queryEscapeByte
  split_ifs with hspace hun
  · rw [List.singleton_append, normalize_cons (by decide) (hkeep _ (by decide) (by decide)), hcanon,
      List.singleton_append]
  · have hmem : Char.ofNat b.toNat ∈ queryEscape [b] := by
      rw [queryEscape, List.flatMap_singleton, queryEscapeByte, if_neg hspace, if_pos hun]
      exact List.mem_singleton_self _
    have hquery : queryChar (Char.ofNat b.toNat) = true := queryChar_of_mem hmem
    have hpercent := (unreserved_char hun).1
    rw [List.singleton_append, normalize_cons hpercent (hkeep _ hquery hpercent), hcanon, List.singleton_append]
  · rw [escapeByte, List.cons_append, List.cons_append, List.cons_append, List.nil_append, normalize, if_pos rfl]
    simp only [pair_upperDigit, hun]
    rfl

/-- What is escaped is in normal form. -/
theorem normalize_queryEscape (hkeep : ∀ c, queryChar c = true → c ≠ '%' → keep c = true)
    (hcanon : ∀ c, canon c = c) (bs : Bytes) (cs : List Char) :
    normalize keep canon (queryEscape bs ++ cs) = queryEscape bs ++ normalize keep canon cs := by
  induction bs with
  | nil => rfl
  | cons b bs ih =>
    rw [queryEscape, List.flatMap_cons, List.append_assoc, normalize_append hkeep hcanon, List.append_assoc]
    exact congrArg (queryEscapeByte b ++ ·) ih

end Normalize

end DeskSync.Percent
