import Mathlib

/-!
# Character boundaries of UTF-8

The bytes of a `String` are valid UTF-8. `isCharBoundary` reads the byte at an index, and it holds exactly where
the string can be split (`isCharBoundary_iff`); `truncate` panics (`none`) elsewhere. The greatest boundary up to
a limit is the length of the longest prefix of at most so many bytes (`longestPrefix_of_boundary`).
-/

namespace DeskSync.Utf8

variable {s p q : String} {b : UInt8} {i n : ℕ}

/-- `(self as i8) >= -0x40`: not `0b10xxxxxx`. -/
def isUtf8CharBoundary (b : UInt8) : Bool := decide (-0x40 ≤ b.toInt8)

/-- `str::is_char_boundary`. -/
def isCharBoundary (s : String) (index : ℕ) : Bool :=
  if index = 0 then true
  else if h : index < s.utf8ByteSize then isUtf8CharBoundary (s.getUTF8Byte ⟨index⟩ h)
  else index == s.utf8ByteSize

/-! ### Bytes of an encoding -/

/-- No encoding has a byte from `0xf8` on. -/
theorem lt_of_mem_utf8EncodeChar {c : Char} (h : b ∈ String.utf8EncodeChar c) : b.toNat < 0xf8 := by
  simp only [String.utf8EncodeChar] at h
  split_ifs at h <;>
    simp only [List.mem_cons, List.not_mem_nil, or_false] at h <;>
    rcases h with rfl | rfl | rfl | rfl <;>
    rw [UInt8.toNat_ofNat'] <;> omega

theorem getUTF8Byte_lt (h : (⟨i⟩ : String.Pos.Raw) < s.rawEndPos) : (s.getUTF8Byte ⟨i⟩ h).toNat < 0xf8 := by
  obtain ⟨l, rfl⟩ := s.exists_eq_ofList
  have hmem : (String.ofList l).getUTF8Byte ⟨i⟩ h ∈ l.flatMap String.utf8EncodeChar := by
    simp only [String.getUTF8Byte, String.toByteArray_ofList, List.utf8Encode, List.getElem_toByteArray]
    exact List.getElem_mem _
  obtain ⟨c, -, hb⟩ := List.mem_flatMap.1 hmem
  exact lt_of_mem_utf8EncodeChar hb

theorem isUtf8CharBoundary_iff (h : b.toNat < 0xf8) : isUtf8CharBoundary b = true ↔ b.IsUTF8FirstByte := by
  revert b
  decide +kernel

/-! ### Boundaries and prefixes -/

theorem isCharBoundary_iff_isValid : isCharBoundary s i = true ↔ (⟨i⟩ : String.Pos.Raw).IsValid s := by
  unfold isCharBoundary
  split_ifs with hzero hlt
  · subst hzero
    exact iff_of_true rfl (String.Pos.Raw.isValid_iff_exists_append.2 ⟨"", s, by simp, rfl⟩)
  · rw [isUtf8CharBoundary_iff (getUTF8Byte_lt hlt), String.Pos.Raw.isValid_iff_isUTF8FirstByte]
    constructor
    · exact fun h => .inr ⟨hlt, h⟩
    · rintro (heq | ⟨_, h⟩)
      · exact absurd (congrArg String.Pos.Raw.byteIdx heq) hlt.ne
      · exact h
  · rw [beq_iff_eq, String.Pos.Raw.isValid_iff_isUTF8FirstByte]
    constructor
    · exact fun h => .inl (String.Pos.Raw.ext h)
    · rintro (heq | ⟨h, -⟩)
      · exact congrArg String.Pos.Raw.byteIdx heq
      · exact absurd h hlt

/-- The boundaries are the places where the string can be split. -/
theorem isCharBoundary_iff : isCharBoundary s i = true ↔ ∃ p q, s = p ++ q ∧ i = p.utf8ByteSize := by
  rw [isCharBoundary_iff_isValid, String.Pos.Raw.isValid_iff_exists_append]
  simp only [String.Pos.Raw.ext_iff, String.byteIdx_rawEndPos]

theorem isCharBoundary_zero (s : String) : isCharBoundary s 0 = true := rfl

/-- `String::truncate`. -/
def truncate (s : String) (newLen : ℕ) : Option String :=
  if newLen ≤ s.utf8ByteSize then
    if h : isCharBoundary s newLen = true then
      some ⟨s.toByteArray.extract 0 newLen, (isCharBoundary_iff_isValid.1 h).isValidUTF8_extract_zero⟩
    else none
  else some s

theorem truncate_append (p q : String) : truncate (p ++ q) p.utf8ByteSize = some p := by
  have hle : p.utf8ByteSize ≤ (p ++ q).utf8ByteSize := by
    rw [String.utf8ByteSize_append]
    exact Nat.le_add_right _ _
  rw [truncate, if_pos hle, dif_pos (isCharBoundary_iff.2 ⟨p, q, rfl, rfl⟩), Option.some.injEq,
    ← String.toByteArray_inj]
  simp only [String.toByteArray_append]
  exact ByteArray.extract_append_eq_left rfl

/-! ### The longest prefix -/

/-- The longest prefix of at most `limit` bytes. -/
structure LongestPrefix (s : String) (limit : ℕ) (p : String) : Prop where
  split : ∃ q, s = p ++ q
  le : p.utf8ByteSize ≤ limit
  longest : ∀ p' q', s = p' ++ q' → p'.utf8ByteSize ≤ limit → p'.utf8ByteSize ≤ p.utf8ByteSize

theorem longestPrefix_of_boundary (hs : s = p ++ q) (hle : p.utf8ByteSize ≤ n)
    (hmax : ∀ j ≤ n, isCharBoundary s j = true → j ≤ p.utf8ByteSize) : LongestPrefix s n p where
  split := ⟨q, hs⟩
  le := hle
  longest p' q' hs' hle' := hmax _ hle' (isCharBoundary_iff.2 ⟨p', q', hs', rfl⟩)

end DeskSync.Utf8
