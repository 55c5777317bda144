import DeskSync.Lib.Utf8

/-!
# Truncated command output

`truncate` of the command runner, which cuts the captured output before it is sent. The backward search stops at
the greatest character boundary up to the limit (`boundaryFrom_spec`), so `String::truncate` does not panic there.
-/

namespace DeskSync.DevTools.Runner

open Utf8

variable {s p : String} {n : ℕ}

/-- Maximum bytes of captured output returned to the client. -/
def MAX_OUTPUT_BYTES : ℕ := 16 * 1024

def suffix : String := "\n… (truncated)"

/-- `while end > 0 && !s.is_char_boundary(end) { end -= 1; }`. -/
def boundaryFrom (s : String) : ℕ → ℕ
  | 0 => 0
  | end' + 1 => if isCharBoundary s (end' + 1) then end' + 1 else boundaryFrom s end'

/-- `none` is a panic of `String::truncate`. -/
def truncate (s : String) : Option String :=
  if MAX_OUTPUT_BYTES < s.utf8ByteSize then do
    -- Truncate on a char boundary at or below the limit.
    let s ← Utf8.truncate s (boundaryFrom s MAX_OUTPUT_BYTES)
    some (s ++ suffix)
  else some s

/-- The search ends at a boundary, and it has passed none. -/
theorem boundaryFrom_spec (s : String) (n : ℕ) :
    boundaryFrom s n ≤ n ∧ isCharBoundary s (boundaryFrom s n) = true ∧
      ∀ j ≤ n, isCharBoundary s j = true → j ≤ boundaryFrom s n := by
  induction n with
  | zero => exact ⟨le_rfl, isCharBoundary_zero s, fun j hj _ => hj⟩
  | succ n ih =>
    obtain ⟨hle, hboundary, hmax⟩ := ih
    rw [boundaryFrom]
    split_ifs with hn
    · exact ⟨le_rfl, hn, fun j hj _ => hj⟩
    · refine ⟨hle.trans n.le_succ, hboundary, fun j hj hb => ?_⟩
      -- `n + 1` itself is no boundary.
      have hne : j ≠ n + 1 := fun heq => hn (heq ▸ hb)
      exact hmax j (by omega) hb

/-- Where the search ends, the string is cut to its longest prefix of at most `n` bytes. -/
theorem truncate_boundaryFrom (s : String) (n : ℕ) :
    ∃ p, LongestPrefix s n p ∧ Utf8.truncate s (boundaryFrom s n) = some p := by
  obtain ⟨hle, hboundary, hmax⟩ := boundaryFrom_spec s n
  obtain ⟨p, q, hs, hp⟩ := isCharBoundary_iff.1 hboundary
  rw [hp] at hle hmax ⊢
  refine ⟨p, longestPrefix_of_boundary hs hle hmax, ?_⟩
  rw [hs]
  exact truncate_append p q

theorem truncate_of_le (h : s.utf8ByteSize ≤ MAX_OUTPUT_BYTES) : truncate s = some s :=
  if_neg (Nat.not_lt.2 h)

theorem truncate_of_lt (h : MAX_OUTPUT_BYTES < s.utf8ByteSize) :
    ∃ p, LongestPrefix s MAX_OUTPUT_BYTES p ∧ truncate s = some (p ++ suffix) := by
  obtain ⟨p, hp, htruncate⟩ := truncate_boundaryFrom s MAX_OUTPUT_BYTES
  exact ⟨p, hp, by rw [truncate, if_pos h, htruncate]; rfl⟩

theorem output_truncated (s : String) :
    (s.utf8ByteSize ≤ MAX_OUTPUT_BYTES → truncate s = some s) ∧
      (MAX_OUTPUT_BYTES < s.utf8ByteSize →
        ∃ p, LongestPrefix s MAX_OUTPUT_BYTES p ∧ truncate s = some (p ++ suffix)) :=
  ⟨truncate_of_le, truncate_of_lt⟩

end DeskSync.DevTools.Runner
