import Mathlib

/-!
# Slices and loops that may panic

`slice` and `copyTo` are indexing by a range: outside the buffer they are `none`. A buffer of blocks of
the length `n` is read block by block; `slice_copyTo_same` and `slice_copyTo_other` say what a copy to a
block leaves of each block. `foldlM_range` is the rule for a loop over a range,
`foldlM_invariant` the one for what a loop keeps if it does not panic.
-/

namespace DeskSync.Slice

variable {α β : Type} {data px px' : List α} {i j n : ℕ}

/-- `&data[i..i + n]`. -/
def slice (data : List α) (i n : ℕ) : Option (List α) :=
  if i + n ≤ data.length then some ((data.drop i).take n) else none

/-- `data[i..i + px.len()].copy_from_slice(px)`. -/
def copyTo (data : List α) (i : ℕ) (px : List α) : Option (List α) :=
  if i + px.length ≤ data.length then some (data.take i ++ px ++ data.drop (i + px.length)) else none

theorem slice_of_le (h : i + n ≤ data.length) : slice data i n = some ((data.drop i).take n) :=
  if_pos h

theorem le_of_slice (h : slice data i n = some px) : i + n ≤ data.length := by
  by_contra hlt
  rw [slice, if_neg hlt] at h
  cases h

theorem length_of_slice (h : slice data i n = some px) : px.length = n := by
  have hle := le_of_slice h
  rw [slice_of_le hle] at h
  rw [← Option.some.inj h, List.length_take, List.length_drop]
  omega

theorem copyTo_of_le (h : i + px.length ≤ data.length) :
    copyTo data i px = some (data.take i ++ px ++ data.drop (i + px.length)) :=
  if_pos h

theorem length_copyTo {data' : List α} (h : copyTo data i px = some data') :
    data'.length = data.length := by
  unfold copyTo at h
  split at h
  · rw [← Option.some.inj h]
    simp only [List.length_append, List.length_take, List.length_drop]
    omega
  · cases h

/-- The block that has been written. -/
theorem slice_copyTo_same {data' : List α} (h : copyTo data i px = some data') (hn : px.length = n) :
    slice data' i n = some px := by
  subst hn
  have hlen := length_copyTo h
  unfold copyTo at h
  split at h
  · next hle =>
    rw [slice_of_le (by omega), ← Option.some.inj h, List.append_assoc,
      List.drop_append_of_le_length (by rw [List.length_take]; omega),
      List.drop_of_length_le (by rw [List.length_take]; omega), List.nil_append,
      List.take_left]
  · cases h

/-- A block beside the one that has been written. -/
theorem slice_copyTo_other {data' : List α} (h : copyTo data i px = some data')
    (hij : j + n ≤ i ∨ i + px.length ≤ j) : slice data' j n = slice data j n := by
  have hlen := length_copyTo h
  unfold slice
  rw [hlen]
  split
  · next hle =>
    unfold copyTo at h
    split at h
    · rw [← Option.some.inj h]
      congr 1
      refine List.ext_getElem? fun k => ?_
      simp only [List.getElem?_take, List.getElem?_drop, List.append_assoc, List.getElem?_append,
        List.length_take]
      grind
    · cases h
  · rfl

/-- A loop over a range: an assertion about the passes made so far holds after all of them. -/
theorem foldlM_range {f : β → ℕ → Option β} {P : ℕ → β → Prop} {b : β}
    (hstep : ∀ i b, i < n → P i b → ∃ b', f b i = some b' ∧ P (i + 1) b') (hb : P 0 b) :
    ∃ b', (List.range n).foldlM f b = some b' ∧ P n b' := by
  induction n with
  | zero => exact ⟨b, rfl, hb⟩
  | succ n ih =>
    obtain ⟨b', hb', hP⟩ := ih fun i b hi => hstep i b (Nat.lt_succ_of_lt hi)
    obtain ⟨b'', hb'', hP'⟩ := hstep n b' (Nat.lt_succ_self n) hP
    refine ⟨b'', ?_, hP'⟩
    rw [List.range_succ, List.foldlM_append, hb']
    show (List.foldlM f b' [n]) = some b''
    rw [List.foldlM_cons, hb'']
    rfl

/-- What every pass that does not panic keeps holds after the loop. -/
theorem foldlM_invariant {f : β → ℕ → Option β} {P : β → Prop} {l : List ℕ} {b b' : β}
    (h : l.foldlM f b = some b') (hstep : ∀ i b b', f b i = some b' → P b → P b') (hb : P b) : P b' := by
  induction l generalizing b with
  | nil =>
    cases h
    exact hb
  | cons i l ih =>
    rw [List.foldlM_cons] at h
    obtain ⟨b'', hb'', hrest⟩ := Option.bind_eq_some_iff.1 h
    exact ih hrest (hstep i b b'' hb'' hb)

end DeskSync.Slice
