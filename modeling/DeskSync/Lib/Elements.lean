import Mathlib

/-!
# One element of a list more, or another one

Where an element of a list comes from after one place has been set or changed, or one element has been added
at the end, and how many elements satisfy a predicate then.
-/

namespace DeskSync.Elements

variable {α : Type} {l : List α} {a b : α} {f : α → α} {p : α → Bool} {i j : ℕ}

theorem set_cases (h : (l.set i a)[j]? = some b) : i = j ∧ b = a ∨ i ≠ j ∧ l[j]? = some b := by
  by_cases hij : i = j
  · subst hij
    rw [List.getElem?_set_self'] at h
    obtain ⟨_, -, rfl⟩ := Option.map_eq_some_iff.1 h
    exact .inl ⟨rfl, rfl⟩
  · rw [List.getElem?_set_ne hij] at h
    exact .inr ⟨hij, h⟩

theorem getElem?_modify_eq_some (h : (l.modify i f)[j]? = some b) :
    ∃ a, l[j]? = some a ∧ b = if i = j then f a else a := by
  rw [List.getElem?_modify] at h
  obtain ⟨a, ha, rfl⟩ := Option.map_eq_some_iff.1 h
  exact ⟨a, ha, by split <;> rfl⟩

theorem getElem?_modify_of_some (f : α → α) (h : l[j]? = some a) :
    (l.modify i f)[j]? = some (if i = j then f a else a) := by
  rw [List.getElem?_modify, h]
  split <;> rfl

theorem getElem?_concat_of_some (b : α) (h : l[i]? = some a) : (l ++ [b])[i]? = some a := by
  rwa [List.getElem?_append_left (List.getElem?_eq_some_iff.1 h).1]

theorem getElem?_concat_cases (h : (l ++ [b])[i]? = some a) : l[i]? = some a ∨ i = l.length ∧ a = b := by
  rcases Nat.lt_trichotomy i l.length with hi | hi | hi
  · rw [List.getElem?_append_left hi] at h
    exact .inl h
  · subst hi
    rw [List.getElem?_concat_length] at h
    exact .inr ⟨rfl, (Option.some.inj h).symm⟩
  · rw [List.getElem?_eq_none (by rw [List.length_append, List.length_singleton]; omega)] at h
    cases h

/-! ### Counting -/

theorem countP_set (h : l[i]? = some a) :
    (l.set i b).countP p + (if p a then 1 else 0) = l.countP p + if p b then 1 else 0 := by
  obtain ⟨hlt, rfl⟩ := List.getElem?_eq_some_iff.1 h
  rw [(List.set_perm_cons_eraseIdx hlt b).countP_eq p, ← (List.getElem_cons_eraseIdx_perm hlt).countP_eq p,
    List.countP_cons, List.countP_cons]
  omega

theorem countP_modify_le (h : ∀ a, l[i]? = some a → p (f a) = true → p a = true) :
    (l.modify i f).countP p ≤ l.countP p := by
  cases hi : l[i]? with
  | none => rw [List.modify_eq_self (List.getElem?_eq_none_iff.1 hi)]
  | some a =>
    have hcount := countP_set (b := f a) (p := p) hi
    have hkeep := h a hi
    rw [List.modify_eq_set_getElem?, hi, Option.map_eq_map, Option.map_some, Option.getD_some]
    split_ifs at hcount with ha hfa hfa
    · omega
    · omega
    · exact absurd (hkeep hfa) ha
    · omega

/-- One place, and the others. -/
theorem any_set (h : i < l.length) : (l.set i a).any p = (p a || (l.eraseIdx i).any p) := by
  rw [(List.set_perm_cons_eraseIdx h a).any_eq, List.any_cons]

theorem any_eraseIdx (h : l[i]? = some a) : l.any p = (p a || (l.eraseIdx i).any p) := by
  obtain ⟨hlt, rfl⟩ := List.getElem?_eq_some_iff.1 h
  rw [← any_set hlt, List.set_getElem_self]

end DeskSync.Elements
