import Mathlib

/-!
# Byte strings, counters and chunks

`beBytes w n` are the `w` big-endian bytes of a number and `beNat` reads them back;
`beNat_beBytes` is the round trip. `leBytes` and `leNat` are the same in little-endian order.
`chunks n l` cuts a list into pieces of `n` entries, of which only the last may be shorter;
`flatten_chunks` puts them together again. `sublist_of_subset` is the order fact behind in-order delivery: a
list that climbs strictly through the entries of a list that climbs weakly is a sublist of it.
-/

namespace DeskSync

abbrev Bytes := List UInt8

/-- The `w` big-endian bytes of `n`; what does not fit is dropped. -/
def beBytes : ℕ → ℕ → Bytes
  | 0, _ => []
  | w + 1, n => beBytes w (n / 256) ++ [UInt8.ofNat n]

/-- The number with the given big-endian bytes. -/
def beNat (bs : Bytes) : ℕ := bs.foldl (fun n b => n * 256 + b.toNat) 0

@[simp] theorem length_beBytes (w n : ℕ) : (beBytes w n).length = w := by
  induction w generalizing n with
  | zero => rfl
  | succ w ih => rw [beBytes, List.length_append, ih, List.length_singleton]

theorem beNat_concat (bs : Bytes) (b : UInt8) : beNat (bs ++ [b]) = beNat bs * 256 + b.toNat := by
  rw [beNat, List.foldl_append]
  rfl

theorem beNat_beBytes (w n : ℕ) : beNat (beBytes w n) = n % 256 ^ w := by
  induction w generalizing n with
  | zero => rw [pow_zero, Nat.mod_one]; rfl
  | succ w ih =>
    rw [beBytes, beNat_concat, ih, UInt8.toNat_ofNat', pow_succ' 256 w, Nat.mod_mul]
    omega

theorem beNat_beBytes_of_lt {w n : ℕ} (h : n < 256 ^ w) : beNat (beBytes w n) = n := by
  rw [beNat_beBytes, Nat.mod_eq_of_lt h]

theorem beBytes_inj {w n m : ℕ} (hn : n < 256 ^ w) (hm : m < 256 ^ w)
    (h : beBytes w n = beBytes w m) : n = m := by
  rw [← beNat_beBytes_of_lt hn, h, beNat_beBytes_of_lt hm]

/-! ### Little-endian numbers -/

/-- The `w` little-endian bytes of `n`; what does not fit is dropped. -/
def leBytes (w n : ℕ) : Bytes := (beBytes w n).reverse

/-- The number with the given little-endian bytes. -/
def leNat (bs : Bytes) : ℕ := beNat bs.reverse

@[simp] theorem length_leBytes (w n : ℕ) : (leBytes w n).length = w := by
  rw [leBytes, List.length_reverse, length_beBytes]

theorem leNat_leBytes_of_lt {w n : ℕ} (h : n < 256 ^ w) : leNat (leBytes w n) = n := by
  rw [leNat, leBytes, List.reverse_reverse, beNat_beBytes_of_lt h]

/-! ### Chunks -/

section Chunks
variable {α : Type} {n : ℕ}

/-- The pieces of `n` entries a list falls into. -/
def chunks (n : ℕ) (l : List α) : List (List α) :=
  (List.range (l.length ⌈/⌉ n)).map fun i => (l.drop (i * n)).take n

@[simp] theorem length_chunks (n : ℕ) (l : List α) : (chunks n l).length = l.length ⌈/⌉ n := by
  rw [chunks, List.length_map, List.length_range]

theorem length_le_of_mem_chunks {l c : List α} (h : c ∈ chunks n l) : c.length ≤ n := by
  obtain ⟨i, -, rfl⟩ := List.mem_map.1 h
  exact List.length_take_le _ _

theorem chunks_ne_nil (hn : 0 < n) {l : List α} (hl : l ≠ []) : chunks n l ≠ [] := by
  rw [← List.length_pos_iff, length_chunks]
  have hlen : 0 < l.length := List.length_pos_iff.2 hl
  rw [Nat.ceilDiv_eq_add_pred_div]
  exact Nat.div_pos (by omega) hn

/-- The first `k` pieces are the first `k * n` entries. -/
theorem flatten_take_drop (l : List α) (k : ℕ) :
    ((List.range k).map fun i => (l.drop (i * n)).take n).flatten = l.take (k * n) := by
  induction k with
  | zero => simp
  | succ k ih =>
    rw [List.range_succ, List.map_append, List.flatten_append, ih, Nat.succ_mul, List.take_add]
    simp

theorem flatten_chunks (hn : 0 < n) (l : List α) : (chunks n l).flatten = l := by
  rw [chunks, flatten_take_drop]
  refine List.take_of_length_le ?_
  have h : l.length ≤ n * (l.length ⌈/⌉ n) := le_smul_ceilDiv hn
  rwa [Nat.mul_comm] at h

end Chunks

/-! ### In-order sublists -/

/-- A list with strictly increasing keys, all of whose entries are in a list with increasing keys, is a
sublist of it. -/
theorem sublist_of_subset {α κ : Type} [LinearOrder κ] (key : α → κ) {xs ys : List α}
    (hxs : xs.Pairwise fun x x' => key x < key x') (hys : ys.Pairwise fun y y' => key y ≤ key y')
    (hsub : ∀ x ∈ xs, x ∈ ys) : xs.Sublist ys := by
  induction ys generalizing xs with
  | nil =>
    rw [List.eq_nil_iff_forall_not_mem.2 fun x hx => List.not_mem_nil (hsub x hx)]
  | cons y ys ih =>
    obtain ⟨hy, hys'⟩ := List.pairwise_cons.1 hys
    cases xs with
    | nil => exact List.nil_sublist _
    | cons x xs =>
      obtain ⟨hx, hxs'⟩ := List.pairwise_cons.1 hxs
      by_cases hxy : x = y
      · subst hxy
        refine (ih hxs' hys' fun x' hx' => ?_).cons_cons x
        rcases List.mem_cons.1 (hsub x' (List.mem_cons_of_mem _ hx')) with rfl | h
        · exact absurd (hx _ hx') (lt_irrefl _)
        · exact h
      · refine (ih hxs hys' fun x' hx' => ?_).cons y
        have hxmem : x ∈ ys := (List.mem_cons.1 (hsub x List.mem_cons_self)).resolve_left hxy
        rcases List.mem_cons.1 hx' with rfl | hx'
        · exact hxmem
        · refine (List.mem_cons.1 (hsub x' (List.mem_cons_of_mem _ hx'))).resolve_left ?_
          rintro rfl
          exact absurd (hx _ hx') (not_lt.2 (hy x hxmem))

end DeskSync
