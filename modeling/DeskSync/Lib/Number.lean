import Mathlib

/-!
# Machine numbers

The order of `u8` and `u32`, clamping, rounding half away from zero, and the casts of exact fractions to machine
integers.
-/

namespace DeskSync.Number

instance linearOrderUInt32 : LinearOrder UInt32 where
  le_refl _ := UInt32.le_refl _
  le_trans _ _ _ := UInt32.le_trans
  le_antisymm _ _ := UInt32.le_antisymm
  le_total := UInt32.le_total
  lt_iff_le_not_ge a b := by
    rw [UInt32.lt_iff_toNat_lt, UInt32.le_iff_toNat_le, UInt32.le_iff_toNat_le]
    omega
  toDecidableLE := inferInstance

instance linearOrderUInt8 : LinearOrder UInt8 where
  le_refl _ := UInt8.le_refl _
  le_trans _ _ _ := UInt8.le_trans
  le_antisymm _ _ := UInt8.le_antisymm
  le_total := UInt8.le_total
  lt_iff_le_not_ge a b := by
    rw [UInt8.lt_iff_toNat_lt, UInt8.le_iff_toNat_le, UInt8.le_iff_toNat_le]
    omega
  toDecidableLE := inferInstance

/-! ### Clamping -/

section Clamp

variable {α : Type} [LinearOrder α] {lo hi v w : α}

/-- `v.clamp(lo, hi)`. -/
def clamp (lo hi v : α) : α := if v < lo then lo else if hi < v then hi else v

theorem clamp_eq (h : lo ≤ hi) (v : α) : clamp lo hi v = max lo (min v hi) := by
  unfold clamp
  split
  · next hv => rw [min_eq_left (hv.le.trans h), max_eq_left hv.le]
  · next hv =>
    rw [not_lt] at hv
    split
    · next hhi => rw [min_eq_right hhi.le, max_eq_right h]
    · next hhi => rw [min_eq_left (not_lt.1 hhi), max_eq_right hv]

theorem le_clamp (h : lo ≤ hi) (v : α) : lo ≤ clamp lo hi v := by
  rw [clamp_eq h]
  exact le_max_left _ _

theorem clamp_le (h : lo ≤ hi) (v : α) : clamp lo hi v ≤ hi := by
  rw [clamp_eq h]
  exact max_le h (min_le_right _ _)

theorem clamp_mono (h : lo ≤ hi) (hvw : v ≤ w) : clamp lo hi v ≤ clamp lo hi w := by
  rw [clamp_eq h, clamp_eq h]
  exact max_le_max_left _ (min_le_min_right _ hvw)

/-- One more is as good as none where the number does not count. -/
theorem clamp_succ_iff {lo hi n : ℤ} (h : lo ≤ hi) :
    clamp lo hi (n + 1) = clamp lo hi n ↔ n < lo ∨ hi ≤ n := by
  rw [clamp_eq h, clamp_eq h]
  omega

theorem clamp_of_mem (hlo : lo ≤ v) (hhi : v ≤ hi) : clamp lo hi v = v := by
  rw [clamp, if_neg hlo.not_gt, if_neg hhi.not_gt]

end Clamp

/-! ### Rounding -/

/-- To the nearest integer, halves away from zero. -/
def roundAway (q : ℚ) : ℤ := if 0 ≤ q then ⌊q + 1 / 2⌋ else -⌊-q + 1 / 2⌋

theorem roundAway_of_nonneg {q : ℚ} (h : 0 ≤ q) : roundAway q = ⌊q + 1 / 2⌋ := if_pos h

theorem roundAway_mono_of_nonneg {p q : ℚ} (hp : 0 ≤ p) (h : p ≤ q) : roundAway p ≤ roundAway q := by
  rw [roundAway_of_nonneg hp, roundAway_of_nonneg (hp.trans h)]
  exact Int.floor_mono (add_le_add_left h _)

theorem roundAway_nonneg {q : ℚ} (h : 0 ≤ q) : 0 ≤ roundAway q := by
  rw [roundAway_of_nonneg h]
  exact Int.floor_nonneg.2 (by linarith)

theorem roundAway_natCast (n : ℕ) : roundAway n = n := by
  rw [roundAway_of_nonneg (Nat.cast_nonneg n), Int.floor_eq_iff]
  push_cast
  constructor <;> linarith

theorem roundAway_le_of_le {q : ℚ} (h : 0 ≤ q) {n : ℕ} (hn : q ≤ n) : roundAway q ≤ n :=
  (roundAway_mono_of_nonneg h hn).trans_eq (roundAway_natCast n)

/-- Below a half the fraction is dropped, from a half on it makes one more. -/
theorem roundAway_of_fract_lt {q : ℚ} (h : 0 ≤ q) (hf : Int.fract q < 1 / 2) : roundAway q = ⌊q⌋ := by
  have heq := Int.floor_add_fract q
  have hnonneg := Int.fract_nonneg q
  rw [roundAway_of_nonneg h, Int.floor_eq_iff]
  constructor <;> linarith

theorem roundAway_of_le_fract {q : ℚ} (h : 0 ≤ q) (hf : 1 / 2 ≤ Int.fract q) :
    roundAway q = ⌊q⌋ + 1 := by
  have heq := Int.floor_add_fract q
  have hlt := Int.fract_lt_one q
  rw [roundAway_of_nonneg h, Int.floor_eq_iff]
  push_cast
  constructor <;> linarith

/-- `q as u32`: truncated, and saturated at the ends of the type. -/
def asU32 (q : ℚ) : UInt32 := UInt32.ofNat (min ⌊q⌋₊ (UInt32.size - 1))

theorem toNat_asU32 (q : ℚ) : (asU32 q).toNat = min ⌊q⌋₊ (UInt32.size - 1) :=
  UInt32.toNat_ofNat_of_lt' (lt_of_le_of_lt (min_le_right _ _) (by decide))

theorem asU32_mono {p q : ℚ} (h : p ≤ q) : asU32 p ≤ asU32 q := by
  rw [UInt32.le_iff_toNat_le, toNat_asU32, toNat_asU32]
  exact min_le_min_right _ (Nat.floor_mono h)

/-- `q as i32`: towards zero, and saturated at the ends of the type. -/
def asI32 (q : ℚ) : ℤ := clamp (-2 ^ 31) (2 ^ 31 - 1) (if 0 ≤ q then ⌊q⌋ else ⌈q⌉)

end DeskSync.Number
