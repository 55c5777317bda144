import DeskSync.Lib.Number
import DeskSync.Lib.Slice

/-!
# Scaling a captured frame

`capture/src/frame.rs`. Indexing outside a buffer panics, which is `none`. `usize` arithmetic is that of a
64-bit release build, which wraps; below only the multiplications by 4 can. The floating-point product in
`fit_dimensions` is a parameter; `exactScaled` is its value in exact arithmetic.

`downscaled_iff`: a frame with `is_valid`, both sides and the cap at least 2, is scaled down as it should
be if and only if the length of its buffer is its number of pixels times 4 without wrapping.
-/

namespace DeskSync.Media

open Number Slice

/-! ### Frames -/

structure Frame where
  width : UInt32
  height : UInt32
  timestampUs : UInt64
  data : List UInt8
  deriving DecidableEq

/-- The result of a `usize` operation. -/
def usize (n : ℕ) : ℕ := n % 2 ^ 64

theorem usize_of_lt {n : ℕ} (h : n < 2 ^ 64) : usize n = n := Nat.mod_eq_of_lt h

namespace Frame

def pixelCount (f : Frame) : ℕ := f.width.toNat * f.height.toNat

def expectedLen (f : Frame) : ℕ := usize (f.pixelCount * 4)

def isValid (f : Frame) : Bool := f.data.length == f.expectedLen

/-- The four bytes of a pixel. -/
def pixel (f : Frame) (x y : ℕ) : Option (List UInt8) := slice f.data ((y * f.width.toNat + x) * 4) 4

theorem isValid_iff {f : Frame} : f.isValid ↔ f.data.length = usize (f.pixelCount * 4) := beq_iff_eq

end Frame

/-! ### Scaling -/

def makeEven (v : UInt32) : UInt32 := max (v &&& ~~~(1 : UInt32)) 2

/-- `(f64::from(src_w) * (f64::from(max_h) / f64::from(src_h))).round() as u32`. -/
abbrev Scaled := UInt32 → UInt32 → UInt32 → UInt32

/-- In exact arithmetic. -/
def exactScaled : Scaled := fun srcW srcH maxH =>
  asU32 (roundAway (srcW.toNat * ((maxH.toNat : ℚ) / srcH.toNat)))

def fitDimensions (scaled : Scaled) (srcW srcH maxH : UInt32) : UInt32 × UInt32 :=
  if srcW = 0 ∨ srcH = 0 then (2, 2)
  else if srcH ≤ maxH then (makeEven srcW, makeEven srcH)
  else (makeEven (scaled srcW srcH maxH), makeEven maxH)

/-- One pass of the inner loop. -/
def copyPixel (src : Frame) (dw dh dy : ℕ) (data : List UInt8) (dx : ℕ) : Option (List UInt8) := do
  let sw := src.width.toNat
  let sh := src.height.toNat
  let sy := dy * sh / dh
  let sx := dx * sw / dw
  let si := usize ((sy * sw + sx) * 4)
  let di := usize ((dy * dw + dx) * 4)
  let px ← slice src.data si 4
  copyTo data di px

/-- The inner loop. -/
def copyRow (src : Frame) (dw dh : ℕ) (data : List UInt8) (dy : ℕ) : Option (List UInt8) :=
  (List.range dw).foldlM (copyPixel src dw dh dy) data

def scaleBgraNearest (src : Frame) (dstW dstH : UInt32) : Option Frame := do
  let dstW := max dstW 1
  let dstH := max dstH 1
  if src.width = dstW ∧ src.height = dstH then some src
  else
    let zeros := List.replicate (usize (dstW.toNat * dstH.toNat * 4)) 0
    let data ← (List.range dstH.toNat).foldlM (copyRow src dstW.toNat dstH.toNat) zeros
    some { width := dstW, height := dstH, timestampUs := src.timestampUs, data }

def downscaleToMaxHeight (scaled : Scaled) (frame : Frame) (maxH : UInt32) : Option Frame :=
  let (w, h) := fitDimensions scaled frame.width frame.height maxH
  if w = frame.width ∧ h = frame.height then some frame else scaleBgraNearest frame w h

/-! ### Even sides -/

/-- The mask `!1` on a 32-bit number. -/
theorem land_mask {n : ℕ} (h : n < 2 ^ 32) : n &&& 4294967294 = n / 2 * 2 := by
  have hshift : n &&& 4294967294 = (n / 2) <<< 1 := by
    refine Nat.eq_of_testBit_eq fun i => ?_
    rw [Nat.testBit_and, Nat.testBit_shiftLeft, Nat.testBit_div_two,
      show (4294967294 : ℕ) = (2 ^ 31 - 1) <<< 1 by decide, Nat.testBit_shiftLeft,
      Nat.testBit_two_pow_sub_one]
    by_cases hi : 1 ≤ i
    · by_cases h31 : i - 1 < 31
      · simp [hi, h31, Nat.sub_add_cancel hi]
      · have hpow : 2 ^ 32 ≤ 2 ^ i := Nat.pow_le_pow_right (by decide) (by omega)
        have hbit : n.testBit i = false := Nat.testBit_eq_false_of_lt (lt_of_lt_of_le h hpow)
        simp [hi, hbit, Nat.sub_add_cancel hi]
    · simp [hi]
  rw [hshift, Nat.shiftLeft_eq, pow_one]

theorem toNat_max (a b : UInt32) : (max a b).toNat = max a.toNat b.toNat := by
  rcases le_total a b with h | h
  · rw [max_eq_right h, max_eq_right (UInt32.le_iff_toNat_le.1 h)]
  · rw [max_eq_left h, max_eq_left (UInt32.le_iff_toNat_le.1 h)]

theorem toNat_makeEven (v : UInt32) : (makeEven v).toNat = max (v.toNat / 2 * 2) 2 := by
  have hmask : (v &&& ~~~(1 : UInt32)).toNat = v.toNat / 2 * 2 :=
    (UInt32.toNat_and v _).trans (land_mask v.toNat_lt)
  rw [makeEven, toNat_max, hmask]
  rfl

theorem makeEven_even (v : UInt32) : (makeEven v).toNat % 2 = 0 := by
  rw [toNat_makeEven]
  omega

theorem two_le_makeEven (v : UInt32) : 2 ≤ (makeEven v).toNat := by
  rw [toNat_makeEven]
  exact le_max_right _ _

theorem makeEven_le {v : UInt32} (h : 2 ≤ v.toNat) : (makeEven v).toNat ≤ v.toNat := by
  rw [toNat_makeEven]
  omega

theorem makeEven_of_even {v : UInt32} (h : 2 ≤ v.toNat) (heven : v.toNat % 2 = 0) : makeEven v = v := by
  rw [← UInt32.toNat_inj, toNat_makeEven]
  omega

theorem max_one {v : UInt32} (h : 2 ≤ v.toNat) : max v 1 = v :=
  max_eq_left (UInt32.le_iff_toNat_le.2 (le_trans (by decide) h))

/-! ### The loops -/

section Loops

variable {src : Frame} {dw dh : ℕ}

/-- The source pixel of a pixel of the destination. -/
def sourcePixel (src : Frame) (dw dh x y : ℕ) : Option (List UInt8) :=
  src.pixel (x * src.width.toNat / dw) (y * src.height.toNat / dh)

/-- A buffer of the destination whose rows before `dy`, and whose pixels before `dx` in row `dy`, have
been copied. -/
structure Copied (src : Frame) (dw dh dy dx : ℕ) (data : List UInt8) : Prop where
  length : data.length = dw * dh * 4
  pixels : ∀ x y, x < dw → y < dy ∨ y = dy ∧ x < dx →
    ∃ px, slice data ((y * dw + x) * 4) 4 = some px ∧ sourcePixel src dw dh x y = some px

theorem index_lt {x y : ℕ} (hx : x < dw) (hy : y < dh) : y * dw + x < dw * dh := by
  have hrow : (y + 1) * dw ≤ dh * dw := Nat.mul_le_mul_right dw hy
  rw [add_mul, one_mul] at hrow
  rw [mul_comm dw dh]
  omega

theorem index_inj {x y x' y' : ℕ} (hx : x < dw) (hx' : x' < dw) (h : y * dw + x = y' * dw + x') :
    y = y' ∧ x = x' := by
  have hxx : x = x' := by
    rw [← Nat.mul_add_mod_of_lt (a := y) hx, h, Nat.mul_add_mod_of_lt hx']
  rw [hxx] at h
  exact ⟨Nat.eq_of_mul_eq_mul_right (by omega) (Nat.add_right_cancel h), hxx⟩

/-- The source index stays inside the source. -/
theorem scaled_lt {x n d : ℕ} (hx : x < d) (hn : 0 < n) : x * n / d < n := by
  rw [Nat.div_lt_iff_lt_mul (by omega), mul_comm n d]
  exact Nat.mul_lt_mul_of_pos_right hx hn

theorem exists_sourcePixel (hlen : src.data.length = src.pixelCount * 4) (hw : 0 < src.width.toNat)
    (hh : 0 < src.height.toNat) {x y : ℕ} (hx : x < dw) (hy : y < dh) :
    ∃ px, sourcePixel src dw dh x y = some px ∧ px.length = 4 := by
  have hlt := index_lt (scaled_lt hx hw) (scaled_lt hy hh)
  have hslice : sourcePixel src dw dh x y = some _ := slice_of_le (by
    rw [hlen, Frame.pixelCount]
    omega)
  exact ⟨_, hslice, length_of_slice hslice⟩

theorem Copied.copyPixel {dy dx : ℕ} {data : List UInt8} (h : Copied src dw dh dy dx data)
    (hlen : src.data.length = src.pixelCount * 4) (hlt : src.pixelCount * 4 < 2 ^ 64)
    (hle : dw * dh ≤ src.pixelCount) (hw : 0 < src.width.toNat) (hh : 0 < src.height.toNat)
    (hdx : dx < dw) (hdy : dy < dh) :
    ∃ data', Media.copyPixel src dw dh dy data dx = some data' ∧
      Copied src dw dh dy (dx + 1) data' := by
  have hsrc := index_lt (scaled_lt hdx hw) (scaled_lt hdy hh)
  have hdst := index_lt hdx hdy
  obtain ⟨px, hpx, hpx4⟩ := exists_sourcePixel hlen hw hh hdx hdy
  have hcopy : copyTo data ((dy * dw + dx) * 4) px = some _ := copyTo_of_le (by
    rw [h.length]
    omega)
  rw [Frame.pixelCount] at hlt hle
  have hsi := usize_of_lt (n := (dy * src.height.toNat / dh * src.width.toNat +
    dx * src.width.toNat / dw) * 4) (by omega)
  have hdi := usize_of_lt (n := (dy * dw + dx) * 4) (by omega)
  refine ⟨_, ?_, (length_copyTo hcopy).trans h.length, fun x y hx hxy => ?_⟩
  · unfold Media.copyPixel
    simp only [hsi, hdi]
    exact (congrArg (· >>= _) hpx).trans hcopy
  · by_cases hsame : y * dw + x = dy * dw + dx
    · obtain ⟨rfl, rfl⟩ := index_inj hx hdx hsame
      exact ⟨px, slice_copyTo_same hcopy hpx4, hpx⟩
    · rw [slice_copyTo_other hcopy (by rw [hpx4]; omega)]
      refine h.pixels x y hx (hxy.imp_right fun hxy => ⟨hxy.1, ?_⟩)
      have hne : x ≠ dx := fun heq => hsame (by rw [hxy.1, heq])
      omega

theorem Copied.nextRow {dy : ℕ} {data : List UInt8} (h : Copied src dw dh dy dw data) :
    Copied src dw dh (dy + 1) 0 data where
  length := h.length
  pixels x y hx hxy := h.pixels x y hx (by omega)

theorem copied_zeros (n : ℕ) (hn : n = dw * dh * 4) : Copied src dw dh 0 0 (List.replicate n 0) where
  length := by rw [List.length_replicate, hn]
  pixels x y hx hxy := by omega

/-- The destination is filled with the source pixels. -/
theorem exists_scaled (hlen : src.data.length = src.pixelCount * 4)
    (hlt : src.pixelCount * 4 < 2 ^ 64) (hle : dw * dh ≤ src.pixelCount)
    (hw : 0 < src.width.toNat) (hh : 0 < src.height.toNat) :
    ∃ data, (List.range dh).foldlM (copyRow src dw dh)
        (List.replicate (usize (dw * dh * 4)) 0) = some data ∧ Copied src dw dh dh 0 data := by
  refine foldlM_range (P := fun dy data => Copied src dw dh dy 0 data) ?_
    (copied_zeros _ (usize_of_lt (by omega)))
  intro dy data hdy hdata
  obtain ⟨data', hrow, hdata'⟩ := foldlM_range (f := copyPixel src dw dh dy)
    (P := fun dx data => Copied src dw dh dy dx data)
    (fun dx data hdx h => h.copyPixel hlen hlt hle hw hh hdx hdy) hdata
  exact ⟨data', hrow, hdata'.nextRow⟩

end Loops

/-! ### Dimensions -/

/-- In exact arithmetic the width is not scaled up. -/
theorem exactScaled_le (srcW : UInt32) {srcH maxH : UInt32} (h : maxH ≤ srcH) :
    (exactScaled srcW srcH maxH).toNat ≤ srcW.toNat := by
  have hle : maxH.toNat ≤ srcH.toNat := UInt32.le_iff_toNat_le.1 h
  have hratio : (maxH.toNat : ℚ) / srcH.toNat ≤ 1 :=
    div_le_one_of_le₀ (Nat.cast_le.2 hle) (Nat.cast_nonneg _)
  have hscale : (srcW.toNat : ℚ) * ((maxH.toNat : ℚ) / srcH.toNat) ≤ srcW.toNat :=
    mul_le_of_le_one_right (Nat.cast_nonneg _) hratio
  have hround := roundAway_le_of_le (by positivity) hscale
  rw [exactScaled, toNat_asU32]
  exact (min_le_left _ _).trans (Nat.floor_le_of_le (by exact_mod_cast hround))

/-- What the dimensions are fitted to. -/
structure Fitted (srcW srcH maxH w h : UInt32) : Prop where
  evenWidth : w.toNat % 2 = 0
  evenHeight : h.toNat % 2 = 0
  two_le_width : 2 ≤ w.toNat
  two_le_height : 2 ≤ h.toNat
  width_le : w.toNat ≤ srcW.toNat
  height_le : h.toNat ≤ srcH.toNat
  capped : h.toNat ≤ maxH.toNat
  unchanged : srcW.toNat % 2 = 0 → srcH.toNat % 2 = 0 → srcH ≤ maxH → w = srcW ∧ h = srcH

theorem fitDimensions_fitted {srcW srcH maxH : UInt32} (hw : 2 ≤ srcW.toNat) (hh : 2 ≤ srcH.toNat)
    (hmax : 2 ≤ maxH.toNat) :
    Fitted srcW srcH maxH (fitDimensions exactScaled srcW srcH maxH).1
      (fitDimensions exactScaled srcW srcH maxH).2 := by
  have hpos : ¬(srcW = 0 ∨ srcH = 0) := by
    rintro (rfl | rfl)
    · exact absurd hw (by decide)
    · exact absurd hh (by decide)
  rw [fitDimensions, if_neg hpos]
  by_cases hcap : srcH ≤ maxH
  · rw [if_pos hcap]
    exact {
      evenWidth := makeEven_even _
      evenHeight := makeEven_even _
      two_le_width := two_le_makeEven _
      two_le_height := two_le_makeEven _
      width_le := makeEven_le hw
      height_le := makeEven_le hh
      capped := (makeEven_le hh).trans (UInt32.le_iff_toNat_le.1 hcap)
      unchanged := fun hew heh _ => ⟨makeEven_of_even hw hew, makeEven_of_even hh heh⟩ }
  · rw [if_neg hcap]
    have hlt : maxH ≤ srcH := (not_le.1 hcap).le
    have hwidth := exactScaled_le srcW hlt
    exact {
      evenWidth := makeEven_even _
      evenHeight := makeEven_even _
      two_le_width := two_le_makeEven _
      two_le_height := two_le_makeEven _
      width_le := by
        show (makeEven _).toNat ≤ _
        rw [toNat_makeEven]
        omega
      height_le := (makeEven_le hmax).trans (UInt32.le_iff_toNat_le.1 hlt)
      capped := makeEven_le hmax
      unchanged := fun _ _ hle => absurd hle hcap }

/-! ### Downscaling -/

/-- What a frame is scaled down to. -/
structure Downscaled (frame : Frame) (maxH : UInt32) (out : Frame) : Prop where
  valid : out.isValid
  timestamp : out.timestampUs = frame.timestampUs
  even : out.width.toNat % 2 = 0 ∧ out.height.toNat % 2 = 0
  smaller : out.width ≤ frame.width ∧ out.height ≤ frame.height
  capped : out.height ≤ maxH
  pixels : ∀ x y, x < out.width.toNat → y < out.height.toNat → ∃ px, out.pixel x y = some px ∧
    frame.pixel (x * frame.width.toNat / out.width.toNat) (y * frame.height.toNat / out.height.toNat) =
      some px
  unchanged : frame.width.toNat % 2 = 0 → frame.height.toNat % 2 = 0 → frame.height ≤ maxH → out = frame

variable {frame : Frame} {maxH : UInt32}

theorem fitted_mul_le {srcW srcH w h : UInt32} (hf : Fitted srcW srcH maxH w h) :
    w.toNat * h.toNat ≤ srcW.toNat * srcH.toNat :=
  Nat.mul_le_mul hf.width_le hf.height_le

theorem two_le_fitDimensions (scaled : Scaled) (srcW srcH maxH : UInt32) :
    2 ≤ (fitDimensions scaled srcW srcH maxH).1.toNat ∧
      2 ≤ (fitDimensions scaled srcW srcH maxH).2.toNat := by
  unfold fitDimensions
  split
  · exact ⟨le_refl 2, le_refl 2⟩
  · split
    · exact ⟨two_le_makeEven _, two_le_makeEven _⟩
    · exact ⟨two_le_makeEven _, two_le_makeEven _⟩

/-- What is returned has the dimensions the source is fitted to. -/
theorem downscale_dims {scaled : Scaled} {out : Frame}
    (h : downscaleToMaxHeight scaled frame maxH = some out) :
    out.width = (fitDimensions scaled frame.width frame.height maxH).1 ∧
      out.height = (fitDimensions scaled frame.width frame.height maxH).2 := by
  have htwo := two_le_fitDimensions scaled frame.width frame.height maxH
  unfold downscaleToMaxHeight at h
  generalize fitDimensions scaled frame.width frame.height maxH = dims at h htwo ⊢
  obtain ⟨w', h'⟩ := dims
  simp only at h htwo ⊢
  split at h
  · next hsame =>
    rw [← Option.some.inj h]
    exact ⟨hsame.1.symm, hsame.2.symm⟩
  · next hsame =>
    unfold scaleBgraNearest at h
    rw [max_one htwo.1, max_one htwo.2] at h
    simp only at h
    rw [if_neg (fun heq => hsame ⟨heq.1.symm, heq.2.symm⟩)] at h
    obtain ⟨data, -, hout⟩ := Option.bind_eq_some_iff.1 h
    rw [← Option.some.inj hout]
    exact ⟨rfl, rfl⟩

/-- A frame that is long enough is scaled down as it should be. -/
theorem exists_downscaled (hvalid : frame.isValid) (hw : 2 ≤ frame.width.toNat)
    (hh : 2 ≤ frame.height.toNat) (hmax : 2 ≤ maxH.toNat) (hlt : frame.pixelCount * 4 < 2 ^ 64) :
    ∃ out, downscaleToMaxHeight exactScaled frame maxH = some out ∧ Downscaled frame maxH out := by
  have hlen : frame.data.length = frame.pixelCount * 4 := by
    rw [Frame.isValid_iff.1 hvalid, usize_of_lt hlt]
  have hf := fitDimensions_fitted hw hh hmax
  unfold downscaleToMaxHeight
  generalize fitDimensions exactScaled frame.width frame.height maxH = dims at hf ⊢
  obtain ⟨w, h⟩ := dims
  have hle : w.toNat * h.toNat ≤ frame.pixelCount := fitted_mul_le hf
  by_cases hsame : w = frame.width ∧ h = frame.height
  · obtain ⟨rfl, rfl⟩ := hsame
    refine ⟨frame, if_pos ⟨rfl, rfl⟩, ?_⟩
    exact {
      valid := hvalid
      timestamp := rfl
      even := ⟨hf.evenWidth, hf.evenHeight⟩
      smaller := ⟨le_rfl, le_rfl⟩
      capped := UInt32.le_iff_toNat_le.2 hf.capped
      pixels := by
        intro x y hx hy
        have hpos := hf.two_le_width
        obtain ⟨px, hpx, -⟩ := exists_sourcePixel hlen (by omega) (by omega) hx hy
        rw [sourcePixel] at hpx
        refine ⟨px, ?_, hpx⟩
        rwa [Nat.mul_div_cancel _ (by omega), Nat.mul_div_cancel _ (by omega)] at hpx
      unchanged := fun _ _ _ => rfl }
  · obtain ⟨data, hdata, hcopied⟩ := exists_scaled hlen hlt hle (by omega) (by omega)
    have hscale : scaleBgraNearest frame w h =
        some { width := w, height := h, timestampUs := frame.timestampUs, data } := by
      unfold scaleBgraNearest
      rw [max_one hf.two_le_width, max_one hf.two_le_height]
      simp only
      rw [if_neg (fun heq => hsame ⟨heq.1.symm, heq.2.symm⟩), hdata]
      rfl
    refine ⟨_, (if_neg hsame).trans hscale, ?_⟩
    exact {
      valid := by
        rw [Frame.isValid_iff, Frame.pixelCount]
        show data.length = usize (w.toNat * h.toNat * 4)
        rw [usize_of_lt (by omega), hcopied.length]
      timestamp := rfl
      even := ⟨hf.evenWidth, hf.evenHeight⟩
      smaller := ⟨UInt32.le_iff_toNat_le.2 hf.width_le, UInt32.le_iff_toNat_le.2 hf.height_le⟩
      capped := UInt32.le_iff_toNat_le.2 hf.capped
      pixels := fun x y hx hy => hcopied.pixels x y hx (.inl hy)
      unchanged := fun hew heh hcap => absurd (hf.unchanged hew heh hcap) hsame }

/-- The last source pixel that is read lies in the second half of the source. -/
theorem last_index {w h dw dh : ℕ} (hw : 2 ≤ dw) (hh : 2 ≤ dh) :
    w * h * 4 + 4 ≤ 2 * (((dh - 1) * h / dh * w + (dw - 1) * w / dw) * 4 + 4) := by
  have hhalf {n d : ℕ} (hd : 2 ≤ d) : n / 2 ≤ (d - 1) * n / d := by
    rw [Nat.le_div_iff_mul_le (by omega)]
    have h2 : n / 2 * d ≤ n / 2 * (2 * (d - 1)) := Nat.mul_le_mul_left _ (by omega)
    have h3 : n / 2 * 2 * (d - 1) ≤ n * (d - 1) := Nat.mul_le_mul_right _ (Nat.div_mul_le_self n 2)
    calc n / 2 * d ≤ n / 2 * (2 * (d - 1)) := h2
      _ = n / 2 * 2 * (d - 1) := by rw [mul_assoc]
      _ ≤ n * (d - 1) := h3
      _ = (d - 1) * n := mul_comm _ _
  have hrow : h / 2 * w ≤ (dh - 1) * h / dh * w := Nat.mul_le_mul_right _ (hhalf hh)
  have hcol := hhalf (n := w) hw
  have htwo : h * w ≤ 2 * (h / 2 * w) + w := by
    have hodd : h ≤ 2 * (h / 2) + 1 := by omega
    calc h * w ≤ (2 * (h / 2) + 1) * w := Nat.mul_le_mul_right _ hodd
      _ = 2 * (h / 2 * w) + w := by ring
  rw [mul_comm w h]
  omega

theorem wraps_of_le {n : ℕ} (h : 2 ^ 64 ≤ n) : 2 * usize n < n := by
  unfold usize
  omega

/-- A frame whose length wraps is not: a pixel is read that the buffer does not have. -/
theorem length_fits {out : Frame} (hvalid : frame.isValid) (hw : 2 ≤ frame.width.toNat)
    (hh : 2 ≤ frame.height.toNat) (hmax : 2 ≤ maxH.toNat)
    (hout : downscaleToMaxHeight exactScaled frame maxH = some out) (hd : Downscaled frame maxH out) :
    frame.width.toNat * frame.height.toNat * 4 < 2 ^ 64 := by
  by_contra hge
  have hf := fitDimensions_fitted hw hh hmax
  obtain ⟨hwidth, hheight⟩ := downscale_dims hout
  rw [← hwidth, ← hheight] at hf
  have hw2 := hf.two_le_width
  have hh2 := hf.two_le_height
  obtain ⟨px, -, hsrc⟩ := hd.pixels (out.width.toNat - 1) (out.height.toNat - 1) (by omega) (by omega)
  have hread := le_of_slice hsrc
  have hlast := last_index (w := frame.width.toNat) (h := frame.height.toNat) hw2 hh2
  have hwrap := wraps_of_le (not_lt.1 hge)
  rw [Frame.isValid_iff.1 hvalid, Frame.pixelCount] at hread
  omega

/-- A valid frame with both sides and the cap at least 2 is scaled down as it should be if and only if
the length of its buffer does not wrap. -/
theorem downscaled_iff (frame : Frame) (maxH : UInt32) (hvalid : frame.isValid)
    (hw : 2 ≤ frame.width.toNat) (hh : 2 ≤ frame.height.toNat) (hmax : 2 ≤ maxH.toNat) :
    (∃ out, downscaleToMaxHeight exactScaled frame maxH = some out ∧ Downscaled frame maxH out) ↔
      frame.width.toNat * frame.height.toNat * 4 < 2 ^ 64 := by
  constructor
  · rintro ⟨out, hout, hd⟩
    exact length_fits hvalid hw hh hmax hout hd
  · exact exists_downscaled hvalid hw hh hmax

/-- A frame of 3×3 pixels. -/
def smallFrame : Frame where
  width := 3
  height := 3
  timestampUs := 7
  data := (List.range 36).map UInt8.ofNat

theorem smallFrame_downscaled :
    ∃ out, downscaleToMaxHeight exactScaled smallFrame 100 = some out ∧ Downscaled smallFrame 100 out :=
  (downscaled_iff smallFrame 100 (by decide) (by decide) (by decide) (by decide)).2 (by decide)

example : downscaleToMaxHeight exactScaled smallFrame 100 =
    some ⟨2, 2, 7, [0, 1, 2, 3, 4, 5, 6, 7, 12, 13, 14, 15, 16, 17, 18, 19]⟩ := by decide +kernel

/-- 2^31×2^31 pixels in an empty buffer: `is_valid` says yes, and the first pixel is read outside it. -/
theorem empty_buffer :
    ¬∀ (frame : Frame) (maxH : UInt32), frame.isValid → 2 ≤ frame.width.toNat →
      2 ≤ frame.height.toNat → 2 ≤ maxH.toNat →
      ∃ out, downscaleToMaxHeight exactScaled frame maxH = some out ∧ Downscaled frame maxH out := by
  intro h
  have hvalid : (⟨2147483648, 2147483648, 0, []⟩ : Frame).isValid := by decide
  obtain ⟨out, hout, hd⟩ := h _ 2 hvalid (by decide) (by decide) (by decide)
  exact absurd (length_fits hvalid (by decide) (by decide) (by decide) hout hd) (by decide)

end DeskSync.Media
