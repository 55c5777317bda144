import DeskSync.Media.Scaling

/-!
# The JPEG screen encoder

`media/src/encoder.rs`. The crate that writes the JPEG is a parameter, as is the floating-point product in
`fit_dimensions`. A panic is `none`.

`honest_iff`: `encode` keeps its word on a frame (no panic, `InvalidFrame` for a buffer of another length,
the dimensions it reports) if and only if both sides are positive, a buffer of another length belongs to
a frame that is not scaled, and the width still fits in 16 bits after scaling (or is a multiple of 2^16,
which the crate refuses as 0).
-/

namespace DeskSync.Media

open Number Slice

inductive EncodeError
  | invalidFrame
  | encode (message : String)
  deriving DecidableEq, Repr

structure EncodedFrame where
  width : UInt32
  height : UInt32
  timestampUs : UInt64
  data : List UInt8
  deriving DecidableEq, Repr

/-- What `Encoder::encode` is called with; the colour type is always `Bgra`. -/
structure JpegCall where
  quality : UInt8
  data : List UInt8
  width : UInt16
  height : UInt16

/-- The crate: the bytes written, or the text of an error. -/
abbrev Jpeg := JpegCall → Except String (List UInt8)

/-- Documented of the crate: the errors of a call are a side of length zero and data that are too short
for the dimensions. -/
def Documented (jpeg : Jpeg) : Prop :=
  ∀ c, (∃ buf, jpeg c = .ok buf) ↔
    c.width ≠ 0 ∧ c.height ≠ 0 ∧ c.width.toNat * c.height.toNat * 4 ≤ c.data.length

structure JpegScreenEncoder where
  maxHeight : UInt32
  quality : UInt8
  maxHeight_le : maxHeight ≤ 2160
  le_maxHeight : 120 ≤ maxHeight
  quality_le : quality ≤ 90
  le_quality : 20 ≤ quality

/-- The result of an encoding and the calls of the crate on the way. -/
structure Encoding where
  result : Except EncodeError EncodedFrame
  calls : List JpegCall

namespace JpegScreenEncoder

def new (maxHeight : UInt32) (quality : UInt8) : JpegScreenEncoder where
  maxHeight := clamp 120 2160 maxHeight
  quality := clamp 20 90 quality
  maxHeight_le := clamp_le (by decide) _
  le_maxHeight := le_clamp (by decide) _
  quality_le := clamp_le (by decide) _
  le_quality := le_clamp (by decide) _

def streamingDefault : JpegScreenEncoder := new 720 55

/-- The call of the crate for a frame. -/
def call (enc : JpegScreenEncoder) (frame : Frame) : JpegCall where
  quality := enc.quality
  data := frame.data
  width := frame.width.toUInt16
  height := frame.height.toUInt16

/-- `encode` after the rescale. -/
def encodeScaled (jpeg : Jpeg) (enc : JpegScreenEncoder) (scaled : Frame) : Encoding :=
  if !scaled.isValid then ⟨.error .invalidFrame, []⟩
  else match jpeg (enc.call scaled) with
    | .error e => ⟨.error (.encode e), [enc.call scaled]⟩
    | .ok buf =>
      ⟨.ok ⟨scaled.width, scaled.height, scaled.timestampUs, buf⟩, [enc.call scaled]⟩

def encode (scaled : Scaled) (jpeg : Jpeg) (enc : JpegScreenEncoder) (frame : Frame) : Option Encoding :=
  (downscaleToMaxHeight scaled frame enc.maxHeight).map (encodeScaled jpeg enc)

end JpegScreenEncoder

open JpegScreenEncoder

/-- An encoding that did not panic, calls a buffer of another length invalid, and reports the dimensions
it has handed to the crate. -/
structure Honest (frame : Frame) (e : Encoding) : Prop where
  invalid : frame.data.length ≠ frame.pixelCount * 4 → e.result = .error .invalidFrame
  dimensions : ∀ out, e.result = .ok out → ∃ call, e.calls = [call] ∧
    call.width.toNat = out.width.toNat ∧ call.height.toNat = out.height.toNat

/-- The dimensions of the frame that is encoded. -/
def target (scaled : Scaled) (enc : JpegScreenEncoder) (frame : Frame) : UInt32 × UInt32 :=
  fitDimensions scaled frame.width frame.height enc.maxHeight

structure Encodable (scaled : Scaled) (enc : JpegScreenEncoder) (frame : Frame) : Prop where
  width_ne : frame.width ≠ 0
  height_ne : frame.height ≠ 0
  matched : target scaled enc frame = (frame.width, frame.height) ∨
    frame.data.length = frame.pixelCount * 4
  narrow : frame.data.length = frame.pixelCount * 4 →
    (target scaled enc frame).1.toNat < 65536 ∨ (target scaled enc frame).1.toNat % 65536 = 0

variable {scaled : Scaled} {jpeg : Jpeg} {enc : JpegScreenEncoder} {frame out : Frame}

/-! ### Dimensions -/

theorem target_height_le (scaled : Scaled) (enc : JpegScreenEncoder) (frame : Frame) :
    (target scaled enc frame).2.toNat ≤ 2160 := by
  have hmax : enc.maxHeight.toNat ≤ 2160 := UInt32.le_iff_toNat_le.1 enc.maxHeight_le
  unfold target fitDimensions
  split
  · exact (by decide : (2 : UInt32).toNat ≤ 2160)
  · split
    · next hle =>
      have hheight := UInt32.le_iff_toNat_le.1 hle
      show (makeEven _).toNat ≤ _
      rw [toNat_makeEven]
      omega
    · show (makeEven _).toNat ≤ _
      rw [toNat_makeEven]
      omega

/-- The length of the frame that is encoded does not wrap. -/
theorem target_fits (scaled : Scaled) (enc : JpegScreenEncoder) (frame : Frame) :
    (target scaled enc frame).1.toNat * (target scaled enc frame).2.toNat * 4 < 2 ^ 64 := by
  have hmul := Nat.mul_le_mul (target scaled enc frame).1.toNat_lt.le (target_height_le scaled enc frame)
  omega

theorem two_le_target (scaled : Scaled) (enc : JpegScreenEncoder) (frame : Frame) :
    2 ≤ (target scaled enc frame).1.toNat ∧ 2 ≤ (target scaled enc frame).2.toNat :=
  two_le_fitDimensions _ _ _ _

theorem positive_of_same (h : target scaled enc frame = (frame.width, frame.height)) :
    frame.width ≠ 0 ∧ frame.height ≠ 0 := by
  have htwo := two_le_target scaled enc frame
  rw [h] at htwo
  have hzero : ¬2 ≤ (0 : UInt32).toNat := by decide
  exact ⟨fun h0 => hzero (h0 ▸ htwo.1), fun h0 => hzero (h0 ▸ htwo.2)⟩

/-! ### The rescale -/

theorem downscale_same (h : target scaled enc frame = (frame.width, frame.height)) :
    downscaleToMaxHeight scaled frame enc.maxHeight = some frame := by
  unfold downscaleToMaxHeight
  rw [target] at h
  rw [h]
  exact if_pos ⟨rfl, rfl⟩

theorem downscale_other (h : target scaled enc frame ≠ (frame.width, frame.height)) :
    downscaleToMaxHeight scaled frame enc.maxHeight =
      ((List.range (target scaled enc frame).2.toNat).foldlM
        (copyRow frame (target scaled enc frame).1.toNat (target scaled enc frame).2.toNat)
        (List.replicate ((target scaled enc frame).1.toNat * (target scaled enc frame).2.toNat * 4) 0)).map
        fun data => ⟨(target scaled enc frame).1, (target scaled enc frame).2, frame.timestampUs, data⟩ := by
  have htwo := two_le_target scaled enc frame
  have hfits := target_fits scaled enc frame
  unfold downscaleToMaxHeight
  rw [target] at h htwo hfits ⊢
  generalize fitDimensions scaled frame.width frame.height enc.maxHeight = dims at h htwo hfits ⊢
  obtain ⟨w', h'⟩ := dims
  simp only at htwo hfits ⊢
  have hne : ¬(frame.width = w' ∧ frame.height = h') := fun heq => h (by rw [heq.1, heq.2])
  rw [if_neg fun heq => hne ⟨heq.1.symm, heq.2.symm⟩]
  unfold scaleBgraNearest
  rw [max_one htwo.1, max_one htwo.2]
  simp only
  rw [if_neg hne, usize_of_lt hfits, Option.map_eq_bind]
  rfl

theorem length_copyRow {dw dh dy : ℕ} {data data' : List UInt8}
    (h : copyRow frame dw dh data dy = some data') : data'.length = data.length := by
  refine foldlM_invariant (P := fun d => d.length = data.length) h (fun dx d d' hd hlen => ?_) rfl
  obtain ⟨px, -, hcopy⟩ := Option.bind_eq_some_iff.1 hd
  exact (length_copyTo hcopy).trans hlen

/-- A frame that has been scaled is valid, whatever the source was. -/
theorem scaled_valid (hne : target scaled enc frame ≠ (frame.width, frame.height))
    (h : downscaleToMaxHeight scaled frame enc.maxHeight = some out) : out.isValid := by
  rw [downscale_other hne] at h
  obtain ⟨data, hdata, rfl⟩ := Option.map_eq_some_iff.1 h
  have hlen := foldlM_invariant (P := fun d => d.length = _) hdata
    (fun dy d d' hd hlen => (length_copyRow hd).trans hlen) List.length_replicate
  rw [Frame.isValid_iff]
  exact hlen.trans (usize_of_lt (target_fits scaled enc frame)).symm

/-- A frame with positive sides and a buffer of its length is scaled without a panic. -/
theorem exists_downscale (scaled : Scaled) (enc : JpegScreenEncoder) (hw : frame.width ≠ 0)
    (hh : frame.height ≠ 0) (hlen : frame.data.length = frame.pixelCount * 4) :
    ∃ out, downscaleToMaxHeight scaled frame enc.maxHeight = some out := by
  by_cases hsame : target scaled enc frame = (frame.width, frame.height)
  · exact ⟨frame, downscale_same hsame⟩
  · have hw' : 0 < frame.width.toNat := Nat.pos_of_ne_zero fun h => hw (UInt32.toNat_inj.1 h)
    have hh' : 0 < frame.height.toNat := Nat.pos_of_ne_zero fun h => hh (UInt32.toNat_inj.1 h)
    have hfits := target_fits scaled enc frame
    rw [downscale_other hsame]
    generalize (target scaled enc frame).1.toNat = dw at hfits ⊢
    generalize (target scaled enc frame).2.toNat = dh at hfits ⊢
    have hloop : ∃ data, (List.range dh).foldlM (copyRow frame dw dh)
        (List.replicate (dw * dh * 4) 0) = some data ∧ data.length = dw * dh * 4 := by
      refine foldlM_range (P := fun _ (d : List UInt8) => d.length = dw * dh * 4) (fun dy data hdy hdata => ?_)
        List.length_replicate
      refine foldlM_range (P := fun _ (d : List UInt8) => d.length = dw * dh * 4) ?_ hdata
      intro dx d hdx hd
      have hsrc := index_lt (scaled_lt hdx hw') (scaled_lt hdy hh')
      have hdst := index_lt hdx hdy
      -- the source index may wrap, but only to a smaller one
      have hwrap : usize ((dy * frame.height.toNat / dh * frame.width.toNat +
          dx * frame.width.toNat / dw) * 4) ≤ _ := Nat.mod_le _ _
      have hpx : slice frame.data _ 4 = some _ := slice_of_le (by
        rw [hlen, Frame.pixelCount]
        exact (Nat.add_le_add_right hwrap 4).trans (by omega))
      have hcopy : copyTo d (usize ((dy * dw + dx) * 4)) _ = some _ := copyTo_of_le (by
        rw [length_of_slice hpx, hd, usize_of_lt (by omega)]
        omega)
      refine ⟨_, ?_, (length_copyTo hcopy).trans hd⟩
      unfold copyPixel
      exact (congrArg (· >>= _) hpx).trans hcopy
    obtain ⟨data, hdata, -⟩ := hloop
    rw [hdata]
    exact ⟨_, rfl⟩

/-- A frame without pixels and without bytes panics. -/
theorem downscale_empty (hzero : frame.width = 0 ∨ frame.height = 0) (hdata : frame.data = []) :
    downscaleToMaxHeight scaled frame enc.maxHeight = none := by
  have htarget : target scaled enc frame = (2, 2) := if_pos hzero
  have hne : target scaled enc frame ≠ (frame.width, frame.height) := fun hsame =>
    hzero.elim (positive_of_same hsame).1 (positive_of_same hsame).2
  rw [downscale_other hne, htarget]
  have hfirst (data : List UInt8) : copyPixel frame 2 2 0 data 0 = none := by
    unfold copyPixel
    simp [hdata, slice, usize]
  have hrow (data : List UInt8) : copyRow frame 2 2 data 0 = none := by
    unfold copyRow
    rw [show List.range 2 = [0, 1] from rfl, List.foldlM_cons, hfirst]
    rfl
  show Option.map _ (List.foldlM (copyRow frame 2 2) _ [0, 1]) = none
  rw [List.foldlM_cons, hrow]
  rfl

/-! ### Encoding -/

theorem encodeScaled_invalid (h : ¬out.isValid) :
    (encodeScaled jpeg enc out).result = .error .invalidFrame := by
  unfold encodeScaled
  rw [if_pos (by simpa using h)]

theorem encodeScaled_valid (h : out.isValid) :
    (encodeScaled jpeg enc out).result ≠ .error .invalidFrame := by
  unfold encodeScaled
  rw [if_neg (by simpa using h)]
  cases jpeg (enc.call out) with
  | error e =>
    intro heq
    cases heq
  | ok buf =>
    intro heq
    cases heq

/-- The crate accepts a valid frame unless its width is a multiple of 2^16. -/
theorem accepts_iff (enc : JpegScreenEncoder) (hjpeg : Documented jpeg) (h2 : 2 ≤ out.height.toNat)
    (hh : out.height.toNat ≤ 2160) (hlen : out.data.length = out.pixelCount * 4) :
    (∃ buf, jpeg (enc.call out) = .ok buf) ↔ out.width.toNat % 65536 ≠ 0 := by
  have hwidth : (enc.call out).width.toNat = out.width.toNat % 65536 := UInt32.toNat_toUInt16 _
  have hheight : (enc.call out).height.toNat = out.height.toNat := by
    rw [call, UInt32.toNat_toUInt16]
    omega
  have hmul := Nat.mul_le_mul_right out.height.toNat (Nat.mod_le out.width.toNat 65536)
  have hzero (v : UInt16) : v ≠ 0 ↔ v.toNat ≠ 0 := by
    rw [ne_eq, ne_eq, ← UInt16.toNat_inj]
    rfl
  rw [hjpeg, hzero, hzero, hwidth, hheight]
  show _ ∧ _ ∧ _ ≤ out.data.length ↔ _
  rw [hlen, Frame.pixelCount]
  omega

theorem dimensions_iff (enc : JpegScreenEncoder) (hjpeg : Documented jpeg)
    (h2 : 2 ≤ out.height.toNat) (hh : out.height.toNat ≤ 2160) (hvalid : out.isValid)
    (hlen : out.data.length = out.pixelCount * 4) :
    (∀ o, (encodeScaled jpeg enc out).result = .ok o → ∃ call,
      (encodeScaled jpeg enc out).calls = [call] ∧ call.width.toNat = o.width.toNat ∧
        call.height.toNat = o.height.toNat) ↔
      out.width.toNat < 65536 ∨ out.width.toNat % 65536 = 0 := by
  have haccepts := accepts_iff enc hjpeg h2 hh hlen
  have hwidth : (enc.call out).width.toNat = out.width.toNat % 65536 := UInt32.toNat_toUInt16 _
  have hheight : (enc.call out).height.toNat = out.height.toNat := by
    rw [call, UInt32.toNat_toUInt16]
    omega
  unfold encodeScaled
  rw [if_neg (by simpa using hvalid)]
  cases hr : jpeg (enc.call out) with
  | error e =>
    rw [hr] at haccepts
    have hzero : out.width.toNat % 65536 = 0 := by
      by_contra hne
      obtain ⟨buf, hbuf⟩ := haccepts.2 hne
      cases hbuf
    refine iff_of_true (fun o ho => ?_) (.inr hzero)
    cases ho
  | ok buf =>
    have hne := haccepts.1 ⟨buf, hr⟩
    constructor
    · intro h
      obtain ⟨c, hc, hcw, -⟩ := h _ rfl
      rw [← List.singleton_inj.1 hc, hwidth] at hcw
      simp only at hcw
      omega
    · intro hor o ho
      cases ho
      refine ⟨_, rfl, ?_, hheight⟩
      rw [hwidth]
      simp only
      omega

/-- On a frame that is not scaled. -/
theorem honest_same (hjpeg : Documented jpeg)
    (hsame : target scaled enc frame = (frame.width, frame.height)) :
    Honest frame (encodeScaled jpeg enc frame) ↔ (frame.data.length = frame.pixelCount * 4 →
      frame.width.toNat < 65536 ∨ frame.width.toNat % 65536 = 0) := by
  have hfits := target_fits scaled enc frame
  have htwo := two_le_target scaled enc frame
  have hheight := target_height_le scaled enc frame
  rw [hsame] at hfits htwo hheight
  have hvalid : frame.isValid ↔ frame.data.length = frame.pixelCount * 4 := by
    rw [Frame.isValid_iff]
    exact iff_of_eq (congrArg _ (usize_of_lt hfits))
  by_cases hlen : frame.data.length = frame.pixelCount * 4
  · have hdims := dimensions_iff enc hjpeg htwo.2 hheight (hvalid.2 hlen) hlen
    constructor
    · intro h _
      exact hdims.1 h.dimensions
    · intro h
      exact ⟨fun hne => absurd hlen hne, hdims.2 (h hlen)⟩
  · have hinvalid : (encodeScaled jpeg enc frame).result = .error .invalidFrame :=
      encodeScaled_invalid (hvalid.not.2 hlen)
    refine iff_of_true ⟨fun _ => hinvalid, fun o ho => ?_⟩ fun h => absurd h hlen
    rw [hinvalid] at ho
    cases ho

/-- On a frame that is scaled. -/
theorem honest_other (hjpeg : Documented jpeg)
    (hne : target scaled enc frame ≠ (frame.width, frame.height))
    (hout : downscaleToMaxHeight scaled frame enc.maxHeight = some out) :
    Honest frame (encodeScaled jpeg enc out) ↔ frame.data.length = frame.pixelCount * 4 ∧
      (out.width.toNat < 65536 ∨ out.width.toNat % 65536 = 0) := by
  have hvalid := scaled_valid hne hout
  have hfits := target_fits scaled enc frame
  have htwo := two_le_target scaled enc frame
  have hheight := target_height_le scaled enc frame
  obtain ⟨hw, hh⟩ := downscale_dims hout
  rw [target, ← hw, ← hh] at hfits
  rw [target, ← hh] at htwo hheight
  have hlen : out.data.length = out.pixelCount * 4 := by
    rw [Frame.isValid_iff.1 hvalid, Frame.pixelCount, usize_of_lt hfits]
  have hdims := dimensions_iff enc hjpeg htwo.2 hheight hvalid hlen
  constructor
  · intro h
    refine ⟨?_, hdims.1 h.dimensions⟩
    by_contra hlen'
    exact encodeScaled_valid hvalid (h.invalid hlen')
  · rintro ⟨hlen', hwidth⟩
    exact ⟨fun hne' => absurd hlen' hne', hdims.2 hwidth⟩

/-- A side of length zero is never encoded honestly: without bytes the rescale panics, with bytes the
buffer is not called invalid. -/
theorem not_honest_zero (hzero : frame.width = 0 ∨ frame.height = 0)
    (hout : downscaleToMaxHeight scaled frame enc.maxHeight = some out) :
    ¬Honest frame (encodeScaled jpeg enc out) := by
  intro h
  have hne : target scaled enc frame ≠ (frame.width, frame.height) := fun hsame =>
    hzero.elim (positive_of_same hsame).1 (positive_of_same hsame).2
  have hcount : frame.pixelCount = 0 := by
    obtain h0 | h0 := hzero <;> simp [Frame.pixelCount, h0]
  by_cases hdata : frame.data = []
  · rw [downscale_empty hzero hdata] at hout
    cases hout
  · have hlen : frame.data.length ≠ frame.pixelCount * 4 := by
      rw [hcount, Nat.zero_mul]
      exact fun h0 => hdata (List.length_eq_zero_iff.1 h0)
    exact encodeScaled_valid (scaled_valid hne hout) (h.invalid hlen)

/-- `encode` keeps its word on a frame if and only if the frame is encodable. -/
theorem honest_iff (scaled : Scaled) (jpeg : Jpeg) (hjpeg : Documented jpeg) (enc : JpegScreenEncoder)
    (frame : Frame) :
    (∃ e, enc.encode scaled jpeg frame = some e ∧ Honest frame e) ↔ Encodable scaled enc frame := by
  have hencode : (∃ e, enc.encode scaled jpeg frame = some e ∧ Honest frame e) ↔
      ∃ out, downscaleToMaxHeight scaled frame enc.maxHeight = some out ∧
        Honest frame (encodeScaled jpeg enc out) := by
    simp only [encode, Option.map_eq_some_iff]
    aesop
  rw [hencode]
  by_cases hsame : target scaled enc frame = (frame.width, frame.height)
  · obtain ⟨hw, hh⟩ := positive_of_same hsame
    rw [downscale_same hsame]
    constructor
    · rintro ⟨out, hout, h⟩
      cases hout
      refine ⟨hw, hh, .inl hsame, ?_⟩
      rw [hsame]
      exact (honest_same hjpeg hsame).1 h
    · intro h
      have hnarrow := h.narrow
      rw [hsame] at hnarrow
      exact ⟨frame, rfl, (honest_same hjpeg hsame).2 hnarrow⟩
  · constructor
    · rintro ⟨out, hout, h⟩
      obtain ⟨hlen, hwidth⟩ := (honest_other hjpeg hsame hout).1 h
      rw [(downscale_dims hout).1] at hwidth
      exact {
        width_ne := fun h0 => not_honest_zero (.inl h0) hout h
        height_ne := fun h0 => not_honest_zero (.inr h0) hout h
        matched := .inr hlen
        narrow := fun _ => hwidth }
    · intro h
      have hlen := h.matched.resolve_left hsame
      obtain ⟨out, hout⟩ := exists_downscale scaled enc h.width_ne h.height_ne hlen
      refine ⟨out, hout, (honest_other hjpeg hsame hout).2 ⟨hlen, ?_⟩⟩
      rw [(downscale_dims hout).1]
      exact h.narrow hlen

/-- A crate that writes the two markers. -/
def markers : Jpeg := fun c =>
  if c.width ≠ 0 ∧ c.height ≠ 0 ∧ c.width.toNat * c.height.toNat * 4 ≤ c.data.length then
    .ok [0xff, 0xd8, 0xff, 0xd9]
  else .error "bad image data"

theorem markers_documented : Documented markers := by
  intro c
  unfold markers
  split
  · next h => exact iff_of_true ⟨_, rfl⟩ h
  · next h =>
    refine iff_of_false ?_ h
    rintro ⟨buf, hbuf⟩
    cases hbuf

/-- A frame of 10×10 pixels in a buffer of 8 bytes. -/
def shortFrame : Frame := ⟨10, 10, 0, .replicate 8 0⟩

theorem shortFrame_honest : ∃ e, streamingDefault.encode exactScaled markers shortFrame = some e ∧
    Honest shortFrame e :=
  (honest_iff exactScaled markers markers_documented streamingDefault shortFrame).2 {
    width_ne := by decide
    height_ne := by decide
    matched := .inl (by decide)
    narrow := fun h => absurd h (by decide) }

/-- The same buffer with sides of 11 pixels, which are made even first, panics. -/
theorem odd_panics : ¬∀ (scaled : Scaled) (jpeg : Jpeg), Documented jpeg →
    ∀ (enc : JpegScreenEncoder) (frame : Frame),
      ∃ e, enc.encode scaled jpeg frame = some e ∧ Honest frame e := by
  intro h
  obtain ⟨e, he, -⟩ := h exactScaled markers markers_documented streamingDefault
    ⟨11, 11, 0, .replicate 8 0⟩
  have hnone : streamingDefault.encode exactScaled markers ⟨11, 11, 0, .replicate 8 0⟩ = none := by
    decide +kernel
  rw [hnone] at he
  cases he

end DeskSync.Media
