import DeskSync.Mobile.Input

/-!
# Where a tap lands

The gestures of `_liveSurface` and what `_FramePainter` paints (`desktop_viewer_screen.dart`), in exact
arithmetic. `applyBoxFit` is Flutter's for `BoxFit.contain`, `inscribe` its `Alignment.center.inscribe`.

`lands_iff`: the coordinate sent for a touch on the painted frame is the one of the touched point of the
frame if and only if, on each axis, the frame fills the surface or the touch is on the centre line.
-/

namespace DeskSync.Viewer.Surface

open Mobile

structure Size where
  width : ℚ
  height : ℚ
  deriving DecidableEq

structure Offset where
  dx : ℚ
  dy : ℚ
  deriving DecidableEq

structure Rect where
  left : ℚ
  top : ℚ
  width : ℚ
  height : ℚ
  deriving DecidableEq

/-! ### Painting -/

structure FittedSizes where
  source : Size
  destination : Size

/-- `applyBoxFit(BoxFit.contain, …)`. -/
def applyBoxFit (input output : Size) : FittedSizes :=
  if input.height ≤ 0 ∨ input.width ≤ 0 ∨ output.height ≤ 0 ∨ output.width ≤ 0 then ⟨⟨0, 0⟩, ⟨0, 0⟩⟩
  else if output.width / output.height > input.width / input.height then
    ⟨input, ⟨input.width * output.height / input.height, output.height⟩⟩
  else ⟨input, ⟨output.width, input.height * output.width / input.width⟩⟩

/-- `Alignment.center.inscribe(size, rect)`. -/
def inscribe (size : Size) (rect : Rect) : Rect where
  left := rect.left + (rect.width - size.width) / 2
  top := rect.top + (rect.height - size.height) / 2
  width := size.width
  height := size.height

/-- The source and the destination of `drawImageRect`. -/
def paint (image size : Size) : Rect × Rect :=
  let fitted := applyBoxFit image size
  (inscribe fitted.source ⟨0, 0, image.width, image.height⟩,
    inscribe fitted.destination ⟨0, 0, size.width, size.height⟩)

/-! ### Gestures -/

inductive ViewerGestureMode
  | pointer
  | scroll
  deriving DecidableEq, Repr

def norm (size : Size) (loc : Offset) : NormalizedPoint :=
  TouchMapping.normalize loc.dx loc.dy size.width size.height

def onTapUp (size : Size) (rightClick : Bool) (localPosition : Offset) : List (InputEvent ℚ) :=
  TouchMapping.click (norm size localPosition) (if rightClick then .right else .left)

def onLongPressStart (size : Size) (localPosition : Offset) : List (InputEvent ℚ) :=
  TouchMapping.click (norm size localPosition) .right

def onPanUpdate (size : Size) (mode : ViewerGestureMode) (delta localPosition : Offset) :
    List (InputEvent ℚ) :=
  match mode with
  | .scroll => [TouchMapping.scroll delta.dx delta.dy]
  | .pointer => [TouchMapping.move (norm size localPosition)]

/-! ### Agreement -/

/-- The touch is on the painted rectangle. -/
def Inside (rect : Rect) (p : Offset) : Prop :=
  (rect.left ≤ p.dx ∧ p.dx ≤ rect.left + rect.width) ∧ rect.top ≤ p.dy ∧ p.dy ≤ rect.top + rect.height

/-- The events a touch can lead to. -/
def Sends (size : Size) (p : Offset) (events : List (InputEvent ℚ)) : Prop :=
  (∃ rightClick, events = onTapUp size rightClick p) ∨ events = onLongPressStart size p ∨
    ∃ mode delta, events = onPanUpdate size mode delta p

/-- Wherever the pointer is moved to for a touch, it is the touched point of the painted rectangle. -/
def Lands (size : Size) (rect : Rect) (p : Offset) : Prop :=
  ∀ events, Sends size p events → ∀ x y, .mouseMove x y ∈ events →
    x = (p.dx - rect.left) / rect.width ∧ y = (p.dy - rect.top) / rect.height

/-- On each axis the frame fills the surface, or the touch is on the centre line. -/
def Undistorted (image size : Size) (p : Offset) : Prop :=
  (size.width * image.height ≤ size.height * image.width ∨ p.dx = size.width / 2) ∧
    (size.height * image.width ≤ size.width * image.height ∨ p.dy = size.height / 2)

/-- A touch leads to a move to its normalized coordinate, and to no other. -/
theorem lands_iff_norm (size : Size) (rect : Rect) (p : Offset) : Lands size rect p ↔
    (norm size p).x = (p.dx - rect.left) / rect.width ∧
      (norm size p).y = (p.dy - rect.top) / rect.height := by
  constructor
  · intro h
    exact h _ (.inr (.inl rfl)) _ _ List.mem_cons_self
  · rintro ⟨hx, hy⟩ events hevents x y hmem
    have hmove : x = (norm size p).x ∧ y = (norm size p).y := by
      rcases hevents with ⟨rightClick, rfl⟩ | rfl | ⟨mode, delta, rfl⟩
      · simpa [onTapUp, TouchMapping.click] using hmem
      · simpa [onLongPressStart, TouchMapping.click] using hmem
      · cases mode with
        | pointer => simpa [onPanUpdate, TouchMapping.move] using hmem
        | scroll => simp [onPanUpdate, TouchMapping.scroll] at hmem
    rw [hmove.1, hmove.2]
    exact ⟨hx, hy⟩

/-- On one axis: a rectangle of the extent `d`, centred on an extent `s`. -/
theorem axis_iff {s d v : ℚ} (hs : 0 < s) (hd : 0 < d) :
    v / s = (v - (0 + (s - d) / 2)) / d ↔ d = s ∨ v = s / 2 := by
  rw [div_eq_div_iff hs.ne' hd.ne']
  constructor
  · intro h
    have hprod : (s - d) * (v - s / 2) = 0 := by linarith
    rcases mul_eq_zero.1 hprod with h0 | h0
    · exact .inl (by linarith)
    · exact .inr (by linarith)
  · rintro (rfl | rfl)
    · ring
    · ring

theorem clamp01_of_mem {v : ℚ} (h0 : 0 ≤ v) (h1 : v ≤ 1) : TouchMapping.clamp01 v = v := by
  rw [TouchMapping.clamp01, if_neg h0.not_gt, if_neg h1.not_gt]

/-- What `contain` fits, without division. -/
theorem applyBoxFit_contain {image size : Size} (hiw : 0 < image.width) (hih : 0 < image.height)
    (hw : 0 < size.width) (hh : 0 < size.height) :
    (applyBoxFit image size).destination =
      if size.height * image.width < size.width * image.height then
        ⟨image.width * size.height / image.height, size.height⟩
      else ⟨size.width, image.height * size.width / image.width⟩ := by
  have hpos : ¬(image.height ≤ 0 ∨ image.width ≤ 0 ∨ size.height ≤ 0 ∨ size.width ≤ 0) := by
    simp only [not_or, not_le]
    exact ⟨hih, hiw, hh, hw⟩
  have hratio : size.width / size.height > image.width / image.height ↔
      size.height * image.width < size.width * image.height := by
    rw [gt_iff_lt, div_lt_div_iff₀ hih hh, mul_comm image.width]
  unfold applyBoxFit
  rw [if_neg hpos]
  simp only [hratio]
  split <;> rfl

/-- The extents of the painted rectangle. -/
structure Fits (image size destination : Size) : Prop where
  width_pos : 0 < destination.width
  height_pos : 0 < destination.height
  width_le : destination.width ≤ size.width
  height_le : destination.height ≤ size.height
  width_iff : destination.width = size.width ↔
    size.width * image.height ≤ size.height * image.width
  height_iff : destination.height = size.height ↔
    size.height * image.width ≤ size.width * image.height

theorem applyBoxFit_fits {image size : Size} (hiw : 0 < image.width) (hih : 0 < image.height)
    (hw : 0 < size.width) (hh : 0 < size.height) :
    Fits image size (applyBoxFit image size).destination := by
  rw [applyBoxFit_contain hiw hih hw hh]
  split
  · next hwide =>
    have hlt : image.width * size.height / image.height < size.width := by
      rw [div_lt_iff₀ hih]
      linarith
    exact {
      width_pos := by positivity
      height_pos := hh
      width_le := hlt.le
      height_le := le_rfl
      width_iff := iff_of_false hlt.ne hwide.not_ge
      height_iff := iff_of_true rfl hwide.le }
  · next htall =>
    have hle := not_lt.1 htall
    exact {
      width_pos := hw
      height_pos := by positivity
      width_le := le_rfl
      height_le := by
        rw [div_le_iff₀ hiw]
        linarith
      width_iff := iff_of_true rfl hle
      height_iff := by
        rw [div_eq_iff hiw.ne']
        constructor
        · intro h
          linarith
        · intro h
          linarith }

/-- A touch on the painted frame lands where it is seen if and only if, on each axis, the frame fills the
surface or the touch is on the centre line. -/
theorem lands_iff (image size : Size) (p : Offset) (hiw : 0 < image.width) (hih : 0 < image.height)
    (hw : 0 < size.width) (hh : 0 < size.height) (hp : Inside (paint image size).2 p) :
    Lands size (paint image size).2 p ↔ Undistorted image size p := by
  have hf := applyBoxFit_fits hiw hih hw hh
  obtain ⟨⟨hleft, hright⟩, htop, hbottom⟩ := hp
  simp only [paint, inscribe] at hleft hright htop hbottom
  have hwle := hf.width_le
  have hhle := hf.height_le
  -- the touch is on the surface, so nothing is clamped
  have hx : (norm size p).x = p.dx / size.width := by
    rw [norm, TouchMapping.normalize, if_neg (not_or.2 ⟨hw.not_ge, hh.not_ge⟩)]
    exact clamp01_of_mem (div_nonneg (by linarith) hw.le) ((div_le_one hw).2 (by linarith))
  have hy : (norm size p).y = p.dy / size.height := by
    rw [norm, TouchMapping.normalize, if_neg (not_or.2 ⟨hw.not_ge, hh.not_ge⟩)]
    exact clamp01_of_mem (div_nonneg (by linarith) hh.le) ((div_le_one hh).2 (by linarith))
  rw [lands_iff_norm, hx, hy, Undistorted, ← hf.width_iff, ← hf.height_iff]
  exact and_congr (axis_iff hw hf.width_pos) (axis_iff hh hf.height_pos)

/-- A frame of 16:9 on a surface of 16:9. -/
theorem sameRatio_lands : Lands ⟨320, 180⟩ (paint ⟨1920, 1080⟩ ⟨320, 180⟩).2 ⟨32, 18⟩ :=
  (lands_iff ⟨1920, 1080⟩ ⟨320, 180⟩ ⟨32, 18⟩ (by norm_num) (by norm_num) (by norm_num) (by norm_num)
    (by norm_num [Inside, paint, applyBoxFit, inscribe])).2 (by norm_num [Undistorted])

/-- A frame of 16:9 on an upright phone: a touch on its upper edge is sent as a third of the height. -/
theorem letterboxed : ¬∀ (image size : Size) (p : Offset), 0 < image.width → 0 < image.height →
    0 < size.width → 0 < size.height → Inside (paint image size).2 p →
    Lands size (paint image size).2 p := by
  intro h
  have hlands := h ⟨1920, 1080⟩ ⟨360, 640⟩ ⟨180, 875 / 4⟩ (by norm_num) (by norm_num) (by norm_num)
    (by norm_num) (by norm_num [Inside, paint, applyBoxFit, inscribe])
  have hy := ((lands_iff_norm _ _ _).1 hlands).2
  norm_num [norm, TouchMapping.normalize, TouchMapping.clamp01, paint, applyBoxFit, inscribe] at hy

end DeskSync.Viewer.Surface
