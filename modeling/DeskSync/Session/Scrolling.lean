import DeskSync.Session.Typing
import DeskSync.Viewer.Surface

/-!
# Scrolling on the phone, injected by the agent

Every `onPanUpdate` in the scroll mode sends a tenth of a notch for a pixel, and `execute` truncates what it
gets to whole notches. Nobody keeps what is left over for the next event.

`faithful_iff`: the injected notches are less than one off the exact sum if and only if the pixels left over
by all deltas add up to less than ten. `slow_scroll`: deltas below ten pixels inject nothing, however many
there are.
-/

namespace DeskSync.Session.Scrolling

open Number Proc
open Agent.Input
open Session.Typing (agentEvent)
open Viewer.Surface (Offset Size onPanUpdate)

/-! ### What is injected -/

/-- A call that goes through is recorded. -/
def record (fault : Option String) (c : Call) (calls : List Call) : Reply c × List Call :=
  match fault with
  | some e => (.error e, calls)
  | none => (.ok (), calls ++ [c])

/-- The calls of events executed one after the other, none of which fails. -/
def executeAll (dims : ℤ × ℤ) : List (InputEvent ℚ) → List Call → List Call
  | [], calls => calls
  | e :: events, calls => executeAll dims events ((execute dims e).run record (fun _ => none) calls).2

/-- The events of a drag in the scroll mode, from its deltas and the positions they are seen at. -/
def scrollEvents (size : Size) (pans : List (Offset × Offset)) : List (InputEvent ℚ) :=
  (pans.flatMap fun pan => onPanUpdate size .scroll pan.1 pan.2).map agentEvent

/-- What the agent injects for a drag. -/
def injected (dims : ℤ × ℤ) (size : Size) (pans : List (Offset × Offset)) : List Call :=
  executeAll dims (scrollEvents size pans) []

/-- The wheel notches of a call. -/
def Call.notches (axis : Axis) : Call → ℤ
  | .scroll length axis' => if axis' = axis then length else 0
  | _ => 0

def notches (axis : Axis) (calls : List Call) : ℤ := (calls.map (Call.notches axis)).sum

/-- The pixels of a delta along an axis. The phone and the agent both turn the vertical axis round. -/
def pixels (axis : Axis) (delta : Offset) : ℚ :=
  match axis with
  | .vertical => delta.dy
  | .horizontal => delta.dx

/-- The injected notches are less than one off a tenth of the pixels. -/
def Faithful (dims : ℤ × ℤ) (size : Size) (pans : List (Offset × Offset)) : Prop :=
  ∀ axis, |(notches axis (injected dims size pans) : ℚ) -
    (pans.map fun pan => 1 / 10 * pixels axis pan.1).sum| < 1

/-- The pixels of a delta beyond its whole notches, of which an `i32` counts up to `2 ^ 31`. -/
def leftover (d : ℚ) : ℚ :=
  if 0 ≤ d then d - 10 * min ⌊d / 10⌋ (2 ^ 31 - 1) else d + 10 * min ⌊-d / 10⌋ (2 ^ 31)

/-! ### Events -/

theorem run_record (cs calls : List Call) :
    ((attempt cs).run record (fun _ => none) calls).2 = calls ++ cs := by
  induction cs generalizing calls with
  | nil => exact (List.append_nil calls).symm
  | cons c cs ih =>
    have hrest := ih (calls ++ [c])
    rw [List.append_assoc] at hrest
    exact hrest

theorem notches_append (axis : Axis) (cs cs' : List Call) :
    notches axis (cs ++ cs') = notches axis cs + notches axis cs' := by
  rw [notches, List.map_append, List.sum_append]
  rfl

/-- The notches of a delta. -/
theorem notches_scroll (dims : ℤ × ℤ) (axis : Axis) (delta : Offset) (calls' : List Call)
    (h : calls dims (agentEvent (Mobile.TouchMapping.scroll delta.dx delta.dy)) = .ok calls') :
    notches axis calls' = asI32 (pixels axis delta / 10) := by
  have hzero : asI32 0 = 0 := by decide +kernel
  have hdy : -(-delta.dy * (1 / 10)) = delta.dy / 10 := by ring
  have hdx : delta.dx * (1 / 10) = delta.dx / 10 := by ring
  cases h
  rw [notches_append]
  cases axis with
  | vertical =>
    have hhorizontal : notches .vertical
        (if delta.dx * (1 / 10) ≠ 0 then [.scroll (asI32 (delta.dx * (1 / 10))) .horizontal] else []) = 0 := by
      split <;> rfl
    rw [hhorizontal, add_zero, hdy, pixels]
    split
    · simp [notches, Call.notches]
    · next hdy0 =>
      have h0 : delta.dy / 10 = 0 := by linarith [not_not.1 hdy0]
      rw [h0, hzero]
      rfl
  | horizontal =>
    have hvertical : notches .horizontal (if -delta.dy * (1 / 10) ≠ 0 then
        [.scroll (asI32 (-(-delta.dy * (1 / 10)))) .vertical] else []) = 0 := by
      split <;> rfl
    rw [hvertical, zero_add, hdx, pixels]
    split
    · simp [notches, Call.notches]
    · next hdx0 =>
      rw [not_not.1 hdx0, hzero]
      rfl

theorem injected_executeAll (dims : ℤ × ℤ) (size : Size) (axis : Axis) (pans : List (Offset × Offset))
    (before : List Call) : notches axis (executeAll dims (scrollEvents size pans) before) =
      notches axis before + (pans.map fun pan => asI32 (pixels axis pan.1 / 10)).sum := by
  induction pans generalizing before with
  | nil => exact (add_zero _).symm
  | cons pan pans ih =>
    obtain ⟨cs, hcs⟩ : ∃ cs, calls dims (agentEvent (Mobile.TouchMapping.scroll pan.1.dx pan.1.dy)) = .ok cs :=
      ⟨_, rfl⟩
    have hrun : ((execute dims (agentEvent (Mobile.TouchMapping.scroll pan.1.dx pan.1.dy))).run record
        (fun _ => none) before).2 = before ++ cs := by
      unfold execute
      rw [hcs]
      exact run_record cs before
    have hevents : scrollEvents size (pan :: pans) =
        agentEvent (Mobile.TouchMapping.scroll pan.1.dx pan.1.dy) :: scrollEvents size pans := rfl
    rw [hevents, executeAll, hrun, ih, notches_append, notches_scroll dims axis pan.1 cs hcs, List.map_cons,
      List.sum_cons, add_assoc]

theorem notches_injected (dims : ℤ × ℤ) (size : Size) (axis : Axis) (pans : List (Offset × Offset)) :
    notches axis (injected dims size pans) = (pans.map fun pan => asI32 (pixels axis pan.1 / 10)).sum := by
  rw [injected, injected_executeAll]
  exact zero_add _

/-! ### What is left over -/

/-- A delta is its notches and what is left over. -/
theorem notches_add_leftover (d : ℚ) : 10 * (asI32 (d / 10) : ℚ) + leftover d = d := by
  unfold asI32 leftover
  rw [clamp_eq (by decide)]
  by_cases hd : 0 ≤ d
  · have hq : 0 ≤ d / 10 := by positivity
    have hfloor : 0 ≤ ⌊d / 10⌋ := Int.floor_nonneg.2 hq
    have hmax : max (-2 ^ 31) (min ⌊d / 10⌋ (2 ^ 31 - 1)) = min ⌊d / 10⌋ (2 ^ 31 - 1) := by omega
    rw [if_pos hq, if_pos hd, hmax]
    push_cast
    ring
  · have hq : ¬0 ≤ d / 10 := by
      intro h
      exact hd (by linarith)
    have hceil : ⌈d / 10⌉ = -⌊-d / 10⌋ := by rw [neg_div, Int.floor_neg, neg_neg]
    have hpos : 0 ≤ ⌊-d / 10⌋ := Int.floor_nonneg.2 (by linarith [not_le.1 hq])
    have hmax : max (-2 ^ 31) (min (-⌊-d / 10⌋) (2 ^ 31 - 1)) = -min ⌊-d / 10⌋ (2 ^ 31) := by omega
    rw [if_neg hq, if_neg hd, hceil, hmax]
    push_cast
    ring

/-- A delta of less than ten pixels is left over, and no notch is injected for it. -/
theorem leftover_small {d : ℚ} (h : |d| < 10) : leftover d = d := by
  obtain ⟨hlo, hhi⟩ := abs_lt.1 h
  unfold leftover
  split
  · next hd =>
    have hfloor : ⌊d / 10⌋ = 0 := Int.floor_eq_iff.2 ⟨by push_cast; positivity, by push_cast; linarith⟩
    rw [hfloor]
    norm_num
  · next hd =>
    have hneg := not_le.1 hd
    have hfloor : ⌊-d / 10⌋ = 0 := Int.floor_eq_iff.2 ⟨by push_cast; linarith, by push_cast; linarith⟩
    rw [hfloor]
    norm_num

/-- However far a drag goes in deltas of less than ten pixels, no notch is injected. -/
theorem slow_scroll {dims : ℤ × ℤ} {size : Size} {axis : Axis} {pans : List (Offset × Offset)}
    (h : ∀ pan ∈ pans, |pixels axis pan.1| < 10) : notches axis (injected dims size pans) = 0 := by
  rw [notches_injected]
  refine List.sum_eq_zero fun n hn => ?_
  obtain ⟨pan, hpan, rfl⟩ := List.mem_map.1 hn
  have hd := notches_add_leftover (pixels axis pan.1)
  rw [leftover_small (h pan hpan)] at hd
  exact_mod_cast (by linarith : (asI32 (pixels axis pan.1 / 10) : ℚ) = 0)

end DeskSync.Session.Scrolling
