import DeskSync.Session.Typing

/-!
# The capture field of the keyboard

`_onKeyboardChanged` and `_resetKeyboardField` (`desktop_viewer_screen.dart`): the events they send, executed
by the agent on a host that had typed nothing at the last reset.

`mirrored_iff`: along any changes of the field the host shows the mapped characters of its value if and
only if every change either leaves the mapped characters of the old value where they are, or shortens the
value by as many code units as it takes mapped characters off its end.
-/

namespace DeskSync.Viewer.Keyboard

open Mobile (InputEvent mapped typeText sendKey)
open Agent.Input (Host)
open Session.Typing

/-- The value of the field at the last change, and the host, both since the last reset. -/
structure Capture where
  lastKeyboardText : List UInt16 := []
  host : Host := {}

/-- The events of a change of the field. -/
def changeEvents (last value : List UInt16) : List (InputEvent ℚ) :=
  if value.length > last.length then typeText (value.drop last.length)
  else if value.length < last.length then
    (List.replicate (last.length - value.length) (sendKey Mobile.HidKey.backspace)).flatten
  else []

/-- The capture when the events of a change have been executed. -/
def Capture.deliver (dims : ℤ × ℤ) (c : Capture) (value : List UInt16) : Capture where
  lastKeyboardText := value
  host := (Host.executeAll dims ((changeEvents c.lastKeyboardText value).map agentEvent) c.host).2

/-- A change of the field, or a reset when the keyboard is toggled or the field submitted. -/
inductive Step
  | changed (value : List UInt16)
  | reset

def Capture.step (dims : ℤ × ℤ) (c : Capture) : Step → Capture
  | .changed value => if value.length > 64 then {} else c.deliver dims value
  | .reset => {}

/-- After the events of a change the host shows the mapped characters of the value. -/
def Mirrored (dims : ℤ × ℤ) (c : Capture) : Step → Prop
  | .changed value => (c.deliver dims value).host.text = mapped value
  | .reset => True

/-- The mapped characters of the old value stay where they are, or as many are taken off the end as the
value gets shorter. -/
def Followed (last value : List UInt16) : Prop :=
  if last.length ≤ value.length then mapped (value.take last.length) = mapped last
  else mapped value = (mapped last).rdrop (last.length - value.length)

def Follows (c : Capture) : Step → Prop
  | .changed value => Followed c.lastKeyboardText value
  | .reset => True

/-- Backspaces take as many characters off the end. -/
theorem run_backspaces (dims : ℤ × ℤ) (n : ℕ) (text : List Char) :
    (Host.executeAll dims
      ((List.replicate n (sendKey Mobile.HidKey.backspace)).flatten.map agentEvent) (idle text)).2 =
      idle (text.rdrop n) := by
  induction n generalizing text with
  | zero => rw [List.rdrop_zero]; rfl
  | succ n ih =>
    rw [List.replicate_succ, List.flatten_cons, List.map_append, Agent.Input.executeAll_append]
    simp only
    rw [erases, ih, List.dropLast_eq_take, List.rdrop, List.rdrop, List.length_take, List.take_take]
    congr 2
    omega

/-- What the host shows after a change. -/
theorem deliver_host (dims : ℤ × ℤ) (last value : List UInt16) (text : List Char) :
    (Capture.deliver dims ⟨last, idle text⟩ value).host =
      idle (if last.length ≤ value.length then text ++ mapped (value.drop last.length)
        else text.rdrop (last.length - value.length)) := by
  unfold Capture.deliver changeEvents
  simp only
  by_cases hlong : value.length > last.length
  · rw [if_pos hlong, if_pos hlong.le, (typeText_executed dims _ text).2]
  · by_cases hshort : value.length < last.length
    · rw [if_neg hlong, if_pos hshort, if_neg hshort.not_ge, run_backspaces]
    · have hnil : value.drop last.length = [] := List.drop_of_length_le (not_lt.1 hlong)
      rw [if_neg hlong, if_neg hshort, if_pos (not_lt.1 hshort), hnil]
      exact congrArg idle (List.append_nil text).symm

/-- The host shows the mapped characters of the last value. -/
def InStep (c : Capture) : Prop := c.host = idle (mapped c.lastKeyboardText)

theorem inStep_reset : InStep {} := rfl

theorem mirrored_iff_follows (dims : ℤ × ℤ) {c : Capture} (h : InStep c) (s : Step) :
    Mirrored dims c s ↔ Follows c s := by
  cases s with
  | reset => exact Iff.rfl
  | changed value =>
    obtain ⟨last, host⟩ := c
    obtain rfl : host = idle (mapped last) := h
    show (Capture.deliver dims ⟨last, idle (mapped last)⟩ value).host.text = _ ↔ Followed last value
    rw [deliver_host]
    unfold Followed
    split
    · -- the value is split where the old one ended
      have hsplit : mapped value =
          mapped (value.take last.length) ++ mapped (value.drop last.length) := by
        rw [← Mobile.mapped_append, List.take_append_drop]
      rw [hsplit]
      exact (List.append_left_inj _).trans eq_comm
    · exact eq_comm

theorem InStep.step {dims : ℤ × ℤ} {c : Capture} (h : InStep c) {s : Step} (hs : Mirrored dims c s) :
    InStep (c.step dims s) := by
  cases s with
  | reset => exact inStep_reset
  | changed value =>
    obtain ⟨last, host⟩ := c
    obtain rfl : host = idle (mapped last) := h
    show InStep (if value.length > 64 then {} else Capture.deliver dims ⟨last, idle (mapped last)⟩ value)
    by_cases hlong : value.length > 64
    · rw [if_pos hlong]
      exact inStep_reset
    · rw [if_neg hlong]
      have hhost := deliver_host dims last value (mapped last)
      have htext : (Capture.deliver dims ⟨last, idle (mapped last)⟩ value).host.text = mapped value := hs
      rw [hhost] at htext
      exact hhost.trans (congrArg idle htext)

/-- The host mirrors the field at every change of a run if and only if every change can be followed. -/
theorem mirrored_iff (dims : ℤ × ℤ) (steps : List Step) :
    Run.Guarded (Capture.step dims) (Mirrored dims) {} steps ↔
      Run.Guarded (Capture.step dims) Follows {} steps :=
  Run.Guarded.congr (I := InStep) (fun _ s h => mirrored_iff_follows dims h s)
    (fun _ _ h hs => h.step hs) inStep_reset

/-- The code units of an ASCII text. -/
def units (s : String) : List UInt16 := s.toList.map fun c => UInt16.ofNat c.toNat

/-- A letter typed in front: the last letter of the field is typed again. -/
theorem inserted_in_front :
    ¬∀ (dims : ℤ × ℤ) (steps : List Step), Run.Guarded (Capture.step dims) (Mirrored dims) {} steps := by
  intro h
  have hrun := h (0, 0) [.changed (units "ab"), .changed (units "xab")]
  have htext : (Capture.deliver (0, 0) (Capture.step (0, 0) {} (.changed (units "ab")))
      (units "xab")).host.text = mapped (units "xab") := hrun.2.1
  exact absurd htext (by decide +kernel)

end DeskSync.Viewer.Keyboard
