import DeskSync.Mobile.Json
import DeskSync.Lib.Number

/-!
# Input events of the mobile client

`input_event.dart`, `touch_mapping.dart`, `key_codes.dart` and what `input_controller.dart` makes of
gestures and text. `F` is the type of the coordinates. A Dart string that need not be well formed is a list
of UTF-16 code units.

`typeText_eq`, `mapped_eq`: what a text types is decided code unit by code unit, so a text that is cut in two, even
inside a surrogate pair, types what it would type in one piece.
-/

namespace DeskSync.Mobile

/-! ### Events -/

/-- `Modifiers`; its last field is called `meta` in the source. -/
structure Modifiers where
  ctrl : Bool := false
  alt : Bool := false
  shift : Bool := false
  metaKey : Bool := false
  deriving DecidableEq, Repr

inductive PointerButton
  | left
  | right
  | middle
  deriving DecidableEq, Repr

inductive InputEvent (F : Type)
  | mouseMove (x y : F)
  | mouseButton (button : PointerButton) (pressed : Bool) (modifiers : Modifiers)
  | scroll (dx dy : F)
  | key (code : ℤ) (pressed : Bool) (modifiers : Modifiers)
  | clipboardText (text : String)
  deriving DecidableEq

/-! ### Gestures -/

structure NormalizedPoint where
  x : ℚ
  y : ℚ
  deriving DecidableEq

namespace TouchMapping

def clamp01 (v : ℚ) : ℚ := if v < 0 then 0 else if v > 1 then 1 else v

def normalize (localX localY surfaceWidth surfaceHeight : ℚ) : NormalizedPoint :=
  if surfaceWidth ≤ 0 ∨ surfaceHeight ≤ 0 then ⟨0, 0⟩
  else ⟨clamp01 (localX / surfaceWidth), clamp01 (localY / surfaceHeight)⟩

def click (p : NormalizedPoint) (button : PointerButton := .left) (modifiers : Modifiers := {}) :
    List (InputEvent ℚ) :=
  [.mouseMove p.x p.y, .mouseButton button true modifiers, .mouseButton button false modifiers]

def move (p : NormalizedPoint) : InputEvent ℚ := .mouseMove p.x p.y

def scroll (dxPixels dyPixels : ℚ) (scale : ℚ := 1 / 10) : InputEvent ℚ :=
  .scroll (dxPixels * scale) (-dyPixels * scale)

end TouchMapping

/-! ### Keys -/

namespace HidKey

def enter : ℤ := 0x28
def escape : ℤ := 0x29
def backspace : ℤ := 0x2A
def tab : ℤ := 0x2B
def space : ℤ := 0x2C

end HidKey

structure HidChar where
  code : ℤ
  shift : Bool := false
  deriving DecidableEq, Repr

/-- The cases of the `switch` of `hidForChar`. -/
def hidCases : List (Char × HidChar) :=
  [(' ', ⟨HidKey.space, false⟩), ('\n', ⟨HidKey.enter, false⟩), ('\t', ⟨HidKey.tab, false⟩),
    ('-', ⟨0x2D, false⟩), ('_', ⟨0x2D, true⟩), ('=', ⟨0x2E, false⟩), ('+', ⟨0x2E, true⟩),
    ('[', ⟨0x2F, false⟩), ('{', ⟨0x2F, true⟩), (']', ⟨0x30, false⟩), ('}', ⟨0x30, true⟩),
    ('\\', ⟨0x31, false⟩), ('|', ⟨0x31, true⟩), (';', ⟨0x33, false⟩), (':', ⟨0x33, true⟩),
    ('\'', ⟨0x34, false⟩), ('"', ⟨0x34, true⟩), ('`', ⟨0x35, false⟩), ('~', ⟨0x35, true⟩),
    (',', ⟨0x36, false⟩), ('<', ⟨0x36, true⟩), ('.', ⟨0x37, false⟩), ('>', ⟨0x37, true⟩),
    ('/', ⟨0x38, false⟩), ('?', ⟨0x38, true⟩), ('!', ⟨0x1E, true⟩), ('@', ⟨0x1F, true⟩),
    ('#', ⟨0x20, true⟩), ('$', ⟨0x21, true⟩), ('%', ⟨0x22, true⟩), ('^', ⟨0x23, true⟩),
    ('&', ⟨0x24, true⟩), ('*', ⟨0x25, true⟩), ('(', ⟨0x26, true⟩), (')', ⟨0x27, true⟩)]

/-- `hidForChar` of a string of one code unit. -/
def hidForUnit (unit : UInt16) : Option HidChar :=
  let c := unit.toNat
  if 0x61 ≤ c ∧ c ≤ 0x7A then some ⟨0x04 + (c - 0x61), false⟩
  else if 0x41 ≤ c ∧ c ≤ 0x5A then some ⟨0x04 + (c - 0x41), true⟩
  else if 0x31 ≤ c ∧ c ≤ 0x39 then some ⟨0x1E + (c - 0x31), false⟩
  else if c = '0'.toNat then some ⟨0x27, false⟩
  else (hidCases.find? (·.1.toNat = c)).map (·.2)

def hidForChar : List UInt16 → Option HidChar
  | [unit] => hidForUnit unit
  | _ => none

def keyEventsForChar (ch : List UInt16) : List (InputEvent ℚ) :=
  match hidForChar ch with
  | none => []
  | some mapped =>
    [.key mapped.code true { shift := mapped.shift }, .key mapped.code false { shift := mapped.shift }]

def keyEventsForCode (code : ℤ) : List (InputEvent ℚ) := [.key code true {}, .key code false {}]

/-! ### Text -/

def isHigh (unit : UInt16) : Bool := 0xD800 ≤ unit ∧ unit ≤ 0xDBFF

def isLow (unit : UInt16) : Bool := 0xDC00 ≤ unit ∧ unit ≤ 0xDFFF

/-- `String.runes`: a surrogate pair is one rune, a surrogate on its own is a rune, too. -/
def runes : List UInt16 → List ℕ
  | [] => []
  | [unit] => [unit.toNat]
  | high :: low :: rest =>
    if isHigh high ∧ isLow low then
      (0x10000 + (high.toNat - 0xD800) * 0x400 + (low.toNat - 0xDC00)) :: runes rest
    else high.toNat :: runes (low :: rest)

/-- `String.fromCharCode`. -/
def fromCharCode (rune : ℕ) : List UInt16 :=
  if rune < 0x10000 then [.ofNat rune]
  else [.ofNat (0xD800 + (rune - 0x10000) / 0x400), .ofNat (0xDC00 + (rune - 0x10000) % 0x400)]

/-- The events `typeText` dispatches. -/
def typeText (text : List UInt16) : List (InputEvent ℚ) :=
  (runes text).flatMap fun rune => keyEventsForChar (fromCharCode rune)

/-- The events `sendKey` dispatches. -/
def sendKey (hidCode : ℤ) : List (InputEvent ℚ) := keyEventsForCode hidCode

/-- The character, if `hidForChar` maps it. -/
def mappedChar (ch : List UInt16) : Option Char :=
  match ch with
  | [unit] => (hidForUnit unit).map fun _ => Char.ofNat unit.toNat
  | _ => none

/-- The characters of a text that `hidForChar` maps, in order. -/
def mapped (text : List UInt16) : List Char :=
  (runes text).filterMap fun rune => mappedChar (fromCharCode rune)

/-- Only ASCII is mapped. -/
theorem hidForUnit_ascii {unit : UInt16} {h : HidChar} (hu : hidForUnit unit = some h) :
    unit.toNat < 128 := by
  unfold hidForUnit at hu
  simp only at hu
  split at hu
  · omega
  · split at hu
    · omega
    · split at hu
      · omega
      · split at hu
        · next heq => exact heq ▸ (by decide)
        · obtain ⟨m, hm, -⟩ := Option.map_eq_some_iff.1 hu
          have hmem := List.mem_of_find?_eq_some hm
          have heq : m.1.toNat = unit.toNat := by simpa using List.find?_some hm
          have hall : ∀ m ∈ hidCases, m.1.toNat < 128 := by decide
          exact heq ▸ hall m hmem

theorem hidForUnit_surrogate {unit : UInt16} (h : isHigh unit ∨ isLow unit) :
    hidForUnit unit = none := by
  by_contra hne
  obtain ⟨m, hm⟩ := Option.ne_none_iff_exists'.1 hne
  have hlt := hidForUnit_ascii hm
  simp only [isHigh, isLow, decide_eq_true_eq, UInt16.le_iff_toNat_le] at h
  change (0xD800 ≤ _ ∧ _) ∨ (0xDC00 ≤ _ ∧ _) at h
  omega

theorem fromCharCode_unit (unit : UInt16) : fromCharCode unit.toNat = [unit] := by
  rw [fromCharCode, if_pos unit.toNat_lt, UInt16.ofNat_toNat]

/-- A surrogate pair types nothing, as its two code units do on their own. -/
theorem flatMap_runes {α : Type} (f : List UInt16 → List α) (hpair : ∀ a b, f [a, b] = [])
    (hhigh : ∀ a, isHigh a → f [a] = []) (hlow : ∀ a, isLow a → f [a] = []) (text : List UInt16) :
    (runes text).flatMap (fun rune => f (fromCharCode rune)) = text.flatMap fun unit => f [unit] := by
  induction text using runes.induct with
  | case1 => rfl
  | case2 unit => simp [runes, fromCharCode_unit]
  | case3 high low rest hsur ih =>
    have hlong : ¬0x10000 + (high.toNat - 0xD800) * 0x400 + (low.toNat - 0xDC00) < 0x10000 := by omega
    rw [runes, if_pos hsur, List.flatMap_cons, fromCharCode, if_neg hlong, hpair, List.nil_append, ih,
      List.flatMap_cons, List.flatMap_cons, hhigh high hsur.1, hlow low hsur.2]
    rfl
  | case4 high low rest hsur ih =>
    rw [runes, if_neg hsur, List.flatMap_cons, fromCharCode_unit, ih]
    exact (List.flatMap_cons (f := fun unit => f [unit])).symm

theorem typeText_eq (text : List UInt16) :
    typeText text = text.flatMap fun unit => keyEventsForChar [unit] := by
  refine flatMap_runes keyEventsForChar (fun a b => rfl) (fun a ha => ?_) (fun a ha => ?_) text
  · rw [keyEventsForChar, hidForChar, hidForUnit_surrogate (.inl ha)]
  · rw [keyEventsForChar, hidForChar, hidForUnit_surrogate (.inr ha)]

theorem mapped_eq (text : List UInt16) : mapped text = text.filterMap fun unit => mappedChar [unit] := by
  have hflat := flatMap_runes (fun ch => (mappedChar ch).toList) (fun a b => rfl)
    (fun a ha => by rw [mappedChar, hidForUnit_surrogate (.inl ha)]; rfl)
    (fun a ha => by rw [mappedChar, hidForUnit_surrogate (.inr ha)]; rfl) text
  simpa only [mapped, List.filterMap_eq_flatMap_toList] using hflat

theorem mapped_append (a b : List UInt16) : mapped (a ++ b) = mapped a ++ mapped b := by
  simp only [mapped_eq, List.filterMap_append]

end DeskSync.Mobile
