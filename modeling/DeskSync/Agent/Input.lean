import DeskSync.Lib.Number
import DeskSync.Lib.Proc

/-!
# Input injection of the agent

`desksync-input`: the events (`lib.rs`), the key table (`mapping.rs`), and `execute` of the native
injector (`native.rs`) over the calls it makes on the operating system, each of which may fail. `F` is the
type of the coordinates; `execute` computes with exact fractions.

`Host` is the side of the operating system: what is held down, and what a keyboard with the US layout has
typed. `run_attempt`: where no call fails, all calls of an event are made.
-/

namespace DeskSync.Agent.Input

open Number Proc

/-! ### Events -/

/-- `Modifiers`; its last field is called `meta` in the source. -/
structure Modifiers where
  ctrl : Bool := false
  alt : Bool := false
  shift : Bool := false
  metaKey : Bool := false
  deriving DecidableEq, Repr

inductive MouseButton
  | left
  | right
  | middle
  deriving DecidableEq, Repr

inductive InputEvent (F : Type)
  | mouseMove (x y : F)
  | mouseButton (button : MouseButton) (pressed : Bool) (modifiers : Modifiers)
  | scroll (dx dy : F)
  | key (code : UInt32) (pressed : Bool) (modifiers : Modifiers)
  | clipboardText (text : String)
  deriving DecidableEq

/-! ### `mapping.rs` -/

def normalizedToPixel (x y : ℚ) (width height : UInt32) : ℤ × ℤ :=
  let cx := clamp 0 1 x
  let cy := clamp 0 1 y
  let maxX : ℚ := (width.toNat - 1 : ℕ)
  let maxY : ℚ := (height.toNat - 1 : ℕ)
  (asI32 (roundAway (cx * maxX)), asI32 (roundAway (cy * maxY)))

inductive NamedKey
  | enter
  | escape
  | backspace
  | tab
  | space
  | capsLock
  | delete
  | home
  | end
  | pageUp
  | pageDown
  | arrowRight
  | arrowLeft
  | arrowDown
  | arrowUp
  | f (n : UInt8)
  deriving DecidableEq, Repr

inductive PhysicalKey
  | char (c : Char)
  | named (k : NamedKey)
  deriving DecidableEq, Repr

def mapHidKey (code : UInt32) : Option PhysicalKey :=
  let n := code.toNat
  if 0x04 ≤ n ∧ n ≤ 0x1D then some (.char (Char.ofNat ('a'.toNat + (n - 0x04))))
  else if 0x1E ≤ n ∧ n ≤ 0x26 then some (.char (Char.ofNat ('1'.toNat + (n - 0x1E))))
  else if 0x3A ≤ n ∧ n ≤ 0x45 then some (.named (.f (UInt8.ofNat (n - 0x3A + 1))))
  else match n with
    | 0x27 => some (.char '0')
    | 0x28 => some (.named .enter)
    | 0x29 => some (.named .escape)
    | 0x2A => some (.named .backspace)
    | 0x2B => some (.named .tab)
    | 0x2C => some (.named .space)
    | 0x2D => some (.char '-')
    | 0x2E => some (.char '=')
    | 0x2F => some (.char '[')
    | 0x30 => some (.char ']')
    | 0x31 => some (.char '\\')
    | 0x33 => some (.char ';')
    | 0x34 => some (.char '\'')
    | 0x35 => some (.char '`')
    | 0x36 => some (.char ',')
    | 0x37 => some (.char '.')
    | 0x38 => some (.char '/')
    | 0x39 => some (.named .capsLock)
    | 0x4C => some (.named .delete)
    | 0x4A => some (.named .home)
    | 0x4D => some (.named .end)
    | 0x4B => some (.named .pageUp)
    | 0x4E => some (.named .pageDown)
    | 0x4F => some (.named .arrowRight)
    | 0x50 => some (.named .arrowLeft)
    | 0x51 => some (.named .arrowDown)
    | 0x52 => some (.named .arrowUp)
    | _ => none

/-! ### `native.rs` -/

/-- The keys of the `enigo` crate that are used; `f n` is `Fn`. -/
inductive Key
  | control
  | alt
  | shift
  | metaKey
  | unicode (c : Char)
  | return
  | escape
  | backspace
  | tab
  | space
  | capsLock
  | delete
  | home
  | end
  | pageUp
  | pageDown
  | rightArrow
  | leftArrow
  | downArrow
  | upArrow
  | f (n : ℕ)
  deriving DecidableEq, Repr

inductive Button
  | left
  | right
  | middle
  deriving DecidableEq, Repr

inductive Direction
  | press
  | release
  deriving DecidableEq, Repr

inductive Axis
  | vertical
  | horizontal
  deriving DecidableEq, Repr

/-- The calls on the operating system. -/
inductive Call
  | moveMouse (x y : ℤ)
  | key (k : Key) (d : Direction)
  | button (b : Button) (d : Direction)
  | scroll (length : ℤ) (axis : Axis)
  | openClipboard
  | setText (text : String)
  deriving DecidableEq, Repr

/-- What a call answers: nothing, or the text of its error. -/
abbrev Reply (_ : Call) := Except String Unit

/-- `AgentError::subsystem`. -/
structure AgentError where
  subsystem : String
  message : String
  deriving DecidableEq, Repr

def modifierKeys (m : Modifiers) : List Key :=
  (if m.ctrl then [.control] else []) ++ (if m.alt then [.alt] else []) ++
    (if m.shift then [.shift] else []) ++ if m.metaKey then [.metaKey] else []

def namedToEnigo : NamedKey → Option Key
  | .enter => some .return
  | .escape => some .escape
  | .backspace => some .backspace
  | .tab => some .tab
  | .space => some .space
  | .capsLock => some .capsLock
  | .delete => some .delete
  | .home => some .home
  | .end => some .end
  | .pageUp => some .pageUp
  | .pageDown => some .pageDown
  | .arrowRight => some .rightArrow
  | .arrowLeft => some .leftArrow
  | .arrowDown => some .downArrow
  | .arrowUp => some .upArrow
  | .f n => if 1 ≤ n.toNat ∧ n.toNat ≤ 12 then some (.f n.toNat) else none

def physicalToEnigo : PhysicalKey → Option Key
  | .char c => some (.unicode c)
  | .named n => namedToEnigo n

def toButton : MouseButton → Button
  | .left => .left
  | .right => .right
  | .middle => .middle

/-- The error of a call. -/
def Call.error (message : String) : Call → AgentError
  | .openClipboard => ⟨"clipboard", "open: " ++ message⟩
  | .setText _ => ⟨"clipboard", "write: " ++ message⟩
  | _ => ⟨"input", message⟩

/-- Calls one after the other, up to the first that fails. -/
def attempt : List Call → Prog Reply (Except AgentError Unit)
  | [] => .ret (.ok ())
  | c :: calls => .call c fun
    | .ok () => attempt calls
    | .error e => .ret (.error (c.error e))

/-- The modifiers, then the key or the button; and the other way round. -/
def chord (mods : List Key) (call : Direction → Call) (pressed : Bool) : List Call :=
  if pressed then mods.map (.key · .press) ++ [call .press]
  else call .release :: mods.reverse.map (.key · .release)

/-- The calls of an event, unless its key is not mapped. -/
def calls (dims : ℤ × ℤ) : InputEvent ℚ → Except AgentError (List Call)
  | .mouseMove x y =>
    let p := normalizedToPixel x y (.ofNat (max dims.1 1).toNat) (.ofNat (max dims.2 1).toNat)
    .ok [.moveMouse p.1 p.2]
  | .mouseButton button pressed modifiers =>
    .ok (chord (modifierKeys modifiers) (.button (toButton button)) pressed)
  | .scroll dx dy =>
    .ok ((if dy ≠ 0 then [.scroll (asI32 (-dy)) .vertical] else []) ++
      if dx ≠ 0 then [.scroll (asI32 dx) .horizontal] else [])
  | .key code pressed modifiers =>
    match (mapHidKey code).bind physicalToEnigo with
    | none => .error ⟨"input", "unmapped key code " ++ toString code.toNat⟩
    | some key => .ok (chord (modifierKeys modifiers) (.key key) pressed)
  | .clipboardText text => .ok [.openClipboard, .setText text]

def execute (dims : ℤ × ℤ) (event : InputEvent ℚ) : Prog Reply (Except AgentError Unit) :=
  match calls dims event with
  | .error e => .ret (.error e)
  | .ok cs => attempt cs

/-! ### The host -/

/-- What can be held down. -/
inductive Held
  | key (k : Key)
  | button (b : Button)
  deriving DecidableEq, Repr

/-- What is held down by injected calls, and what they have typed. -/
structure Host where
  held : Held → Bool := fun _ => false
  text : List Char := []

/-- The symbol above a key of the US layout. -/
def shifted (c : Char) : Char :=
  if 'a' ≤ c ∧ c ≤ 'z' then c.toUpper
  else
    ([('1', '!'), ('2', '@'), ('3', '#'), ('4', '$'), ('5', '%'), ('6', '^'), ('7', '&'), ('8', '*'),
      ('9', '('), ('0', ')'), ('-', '_'), ('=', '+'), ('[', '{'), (']', '}'), ('\\', '|'), (';', ':'),
      ('\'', '"'), ('`', '~'), (',', '<'), ('.', '>'), ('/', '?')].lookup c).getD c

/-- The character a key types. -/
def symbol : Key → Bool → Option Char
  | .unicode c, shift => some (if shift then shifted c else c)
  | .return, _ => some '\n'
  | .tab, _ => some '\t'
  | .space, _ => some ' '
  | _, _ => none

namespace Host

/-- A key that goes down types its symbol, unless it is part of a shortcut. -/
def typed (h : Host) (k : Key) : List Char :=
  if h.held (.key .control) ∨ h.held (.key .alt) ∨ h.held (.key .metaKey) then h.text
  else if k = .backspace then h.text.dropLast
  else h.text ++ (symbol k (h.held (.key .shift))).toList

def apply (h : Host) : Call → Host
  | .key k .press => { held := Function.update h.held (.key k) true, text := h.typed k }
  | .key k .release => { h with held := Function.update h.held (.key k) false }
  | .button b .press => { h with held := Function.update h.held (.button b) true }
  | .button b .release => { h with held := Function.update h.held (.button b) false }
  | _ => h

/-- A call that fails has no effect. -/
def exec (fault : Option String) (c : Call) (h : Host) : Reply c × Host :=
  match fault with
  | some e => (.error e, h)
  | none => (.ok (), h.apply c)

/-- Events executed one after the other, without a failing call. -/
def executeAll (dims : ℤ × ℤ) : List (InputEvent ℚ) → Host → List (Except AgentError Unit) × Host
  | [], h => ([], h)
  | e :: events, h =>
    let r := (execute dims e).run exec (fun _ => none) h
    let rest := executeAll dims events r.2
    (r.1 :: rest.1, rest.2)

end Host

/-- Where no call fails, all calls are made. -/
theorem run_attempt (cs : List Call) (h : Host) :
    (attempt cs).run Host.exec (fun _ => none) h = (.ok (), cs.foldl Host.apply h) := by
  induction cs generalizing h with
  | nil => rfl
  | cons c cs ih => exact ih (h.apply c)

theorem run_execute {dims : ℤ × ℤ} {e : InputEvent ℚ} {cs : List Call} (hcs : calls dims e = .ok cs)
    (h : Host) :
    (execute dims e).run Host.exec (fun _ => none) h = (.ok (), cs.foldl Host.apply h) := by
  unfold execute
  rw [hcs]
  exact run_attempt cs h

theorem executeAll_append (dims : ℤ × ℤ) (es es' : List (InputEvent ℚ)) (h : Host) :
    Host.executeAll dims (es ++ es') h =
      ((Host.executeAll dims es h).1 ++ (Host.executeAll dims es' (Host.executeAll dims es h).2).1,
        (Host.executeAll dims es' (Host.executeAll dims es h).2).2) := by
  induction es generalizing h with
  | nil => rfl
  | cons e es ih => simp only [List.cons_append, Host.executeAll, ih]

end DeskSync.Agent.Input
