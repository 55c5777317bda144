import DeskSync.Agent.Input
import DeskSync.Lib.Serde

/-!
# Input events as JSON

How the agent reads an `InputEvent`, which is tagged by `type` and buffered before it is read; `f64` reads
a number as a coordinate.
-/

namespace DeskSync.Agent.Input

open Serde (snakeCase required defaulted)

def Modifiers.deserialize (j : Json) : Option Modifiers :=
  match Serde.fields ["ctrl", "alt", "shift", "meta"] j with
  | some [ctrl, alt, shift, metaKey] => do
    let ctrl ← required Serde.boolean ctrl
    let alt ← required Serde.boolean alt
    let shift ← required Serde.boolean shift
    let metaKey ← required Serde.boolean metaKey
    some { ctrl, alt, shift, metaKey }
  | _ => none

/-- `{:?}`. -/
def MouseButton.debug : MouseButton → String
  | .left => "Left"
  | .right => "Right"
  | .middle => "Middle"

def MouseButton.deserialize : Json → Option MouseButton :=
  Serde.unitVariant <| [.left, .right, .middle].map fun b => (Serde.lowercase b.debug, b)

/-- The variants of `InputEvent`. -/
def variants : List (String × String) :=
  ["MouseMove", "MouseButton", "Scroll", "Key", "ClipboardText"].map fun v => (snakeCase v, v)

variable {F : Type} (f64 : Number → Option F)

def InputEvent.deserializeVariant (content : Json) : String → Option (InputEvent F)
  | "MouseMove" =>
    match Serde.fields ["x", "y"] content with
    | some [x, y] => do
      let x ← required (Serde.float f64) x
      let y ← required (Serde.float f64) y
      some (.mouseMove x y)
    | _ => none
  | "MouseButton" =>
    match Serde.fields ["button", "pressed", "modifiers"] content with
    | some [button, pressed, modifiers] => do
      let button ← required MouseButton.deserialize button
      let pressed ← required Serde.boolean pressed
      let modifiers ← defaulted {} Modifiers.deserialize modifiers
      some (.mouseButton button pressed modifiers)
    | _ => none
  | "Scroll" =>
    match Serde.fields ["dx", "dy"] content with
    | some [dx, dy] => do
      let dx ← required (Serde.float f64) dx
      let dy ← required (Serde.float f64) dy
      some (.scroll dx dy)
    | _ => none
  | "Key" =>
    match Serde.fields ["code", "pressed", "modifiers"] content with
    | some [code, pressed, modifiers] => do
      let code ← required (Json.uint UInt32.size) code
      let pressed ← required Serde.boolean pressed
      let modifiers ← defaulted {} Modifiers.deserialize modifiers
      some (.key (.ofNat code) pressed modifiers)
    | _ => none
  | "ClipboardText" =>
    match Serde.fields ["text"] content with
    | some [text] => do
      let text ← required Json.string text
      some (.clipboardText text)
    | _ => none
  | _ => none

def InputEvent.deserialize (j : Json) : Option (InputEvent F) := do
  let (tag, content) ← Serde.tagged "type" j
  InputEvent.deserializeVariant f64 content (← variants.lookup (← tag.string))

end DeskSync.Agent.Input
