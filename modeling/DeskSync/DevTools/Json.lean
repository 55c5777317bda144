import DeskSync.DevTools.Model
import DeskSync.Lib.Serde

/-!
# Developer actions as JSON

How the agent reads a `DevActionRequest`: the kind is flattened into the object of the request, tagged by
`action`, and buffered before it is read.
-/

namespace DeskSync.DevTools

open Json (only)
open Serde (snakeCase required optional)

/-- `{:?}`. -/
def Editor.debug : Editor → String
  | .vsCode => "VsCode"
  | .cursor => "Cursor"
  | .claude => "Claude"

def Editor.deserialize : Json → Option Editor :=
  Serde.unitVariant <| [.vsCode, .cursor, .claude].map fun e => (snakeCase e.debug, e)

def Terminal.deserialize : Json → Option Terminal :=
  Serde.unitVariant <|
    [.warp, .appleTerminal, .iTerm, .powerShell, .windowsTerminal].map fun t => (snakeCase t.debug, t)

def Tool.deserialize : Json → Option Tool :=
  Serde.unitVariant <| [.git, .docker, .kubectl, .helm].map fun t => (snakeCase t.debug, t)

/-- The variants of `DevActionKind`. -/
def actions : List (String × String) :=
  ["LaunchEditor", "OpenTerminal", "RunShortcut", "SshConnect"].map fun v => (snakeCase v, v)

def DevActionKind.deserializeVariant (content : Json) : String → Option DevActionKind
  | "LaunchEditor" =>
    match Serde.fields ["editor", "workspace_id"] content with
    | some [editor, workspaceID] => do
      let editor ← required Editor.deserialize editor
      let workspaceID ← optional Json.string workspaceID
      some (.launchEditor editor workspaceID)
    | _ => none
  | "OpenTerminal" =>
    match Serde.fields ["terminal", "workspace_id"] content with
    | some [terminal, workspaceID] => do
      let terminal ← required Terminal.deserialize terminal
      let workspaceID ← optional Json.string workspaceID
      some (.openTerminal terminal workspaceID)
    | _ => none
  | "RunShortcut" =>
    match Serde.fields ["tool", "shortcut_id", "workspace_id"] content with
    | some [tool, shortcutID, workspaceID] => do
      let tool ← required Tool.deserialize tool
      let shortcutID ← required Json.string shortcutID
      let workspaceID ← optional Json.string workspaceID
      some (.runShortcut tool shortcutID workspaceID)
    | _ => none
  | "SshConnect" =>
    match Serde.fields ["host_id", "terminal"] content with
    | some [hostID, terminal] => do
      let hostID ← required Json.string hostID
      let terminal ← required Terminal.deserialize terminal
      some (.sshConnect hostID terminal)
    | _ => none
  | _ => none

def DevActionKind.deserialize (j : Json) : Option DevActionKind := do
  let (tag, content) ← Serde.tagged "action" j
  DevActionKind.deserializeVariant content (← Serde.bufferedTag actions tag)

def DevActionRequest.deserialize : Json → Option DevActionRequest
  | .obj ms => do
    let requestID ← (← only "request_id" ms).string
    let kind ← DevActionKind.deserialize (.obj (ms.filter (·.1 ≠ "request_id")))
    some { requestID, kind }
  | _ => none

end DeskSync.DevTools
