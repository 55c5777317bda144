import DeskSync.Mobile.Input

/-!
# What the mobile client sends to the agent

The developer actions (`dev_action.dart`) and their JSON, the JSON of the input events
(`input_event.dart`), and the sink that sends one frame for each event (`data_channel_input_sink.dart`).
The labels of the editors, terminals and tools are left out.

`distinct_request`, `distinct_event`: no object that is written has two members of one name.
-/

namespace DeskSync.Mobile

open Json (Distinct Members)

/-! ### Developer actions -/

inductive DevEditor
  | vsCode
  | cursor
  | claude
  deriving DecidableEq

def DevEditor.wire : DevEditor → String
  | .vsCode => "vs_code"
  | .cursor => "cursor"
  | .claude => "claude"

inductive DevTerminal
  | warp
  | appleTerminal
  | iTerm
  | powerShell
  | windowsTerminal
  deriving DecidableEq

def DevTerminal.wire : DevTerminal → String
  | .warp => "warp"
  | .appleTerminal => "apple_terminal"
  | .iTerm => "i_term"
  | .powerShell => "power_shell"
  | .windowsTerminal => "windows_terminal"

inductive DevTool
  | git
  | docker
  | kubectl
  | helm
  deriving DecidableEq

def DevTool.wire : DevTool → String
  | .git => "git"
  | .docker => "docker"
  | .kubectl => "kubectl"
  | .helm => "helm"

inductive DevAction
  | launchEditor (editor : DevEditor) (workspaceId : Option String)
  | openTerminal (terminal : DevTerminal) (workspaceId : Option String)
  | runShortcut (tool : DevTool) (shortcutId : String) (workspaceId : Option String)
  | sshConnect (hostId : String) (terminal : DevTerminal)
  deriving DecidableEq

def DevAction.action : DevAction → String
  | .launchEditor _ _ => "launch_editor"
  | .openTerminal _ _ => "open_terminal"
  | .runShortcut _ _ _ => "run_shortcut"
  | .sshConnect _ _ => "ssh_connect"

/-- `if (workspaceId != null) 'workspace_id': workspaceId`. -/
def workspaceField (workspaceId : Option String) : Members :=
  (workspaceId.map fun id => ("workspace_id", Json.str id)).toList

def DevAction.fields : DevAction → Members
  | .launchEditor editor workspaceId => ("editor", .str editor.wire) :: workspaceField workspaceId
  | .openTerminal terminal workspaceId => ("terminal", .str terminal.wire) :: workspaceField workspaceId
  | .runShortcut tool shortcutId workspaceId =>
    ("tool", .str tool.wire) :: ("shortcut_id", .str shortcutId) :: workspaceField workspaceId
  | .sshConnect hostId terminal => [("host_id", .str hostId), ("terminal", .str terminal.wire)]

structure DevActionRequest where
  requestId : String
  action : DevAction
  deriving DecidableEq

def DevActionRequest.toJson (r : DevActionRequest) : Json :=
  .obj (("request_id", .str r.requestId) :: ("action", .str r.action.action) :: r.action.fields)

/-! ### Input events -/

def Modifiers.toJson (m : Modifiers) : Json :=
  .obj [("ctrl", .bool m.ctrl), ("alt", .bool m.alt), ("shift", .bool m.shift), ("meta", .bool m.metaKey)]

def PointerButton.name : PointerButton → String
  | .left => "left"
  | .right => "right"
  | .middle => "middle"

variable {F : Type} (double : F → Number)

/-- `toJson`; `double` is how a coordinate is written. -/
def InputEvent.toJson : InputEvent F → Json
  | .mouseMove x y => .obj [("type", .str "mouse_move"), ("x", .num (double x)), ("y", .num (double y))]
  | .mouseButton button pressed modifiers =>
    .obj [("type", .str "mouse_button"), ("button", .str button.name), ("pressed", .bool pressed),
      ("modifiers", modifiers.toJson)]
  | .scroll dx dy => .obj [("type", .str "scroll"), ("dx", .num (double dx)), ("dy", .num (double dy))]
  | .key code pressed modifiers =>
    .obj [("type", .str "key"), ("code", intToJson code), ("pressed", .bool pressed),
      ("modifiers", modifiers.toJson)]
  | .clipboardText text => .obj [("type", .str "clipboard_text"), ("text", .str text)]

/-- The number of events sent, and the frames on the channel. -/
structure DataChannelInputSink (Raw : Type) where
  count : ℕ := 0
  frames : List Raw := []

variable {Raw : Type} (jsonEncode : Json → Raw)

def DataChannelInputSink.send (sink : DataChannelInputSink Raw) (event : InputEvent F) :
    DataChannelInputSink Raw where
  count := sink.count + 1
  frames := sink.frames ++ [jsonEncode (event.toJson double)]

def DataChannelInputSink.sendAll (sink : DataChannelInputSink Raw) (events : List (InputEvent F)) :
    DataChannelInputSink Raw :=
  events.foldl (DataChannelInputSink.send double jsonEncode) sink

/-- One frame for each event, in order. -/
theorem sendAll_frames (sink : DataChannelInputSink Raw) (events : List (InputEvent F)) :
    (sink.sendAll double jsonEncode events).frames =
      sink.frames ++ events.map fun e => jsonEncode (e.toJson double) := by
  induction events generalizing sink with
  | nil => exact (List.append_nil _).symm
  | cons e events ih =>
    rw [DataChannelInputSink.sendAll, List.foldl_cons]
    exact (ih _).trans (List.append_assoc ..)

/-! ### Names -/

theorem workspaceField_cases (workspaceId : Option String) : workspaceField workspaceId = [] ∨
    ∃ id, workspaceField workspaceId = [("workspace_id", .str id)] := by
  cases workspaceId with
  | none => exact .inl rfl
  | some id => exact .inr ⟨id, rfl⟩

theorem nodup_request (r : DevActionRequest) :
    ((("request_id", Json.str r.requestId) :: ("action", .str r.action.action) :: r.action.fields).map
      Prod.fst).Nodup := by
  cases r.action with
  | launchEditor editor workspaceId | openTerminal terminal workspaceId
  | runShortcut tool shortcutId workspaceId =>
    rcases workspaceField_cases workspaceId with h | ⟨id, h⟩ <;> simp [DevAction.fields, h]
  | sshConnect hostId terminal => simp [DevAction.fields]

theorem distinct_request (r : DevActionRequest) : Distinct r.toJson := by
  refine .obj _ (nodup_request r) ?_
  have hfields : ∀ f ∈ r.action.fields, Distinct f.2 := by
    cases r.action with
    | launchEditor editor workspaceId | openTerminal terminal workspaceId
    | runShortcut tool shortcutId workspaceId =>
      rcases workspaceField_cases workspaceId with h | ⟨id, h⟩ <;> simp [DevAction.fields, h, Distinct.str]
    | sshConnect hostId terminal => simp [DevAction.fields, Distinct.str]
  intro m hm
  rcases List.mem_cons.1 hm with rfl | hm
  · exact .str _
  · rcases List.mem_cons.1 hm with rfl | hm
    · exact .str _
    · exact hfields m hm

theorem nodup_modifiers (m : Modifiers) :
    ([("ctrl", Json.bool m.ctrl), ("alt", .bool m.alt), ("shift", .bool m.shift), ("meta", .bool m.metaKey)].map
      Prod.fst).Nodup := by simp

theorem distinct_modifiers (m : Modifiers) : Distinct m.toJson := by
  refine .obj _ (nodup_modifiers m) ?_
  simp [Distinct.bool]

theorem distinct_event (e : InputEvent F) : Distinct (e.toJson double) := by
  cases e with
  | mouseMove x y => exact .obj _ (by simp) (by simp [Distinct.str, Distinct.num])
  | mouseButton button pressed modifiers =>
    exact .obj _ (by simp) (by simp [Distinct.str, Distinct.bool, distinct_modifiers])
  | scroll dx dy => exact .obj _ (by simp) (by simp [Distinct.str, Distinct.num])
  | key code pressed modifiers =>
    exact .obj _ (by simp) (by simp [Distinct.str, Distinct.bool, Distinct.num, intToJson, distinct_modifiers])
  | clipboardText text => exact .obj _ (by simp) (by simp [Distinct.str])

end DeskSync.Mobile
