import DeskSync.Agent.InputJson
import DeskSync.DevTools.Json
import DeskSync.Mobile.Commands
import DeskSync.Session.Typing

/-!
# Commands from the phone to the agent

What the mobile client writes (`Mobile.DevActionRequest.toJson`, `Mobile.InputEvent.toJson`), read by what
serde derives for the agent. Of the two JSON libraries it is assumed that a document with distinct names
comes across as it was written, and that the agent reads a finite coordinate as the number the client wrote
(`Wire`).

`commands_cross`: every request is read as the request it was, and the frames of a list of events are read,
one by one and in order, as these events.
-/

namespace DeskSync.Session.Commands

open Json (Distinct)
open Session.Typing (agentEvent agentModifiers agentButton)

/-- `jsonEncode` of the client and `from_str` of the agent, up to the document that is read, and how the
coordinates, finite doubles, are written and read. -/
structure Wire (F Raw : Type) where
  jsonEncode : Json → Raw
  fromStr : Raw → Option Json
  double : F → Number
  f64 : Number → Option F
  faithful : ∀ j, Distinct j → fromStr (jsonEncode j) = some j
  f64_double : ∀ x, f64 (double x) = some x

/-! ### Requests -/

def agentEditor : Mobile.DevEditor → DevTools.Editor
  | .vsCode => .vsCode
  | .cursor => .cursor
  | .claude => .claude

def agentTerminal : Mobile.DevTerminal → DevTools.Terminal
  | .warp => .warp
  | .appleTerminal => .appleTerminal
  | .iTerm => .iTerm
  | .powerShell => .powerShell
  | .windowsTerminal => .windowsTerminal

def agentTool : Mobile.DevTool → DevTools.Tool
  | .git => .git
  | .docker => .docker
  | .kubectl => .kubectl
  | .helm => .helm

def agentAction : Mobile.DevAction → DevTools.DevActionKind
  | .launchEditor editor workspaceId => .launchEditor (agentEditor editor) workspaceId
  | .openTerminal terminal workspaceId => .openTerminal (agentTerminal terminal) workspaceId
  | .runShortcut tool shortcutId workspaceId => .runShortcut (agentTool tool) shortcutId workspaceId
  | .sshConnect hostId terminal => .sshConnect hostId (agentTerminal terminal)

/-- The request of the agent that corresponds to one of the phone. -/
def agentRequest (r : Mobile.DevActionRequest) : DevTools.DevActionRequest where
  requestID := r.requestId
  kind := agentAction r.action

theorem editor_crosses (e : Mobile.DevEditor) :
    DevTools.Editor.deserialize (.str e.wire) = some (agentEditor e) := by
  cases e <;> decide +kernel

theorem terminal_crosses (t : Mobile.DevTerminal) :
    DevTools.Terminal.deserialize (.str t.wire) = some (agentTerminal t) := by
  cases t <;> decide +kernel

theorem tool_crosses (t : Mobile.DevTool) :
    DevTools.Tool.deserialize (.str t.wire) = some (agentTool t) := by
  cases t <;> decide +kernel

/-- The name of the variant that is read. -/
def variantOf : Mobile.DevAction → String
  | .launchEditor _ _ => "LaunchEditor"
  | .openTerminal _ _ => "OpenTerminal"
  | .runShortcut _ _ _ => "RunShortcut"
  | .sshConnect _ _ => "SshConnect"

theorem actions_lookup : ∀ p ∈ [("launch_editor", "LaunchEditor"), ("open_terminal", "OpenTerminal"),
    ("run_shortcut", "RunShortcut"), ("ssh_connect", "SshConnect")],
    DevTools.actions.lookup p.1 = some p.2 := by
  decide +kernel

theorem action_crosses (a : Mobile.DevAction) :
    Serde.bufferedTag DevTools.actions (.str a.action) = some (variantOf a) := by
  cases a with
  | launchEditor => exact actions_lookup ("launch_editor", "LaunchEditor") (by simp)
  | openTerminal => exact actions_lookup ("open_terminal", "OpenTerminal") (by simp)
  | runShortcut => exact actions_lookup ("run_shortcut", "RunShortcut") (by simp)
  | sshConnect => exact actions_lookup ("ssh_connect", "SshConnect") (by simp)

/-- The optional field, which is written only if there is a value. -/
theorem workspace_crosses (workspaceId : Option String) :
    Serde.optional Json.string ((Mobile.workspaceField workspaceId).lookup "workspace_id") =
      some workspaceId := by
  cases workspaceId <;> rfl

theorem fields_cross (a : Mobile.DevAction) (hfields : (a.fields.map Prod.fst).Nodup) :
    DevTools.DevActionKind.deserializeVariant (.obj a.fields) (variantOf a) = some (agentAction a) := by
  cases a with
  | launchEditor editor workspaceId =>
    simp only [variantOf, DevTools.DevActionKind.deserializeVariant, Serde.fields_obj hfields, List.map_cons,
      List.map_nil]
    simp [Mobile.DevAction.fields, List.lookup_cons, Serde.required, editor_crosses, workspace_crosses,
      agentAction]
  | openTerminal terminal workspaceId =>
    simp only [variantOf, DevTools.DevActionKind.deserializeVariant, Serde.fields_obj hfields, List.map_cons,
      List.map_nil]
    simp [Mobile.DevAction.fields, List.lookup_cons, Serde.required, terminal_crosses, workspace_crosses,
      agentAction]
  | runShortcut tool shortcutId workspaceId =>
    simp only [variantOf, DevTools.DevActionKind.deserializeVariant, Serde.fields_obj hfields, List.map_cons,
      List.map_nil]
    simp [Mobile.DevAction.fields, List.lookup_cons, Serde.required, tool_crosses, workspace_crosses,
      agentAction, Json.string]
  | sshConnect hostId terminal =>
    simp only [variantOf, DevTools.DevActionKind.deserializeVariant, Serde.fields_obj hfields, List.map_cons,
      List.map_nil]
    simp [Mobile.DevAction.fields, List.lookup_cons, Serde.required, terminal_crosses, agentAction, Json.string]

theorem request_crosses (r : Mobile.DevActionRequest) :
    DevTools.DevActionRequest.deserialize r.toJson = some (agentRequest r) := by
  have hnodup := Mobile.nodup_request r
  have haction : ((("action", Json.str r.action.action) :: r.action.fields).map Prod.fst).Nodup :=
    (List.nodup_cons.1 hnodup).2
  have hkind : DevTools.DevActionKind.deserialize
      (.obj (("action", .str r.action.action) :: r.action.fields)) = some (agentAction r.action) := by
    rw [DevTools.DevActionKind.deserialize, Serde.tagged_cons haction]
    simp only [Option.bind_eq_bind, Option.bind_some, action_crosses]
    exact fields_cross r.action (List.nodup_cons.1 haction).2
  rw [Mobile.DevActionRequest.toJson, DevTools.DevActionRequest.deserialize]
  simp only [Serde.only_obj hnodup, List.lookup_cons_self, Serde.filter_cons hnodup, hkind, Json.string,
    Option.bind_eq_bind, Option.bind_some]
  rfl

/-! ### Events -/

variable {F Raw : Type}

theorem modifiers_cross (m : Mobile.Modifiers) :
    Agent.Input.Modifiers.deserialize m.toJson = some (agentModifiers m) := by
  rw [Agent.Input.Modifiers.deserialize, Mobile.Modifiers.toJson, Serde.fields_obj (Mobile.nodup_modifiers m)]
  rfl

theorem button_crosses (b : Mobile.PointerButton) :
    Agent.Input.MouseButton.deserialize (.str b.name) = some (agentButton b) := by
  cases b <;> decide +kernel

theorem variants_lookup : ∀ p ∈ [("mouse_move", "MouseMove"), ("mouse_button", "MouseButton"),
    ("scroll", "Scroll"), ("key", "Key"), ("clipboard_text", "ClipboardText")],
    Agent.Input.variants.lookup p.1 = some p.2 := by
  decide +kernel

/-- An event, from its tag and its fields. -/
theorem event_of_fields {f64 : Number → Option F} {type : String} {fields : Json.Members} (variant : String)
    (htype : (type, variant) ∈ [("mouse_move", "MouseMove"), ("mouse_button", "MouseButton"),
      ("scroll", "Scroll"), ("key", "Key"), ("clipboard_text", "ClipboardText")])
    (hnames : ((("type", Json.str type) :: fields).map Prod.fst).Nodup) :
    Agent.Input.InputEvent.deserialize f64 (.obj (("type", .str type) :: fields)) =
      Agent.Input.InputEvent.deserializeVariant f64 (.obj fields) variant := by
  rw [Agent.Input.InputEvent.deserialize, Serde.tagged_cons hnames]
  simp only [Option.bind_eq_bind, Option.bind_some, Json.string, variants_lookup _ htype]

/-- The code of a key is one of `u32`. -/
def InRange : Mobile.InputEvent F → Prop
  | .key code _ _ => 0 ≤ code ∧ code < 2 ^ 32
  | _ => True

theorem code_crosses {code : ℤ} (h0 : 0 ≤ code) (hlt : code < 2 ^ 32) :
    (Mobile.intToJson code).uint UInt32.size = some code.toNat := by
  have hneg : decide (code < 0) = false := decide_eq_false h0.not_gt
  have habs : code.natAbs = code.toNat := by omega
  rw [Mobile.intToJson, hneg, habs]
  exact Json.uint_num (by rw [UInt32.size]; omega)

theorem event_crosses (W : Wire F Raw) (e : Mobile.InputEvent F) (he : InRange e) :
    Agent.Input.InputEvent.deserialize W.f64 (e.toJson W.double) = some (agentEvent e) := by
  have hfloat (x : F) : Serde.float W.f64 (.num (W.double x)) = some x := W.f64_double x
  cases e with
  | mouseMove x y =>
    refine (event_of_fields "MouseMove" (by simp) (by simp)).trans ?_
    rw [Agent.Input.InputEvent.deserializeVariant, Serde.fields_obj (by simp)]
    simp [List.lookup_cons, Serde.required, hfloat, agentEvent]
  | mouseButton button pressed modifiers =>
    refine (event_of_fields "MouseButton" (by simp) (by simp)).trans ?_
    rw [Agent.Input.InputEvent.deserializeVariant, Serde.fields_obj (by simp)]
    simp [List.lookup_cons, Serde.required, Serde.defaulted, Serde.boolean, button_crosses, modifiers_cross,
      agentEvent]
  | scroll dx dy =>
    refine (event_of_fields "Scroll" (by simp) (by simp)).trans ?_
    rw [Agent.Input.InputEvent.deserializeVariant, Serde.fields_obj (by simp)]
    simp [List.lookup_cons, Serde.required, hfloat, agentEvent]
  | key code pressed modifiers =>
    refine (event_of_fields "Key" (by simp) (by simp)).trans ?_
    rw [Agent.Input.InputEvent.deserializeVariant, Serde.fields_obj (by simp)]
    simp [List.lookup_cons, Serde.required, Serde.defaulted, Serde.boolean, code_crosses he.1 he.2,
      modifiers_cross, agentEvent]
  | clipboardText text =>
    refine (event_of_fields "ClipboardText" (by simp) (by simp)).trans ?_
    rw [Agent.Input.InputEvent.deserializeVariant, Serde.fields_obj (by simp)]
    simp [List.lookup_cons, Serde.required, Json.string, agentEvent]

/-! ### Frames -/

/-- `from_str` of the agent, for a request and for an event. -/
def readRequest (W : Wire F Raw) (frame : Raw) : Option DevTools.DevActionRequest :=
  (W.fromStr frame).bind DevTools.DevActionRequest.deserialize

def readEvent (W : Wire F Raw) (frame : Raw) : Option (Agent.Input.InputEvent F) :=
  (W.fromStr frame).bind (Agent.Input.InputEvent.deserialize W.f64)

/-- Every request of the phone is read as the corresponding request, and the frames that `sendAll` puts on
the channel are read, in order, as the corresponding events. -/
theorem commands_cross (W : Wire F Raw) (request : Mobile.DevActionRequest)
    (sink : Mobile.DataChannelInputSink Raw) (events : List (Mobile.InputEvent F))
    (hcodes : ∀ e ∈ events, InRange e) :
    readRequest W (W.jsonEncode request.toJson) = some (agentRequest request) ∧
      ∃ frames, (sink.sendAll W.double W.jsonEncode events).frames = sink.frames ++ frames ∧
        frames.map (readEvent W) = events.map fun e => some (agentEvent e) := by
  refine ⟨?_, _, Mobile.sendAll_frames W.double W.jsonEncode sink events, ?_⟩
  · rw [readRequest, W.faithful _ (Mobile.distinct_request request)]
    exact request_crosses request
  · rw [List.map_map]
    refine List.map_congr_left fun e he => ?_
    rw [Function.comp_apply, readEvent, W.faithful _ (Mobile.distinct_event W.double e)]
    exact event_crosses W e (hcodes e he)

/-- Documents that are texts already, with coordinates as they are written. -/
def documents : Wire Number Json where
  jsonEncode := id
  fromStr := some
  double := id
  f64 := some
  faithful := fun _ _ => rfl
  f64_double := fun _ => rfl

/-- A shortcut with an empty id; a move to the middle and a click. -/
theorem shortcut_and_click : readRequest documents
      (Mobile.DevActionRequest.toJson ⟨"r1", .runShortcut .git "status" (some "")⟩) =
        some ⟨"r1", .runShortcut .git "status" (some "")⟩ ∧
    ∃ frames, (Mobile.DataChannelInputSink.sendAll id id {}
        [.mouseMove (.dec false 5 (-1)) (.dec false 5 (-1)), .mouseButton .left true {},
          .key 0x28 true {}]).frames = [] ++ frames ∧
      frames.map (readEvent documents) =
        [some (.mouseMove (.dec false 5 (-1)) (.dec false 5 (-1))), some (.mouseButton .left true {}),
          some (.key 0x28 true {})] :=
  commands_cross documents ⟨"r1", .runShortcut .git "status" (some "")⟩ {}
    [.mouseMove (.dec false 5 (-1)) (.dec false 5 (-1)), .mouseButton .left true {}, .key 0x28 true {}]
    (by simp [InRange])

end DeskSync.Session.Commands
