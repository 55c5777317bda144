import DeskSync.DevTools.Launch
import DeskSync.DevTools.Registry

/-!
# The planner and the service

`planner.rs` and `service.rs` of the `devtools` crate. `plan` turns a request into a command, and
`DevToolsService.handle` has the runner execute it. The runner and the decoder of control frames are
parameters; a call of `handle` also returns the commands it had the runner execute.
-/

namespace DeskSync.DevTools

variable {isAbsolute : String → Bool}

/-! ### `planner.rs` -/

def resolveOptional (workspaces : WorkspaceRegistry isAbsolute) (workspaceID : Option String) :
    Result (Option String) :=
  match workspaceID with
  | some id => (resolvePath workspaces id).map some
  | none => .ok none

/-- Plan a command for `req` against the given registries and target `os`. -/
def plan (req : DevActionRequest) (workspaces : WorkspaceRegistry isAbsolute) (hosts : SshHostRegistry)
    (os : String) : Result CommandSpec :=
  match req.kind with
  | .launchEditor editor workspaceID => do
    let path ← resolveOptional workspaces workspaceID
    resolveEditor editor os path
  | .openTerminal terminal workspaceID => do
    let path ← resolveOptional workspaces workspaceID
    resolveTerminal terminal os path
  | .runShortcut tool shortcutID workspaceID =>
    match find tool shortcutID with
    | none => .error (.unknownShortcut tool.debug shortcutID)
    | some shortcut => do
      let cwd ←
        if shortcut.needsWorkspace then
          match workspaceID with
          | none => .error (.invalid "shortcut" ("'" ++ shortcut.id ++ "' requires a workspace"))
          | some id => (resolvePath workspaces id).map some
        else resolveOptional workspaces workspaceID
      .ok (.captured shortcut.program shortcut.args cwd)
  | .sshConnect hostID terminal => do
    let host ← resolve hosts hostID
    resolveSsh host.destination host.port terminal os

/-! ### `service.rs` -/

structure DevToolsService (isAbsolute : String → Bool) where
  workspaces : WorkspaceRegistry isAbsolute
  hosts : SshHostRegistry
  os : String
  dispatched : UInt64
  rejected : UInt64

/-- `CommandRunner::run`. -/
abbrev CommandRunner := CommandSpec → Result String

namespace DevToolsService

def new (workspaces : WorkspaceRegistry isAbsolute) (hosts : SshHostRegistry) (os : String) :
    DevToolsService isAbsolute :=
  ⟨workspaces, hosts, os, 0, 0⟩

/-- Validate, plan, and execute a request. -/
def handle (runner : CommandRunner) (s : DevToolsService isAbsolute) (req : DevActionRequest) :
    DevActionResult × DevToolsService isAbsolute × List CommandSpec :=
  match plan req s.workspaces s.hosts s.os with
  | .error e => (.error req.requestID e.message, { s with rejected := s.rejected + 1 }, [])
  | .ok spec =>
    match runner spec with
    | .ok output =>
      let result :=
        if output.isEmpty then .ok req.requestID ("Launched " ++ spec.program)
        else .okOutput req.requestID output
      (result, { s with dispatched := s.dispatched + 1 }, [spec])
    | .error e => (.error req.requestID e.message, { s with rejected := s.rejected + 1 }, [spec])

/-- Decode a control frame and handle it; a frame that is not a request counts as rejected. -/
def handleFrame (fromStr : String → Option DevActionRequest) (runner : CommandRunner)
    (s : DevToolsService isAbsolute) (frame : String) :
    Option DevActionResult × DevToolsService isAbsolute × List CommandSpec :=
  match fromStr frame with
  | some req => let (result, rest) := s.handle runner req; (some result, rest)
  | none => (none, { s with rejected := s.rejected + 1 }, [])

end DevToolsService

end DeskSync.DevTools
