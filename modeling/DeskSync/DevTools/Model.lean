import Mathlib.Data.List.DropRight

/-!
# Developer actions

The wire model and the errors of the agent's `devtools` crate. A request names editors, terminals and
tools by an enumeration and everything else by an id.
-/

namespace DeskSync.DevTools

inductive Editor
  | vsCode
  | cursor
  | claude
  deriving DecidableEq

inductive Terminal
  | warp
  | appleTerminal
  | iTerm
  | powerShell
  | windowsTerminal
  deriving DecidableEq

inductive Tool
  | git
  | docker
  | kubectl
  | helm
  deriving DecidableEq

/-- `{:?}`. -/
def Terminal.debug : Terminal → String
  | .warp => "Warp"
  | .appleTerminal => "AppleTerminal"
  | .iTerm => "ITerm"
  | .powerShell => "PowerShell"
  | .windowsTerminal => "WindowsTerminal"

def Tool.debug : Tool → String
  | .git => "Git"
  | .docker => "Docker"
  | .kubectl => "Kubectl"
  | .helm => "Helm"

inductive DevActionKind
  | launchEditor (editor : Editor) (workspaceID : Option String)
  | openTerminal (terminal : Terminal) (workspaceID : Option String)
  | runShortcut (tool : Tool) (shortcutID : String) (workspaceID : Option String)
  | sshConnect (hostID : String) (terminal : Terminal)
  deriving DecidableEq

structure DevActionRequest where
  requestID : String
  kind : DevActionKind
  deriving DecidableEq

inductive DevActionStatus
  | ok
  | error
  deriving DecidableEq

structure DevActionResult where
  requestID : String
  status : DevActionStatus
  message : String
  output : String
  deriving DecidableEq

def DevActionResult.ok (requestID message : String) : DevActionResult := ⟨requestID, .ok, message, ""⟩

def DevActionResult.okOutput (requestID output : String) : DevActionResult := ⟨requestID, .ok, "", output⟩

def DevActionResult.error (requestID message : String) : DevActionResult :=
  ⟨requestID, .error, message, ""⟩

/-- A command to execute, without a shell. -/
structure CommandSpec where
  program : String
  args : List String
  cwd : Option String
  captureOutput : Bool
  deriving DecidableEq

namespace CommandSpec

def launch (program : String) (args : List String) : CommandSpec := ⟨program, args, none, false⟩

def captured (program : String) (args : List String) (cwd : Option String) : CommandSpec :=
  ⟨program, args, cwd, true⟩

def withCwd (spec : CommandSpec) (cwd : Option String) : CommandSpec := { spec with cwd }

end CommandSpec

structure Workspace where
  id : String
  name : String
  path : String
  deriving DecidableEq

structure SshHost where
  id : String
  label : String
  user : String
  host : String
  port : UInt16
  deriving DecidableEq

/-- The `user@host` destination string for the ssh CLI. -/
def SshHost.destination (h : SshHost) : String := h.user ++ "@" ++ h.host

/-! ### Errors -/

inductive DevToolsError
  | unknownWorkspace (id : String)
  | unknownHost (id : String)
  | unknownShortcut (tool shortcut : String)
  | unsupported (action : String)
  | invalid (kind reason : String)
  | execution (reason : String)
  deriving DecidableEq

def DevToolsError.message : DevToolsError → String
  | .unknownWorkspace id => "unknown workspace: " ++ id
  | .unknownHost id => "unknown ssh host: " ++ id
  | .unknownShortcut tool shortcut => "unknown shortcut '" ++ shortcut ++ "' for " ++ tool
  | .unsupported action => "action not supported on this platform: " ++ action
  | .invalid kind reason => "invalid " ++ kind ++ ": " ++ reason
  | .execution reason => "execution failed: " ++ reason

abbrev Result (α : Type) := Except DevToolsError α

end DeskSync.DevTools
