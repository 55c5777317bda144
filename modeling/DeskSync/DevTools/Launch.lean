import DeskSync.DevTools.Model

/-!
# Launches and shortcuts

`launch.rs` and `shortcuts.rs` of the `devtools` crate: the commands for an editor, a terminal or an SSH
session on an operating system, and the catalog of tool shortcuts.
-/

namespace DeskSync.DevTools

@[match_pattern] def macos : String := "macos"

@[match_pattern] def windows : String := "windows"

@[match_pattern] def linux : String := "linux"

/-! ### `launch.rs` -/

def resolveEditor (editor : Editor) (os : String) (workspacePath : Option String) : Result CommandSpec :=
  let pathArgs := workspacePath.toList
  match editor with
  | .vsCode => .ok (.launch "code" pathArgs)
  | .cursor => .ok (.launch "cursor" pathArgs)
  | .claude =>
    match os with
    | macos => .ok (.launch "open" (["-a", "Claude"] ++ pathArgs))
    | linux => .ok (.launch "claude" [])
    | windows => .ok (.launch "cmd" ["/c", "start", "", "claude"])
    | other => .error (.unsupported ("Claude on " ++ other))

def openApp (app : String) (workspacePath : Option String) : CommandSpec :=
  .launch "open" (["-a", app] ++ workspacePath.toList)

def wtDirArgs (workspacePath trailing : Option String) : List String :=
  (match workspacePath with
    | some p => ["-d", p]
    | none => []) ++ trailing.toList

def resolveTerminal (terminal : Terminal) (os : String) (workspacePath : Option String) :
    Result CommandSpec :=
  match terminal, os with
  | .appleTerminal, macos => .ok (openApp "Terminal" workspacePath)
  | .iTerm, macos => .ok (openApp "iTerm" workspacePath)
  | .warp, macos => .ok (openApp "Warp" workspacePath)
  | .warp, linux => .ok ((CommandSpec.launch "warp-terminal" []).withCwd workspacePath)
  | .powerShell, linux => .ok ((CommandSpec.launch "pwsh" []).withCwd workspacePath)
  | .windowsTerminal, windows => .ok (.launch "wt" (wtDirArgs workspacePath none))
  | .powerShell, windows => .ok (.launch "wt" (wtDirArgs workspacePath (some "powershell")))
  | t, os => .error (.unsupported (t.debug ++ " on " ++ os))

/-- The arguments of `ssh`. -/
def sshArgs (destination : String) (port : UInt16) : List String :=
  [destination] ++ if port ≠ 22 then ["-p", toString port.toNat] else []

def resolveSsh (destination : String) (port : UInt16) (terminal : Terminal) (os : String) :
    Result CommandSpec :=
  match terminal, os with
  | _, macos => .ok (.launch "open" (["-b", "com.apple.Terminal"] ++ (["ssh"] ++ sshArgs destination port)))
  | .windowsTerminal, windows => .ok (.launch "wt" (["ssh"] ++ sshArgs destination port))
  | .powerShell, windows => .ok (.launch "wt" (["ssh"] ++ sshArgs destination port))
  | _, linux => .ok (.launch "ssh" (sshArgs destination port))
  | t, os => .error (.unsupported ("ssh via " ++ t.debug ++ " on " ++ os))

/-! ### `shortcuts.rs` -/

structure Shortcut where
  id : String
  tool : Tool
  program : String
  args : List String
  needsWorkspace : Bool
  description : String
  deriving DecidableEq

/-- The complete built-in catalog. -/
def catalog : List Shortcut :=
  [⟨"status", .git, "git", ["status", "--short", "--branch"], true, "Working tree status"⟩,
    ⟨"fetch", .git, "git", ["fetch", "--all", "--prune"], true, "Fetch all remotes"⟩,
    ⟨"pull", .git, "git", ["pull", "--ff-only"], true, "Fast-forward pull"⟩,
    ⟨"log", .git, "git", ["log", "--oneline", "-n", "20"], true, "Last 20 commits"⟩,
    ⟨"branches", .git, "git", ["branch", "-vv"], true, "List branches"⟩,
    ⟨"ps", .docker, "docker", ["ps"], false, "Running containers"⟩,
    ⟨"images", .docker, "docker", ["images"], false, "Local images"⟩,
    ⟨"compose_up", .docker, "docker", ["compose", "up", "-d"], true, "Compose up (detached)"⟩,
    ⟨"compose_down", .docker, "docker", ["compose", "down"], true, "Compose down"⟩,
    ⟨"compose_ps", .docker, "docker", ["compose", "ps"], true, "Compose status"⟩,
    ⟨"pods", .kubectl, "kubectl", ["get", "pods", "-A"], false, "Pods (all namespaces)"⟩,
    ⟨"services", .kubectl, "kubectl", ["get", "svc", "-A"], false, "Services (all namespaces)"⟩,
    ⟨"nodes", .kubectl, "kubectl", ["get", "nodes"], false, "Cluster nodes"⟩,
    ⟨"contexts", .kubectl, "kubectl", ["config", "get-contexts"], false, "Configured contexts"⟩,
    ⟨"list", .helm, "helm", ["list", "--all-namespaces"], false, "Releases (all namespaces)"⟩]

/-- Look up a shortcut by tool and id. -/
def find (tool : Tool) (id : String) : Option Shortcut :=
  catalog.find? fun s => s.tool = tool ∧ s.id = id

theorem mem_of_find {tool : Tool} {id : String} {s : Shortcut} (h : find tool id = some s) :
    s ∈ catalog :=
  List.mem_of_find?_eq_some h

end DeskSync.DevTools
