import DeskSync.DevTools.Service

/-!
# What a request can make the agent run

A command has a program from a fixed list, and each of its arguments is a constant or comes from a
registry. The strings of a request are only looked up: `lookUp` is a request with its ids replaced by
what they stand for, and `plan` is a function of it as far as commands go (`plan_lookUp`). A request that
refers to something unknown is rejected, and counted once.
-/

namespace DeskSync.DevTools

variable {isAbsolute : String → Bool}

/-! ### Where the strings of a command come from -/

/-- The programs of the planner. -/
def programs : List String :=
  ["code", "cursor", "open", "claude", "cmd", "warp-terminal", "pwsh", "wt", "ssh", "git", "docker", "kubectl",
    "helm"]

/-- The arguments that are constants. -/
def constants : List String :=
  ["-a", "Claude", "/c", "start", "", "claude", "Terminal", "iTerm", "Warp", "-d", "powershell", "-p", "-b",
    "com.apple.Terminal", "ssh"] ++ catalog.flatMap Shortcut.args

inductive Argument (workspaces : WorkspaceRegistry isAbsolute) (hosts : SshHostRegistry) : String → Prop
  | constant (a) (h : a ∈ constants) : Argument workspaces hosts a
  | path (w) (h : w ∈ workspaces.items) : Argument workspaces hosts w.path
  | destination (h) (hh : h ∈ hosts.items) : Argument workspaces hosts h.destination
  | port (h) (hh : h ∈ hosts.items) : Argument workspaces hosts (toString h.port.toNat)

structure Confined (workspaces : WorkspaceRegistry isAbsolute) (hosts : SshHostRegistry)
    (spec : CommandSpec) : Prop where
  program : spec.program ∈ programs
  args : ∀ a ∈ spec.args, Argument workspaces hosts a
  cwd : ∀ p ∈ spec.cwd, ∃ w ∈ workspaces.items, w.path = p

/-! ### What a request refers to -/

/-- A request without its strings. -/
inductive Lookup
  | launchEditor (editor : Editor) (workspace : Option (Option Workspace))
  | openTerminal (terminal : Terminal) (workspace : Option (Option Workspace))
  | runShortcut (shortcut : Option Shortcut) (workspace : Option (Option Workspace))
  | sshConnect (host : Option SshHost) (terminal : Terminal)
  deriving DecidableEq

def lookUp (workspaces : WorkspaceRegistry isAbsolute) (hosts : SshHostRegistry) : DevActionKind → Lookup
  | .launchEditor editor workspaceID => .launchEditor editor (workspaceID.map workspaces.get)
  | .openTerminal terminal workspaceID => .openTerminal terminal (workspaceID.map workspaces.get)
  | .runShortcut tool shortcutID workspaceID =>
    .runShortcut (find tool shortcutID) (workspaceID.map workspaces.get)
  | .sshConnect hostID terminal => .sshConnect (hosts.get hostID) terminal

/-- Some id is unknown, or a workspace is required and missing. -/
def Lookup.dangling : Lookup → Bool
  | .launchEditor _ workspace | .openTerminal _ workspace => workspace = some none
  | .runShortcut none _ => true
  | .runShortcut (some shortcut) workspace =>
    workspace = some none || (shortcut.needsWorkspace && workspace.isNone)
  | .sshConnect host _ => host.isNone

/-- The path of an optional workspace, unless it is unknown. -/
def optionalPath : Option (Option Workspace) → Option (Option String)
  | none => some none
  | some none => none
  | some (some w) => some (some w.path)

/-- The command for what a request refers to. -/
def Lookup.command (os : String) : Lookup → Option CommandSpec
  | .launchEditor editor workspace => (optionalPath workspace).bind fun path =>
    (resolveEditor editor os path).toOption
  | .openTerminal terminal workspace => (optionalPath workspace).bind fun path =>
    (resolveTerminal terminal os path).toOption
  | .runShortcut shortcut workspace => shortcut.bind fun s =>
    if s.needsWorkspace && workspace.isNone then none
    else (optionalPath workspace).map (.captured s.program s.args)
  | .sshConnect host terminal => host.bind fun h => (resolveSsh h.destination h.port terminal os).toOption

/-! ### The planner -/

section Plan
variable (workspaces : WorkspaceRegistry isAbsolute) (hosts : SshHostRegistry)

theorem toOption_bind {α β : Type} (x : Result α) (f : α → Result β) :
    (x >>= f).toOption = x.toOption.bind fun a => (f a).toOption := by
  cases x <;> rfl

theorem toOption_resolveOptional (workspaceID : Option String) :
    (resolveOptional workspaces workspaceID).toOption = optionalPath (workspaceID.map workspaces.get) := by
  cases workspaceID with
  | none => rfl
  | some id =>
    unfold resolveOptional resolvePath
    dsimp only [Option.map_some]
    cases workspaces.get id <;> rfl

/-- A command depends on a request through what it refers to. -/
theorem plan_lookUp (req : DevActionRequest) (os : String) :
    (plan req workspaces hosts os).toOption = (lookUp workspaces hosts req.kind).command os := by
  unfold plan
  cases req.kind with
  | launchEditor editor workspaceID =>
    dsimp only [lookUp, Lookup.command]
    rw [toOption_bind, toOption_resolveOptional]
  | openTerminal terminal workspaceID =>
    dsimp only [lookUp, Lookup.command]
    rw [toOption_bind, toOption_resolveOptional]
  | runShortcut tool shortcutID workspaceID =>
    dsimp only [lookUp, Lookup.command]
    cases find tool shortcutID with
    | none => rfl
    | some shortcut =>
      dsimp only [Option.bind_some]
      cases hneeds : shortcut.needsWorkspace with
      | false =>
        simp only [Bool.false_and, Bool.false_eq_true, if_false]
        rw [toOption_bind, toOption_resolveOptional]
        cases optionalPath (workspaceID.map workspaces.get) <;> rfl
      | true =>
        simp only [if_true, Bool.true_and]
        cases workspaceID with
        | none => rfl
        | some id =>
          unfold resolvePath
          simp only [Option.map_some, Option.isNone_some, Bool.false_eq_true, if_false]
          cases workspaces.get id <;> rfl
  | sshConnect hostID terminal =>
    dsimp only [lookUp, Lookup.command]
    rw [toOption_bind]
    unfold resolve
    cases hosts.get hostID <;> rfl

theorem command_dangling {l : Lookup} (h : l.dangling = true) (os : String) : l.command os = none := by
  cases l with
  | launchEditor editor workspace => simp_all [Lookup.dangling, Lookup.command, optionalPath]
  | openTerminal terminal workspace => simp_all [Lookup.dangling, Lookup.command, optionalPath]
  | runShortcut shortcut workspace =>
    cases shortcut with
    | none => rfl
    | some s =>
      rcases workspace with _ | _ | w <;> simp_all [Lookup.dangling, Lookup.command, optionalPath]
  | sshConnect host terminal => simp_all [Lookup.dangling, Lookup.command]

/-! ### The arguments of a command -/

variable {workspaces hosts} {os : String} {path : Option String} {spec : CommandSpec}

/-- `path` is absent or the path of a registered workspace. -/
def Registered (workspaces : WorkspaceRegistry isAbsolute) (path : Option String) : Prop :=
  ∀ p ∈ path, ∃ w ∈ workspaces.items, w.path = p

theorem registered_resolvePath {id p : String} (h : resolvePath workspaces id = .ok p) :
    Registered workspaces (some p) := by
  unfold resolvePath at h
  split at h
  · rename_i w hw
    intro q hq
    obtain rfl := Option.some.inj hq
    exact ⟨w, (Registry.mem_of_get hw).1, Except.ok.inj h⟩
  · cases h

theorem registered_resolveOptional (workspaceID : Option String)
    (h : resolveOptional workspaces workspaceID = .ok path) : Registered workspaces path := by
  cases workspaceID with
  | none =>
    obtain rfl := Except.ok.inj h
    intro p hp
    cases hp
  | some id =>
    unfold resolveOptional at h
    cases hid : resolvePath workspaces id with
    | error e => simp [hid, Except.map] at h
    | ok p =>
      simp only [hid, Except.map, Except.ok.injEq] at h
      exact h ▸ registered_resolvePath hid

theorem argument_path (hpath : Registered workspaces path) {a : String} (ha : a ∈ path.toList) :
    Argument workspaces hosts a := by
  obtain ⟨w, hw, rfl⟩ := hpath a (Option.mem_toList.1 ha)
  exact .path w hw

/-- A launch whose arguments are constants and the path. -/
theorem confined_launch {program : String} {args : List String} (hpath : Registered workspaces path)
    (hprogram : program ∈ programs) (hargs : ∀ a ∈ args, a ∈ constants ∨ a ∈ path.toList) :
    Confined workspaces hosts (.launch program args) where
  program := hprogram
  args a ha := (hargs a ha).elim (.constant a) (argument_path hpath)
  cwd p hp := by cases hp

theorem confined_withCwd {program : String} (hpath : Registered workspaces path)
    (hprogram : program ∈ programs) :
    Confined workspaces hosts ((CommandSpec.launch program []).withCwd path) where
  program := hprogram
  args a ha := by cases ha
  cwd := hpath

theorem confined_resolveEditor {editor : Editor} (hpath : Registered workspaces path)
    (h : resolveEditor editor os path = .ok spec) : Confined workspaces hosts spec := by
  unfold resolveEditor at h
  split at h
  · obtain rfl := Except.ok.inj h
    exact confined_launch hpath (by decide) fun a ha => .inr ha
  · obtain rfl := Except.ok.inj h
    exact confined_launch hpath (by decide) fun a ha => .inr ha
  · split at h
    · obtain rfl := Except.ok.inj h
      refine confined_launch hpath (by decide) fun a ha => ?_
      exact (List.mem_append.1 ha).imp_left fun h => (by decide : ["-a", "Claude"] ⊆ constants) h
    · obtain rfl := Except.ok.inj h
      exact confined_launch hpath (by decide) fun a ha => by cases ha
    · obtain rfl := Except.ok.inj h
      refine confined_launch hpath (by decide) fun a ha => ?_
      exact .inl ((by decide : ["/c", "start", "", "claude"] ⊆ constants) ha)
    · cases h

theorem confined_openApp {app : String} (hpath : Registered workspaces path)
    (happ : ["-a", app] ⊆ constants) : Confined workspaces hosts (openApp app path) :=
  confined_launch hpath (by decide) fun _ ha => (List.mem_append.1 ha).imp_left fun h => happ h

theorem mem_wtDirArgs {trailing : Option String} (htrailing : trailing.toList ⊆ constants) {a : String}
    (ha : a ∈ wtDirArgs path trailing) : a ∈ constants ∨ a ∈ path.toList := by
  obtain ha | ha := List.mem_append.1 ha
  · cases path with
    | none => cases ha
    | some p =>
      obtain rfl | ha := List.mem_cons.1 ha
      · exact .inl (by decide)
      · exact .inr ha
  · exact .inl (htrailing ha)

theorem confined_resolveTerminal {terminal : Terminal} (hpath : Registered workspaces path)
    (h : resolveTerminal terminal os path = .ok spec) : Confined workspaces hosts spec := by
  unfold resolveTerminal at h
  split at h <;> try cases h
  · exact confined_openApp hpath (by decide)
  · exact confined_openApp hpath (by decide)
  · exact confined_openApp hpath (by decide)
  · exact confined_withCwd hpath (by decide)
  · exact confined_withCwd hpath (by decide)
  · exact confined_launch hpath (by decide) fun a ha => mem_wtDirArgs (by decide) ha
  · exact confined_launch hpath (by decide) fun a ha => mem_wtDirArgs (by decide) ha

theorem argument_ssh {host : SshHost} (hhost : host ∈ hosts.items) {leading : List String}
    (hleading : leading ⊆ constants) {a : String} (ha : a ∈ leading ++ sshArgs host.destination host.port) :
    Argument workspaces hosts a := by
  obtain ha | ha := List.mem_append.1 ha
  · exact .constant a (hleading ha)
  · obtain rfl | ha := List.mem_cons.1 ha
    · exact .destination host hhost
    · split at ha
      · obtain rfl | ha := List.mem_cons.1 ha
        · exact .constant _ (by decide)
        · obtain rfl := List.mem_singleton.1 ha
          exact .port host hhost
      · cases ha

theorem confined_ssh {host : SshHost} (hhost : host ∈ hosts.items) {program : String} (leading : List String)
    (hprogram : program ∈ programs) (hleading : leading ⊆ constants) :
    Confined workspaces hosts (.launch program (leading ++ sshArgs host.destination host.port)) where
  program := hprogram
  args _ ha := argument_ssh hhost hleading ha
  cwd p hp := by cases hp

theorem confined_resolveSsh {host : SshHost} {terminal : Terminal} (hhost : host ∈ hosts.items)
    (h : resolveSsh host.destination host.port terminal os = .ok spec) :
    Confined workspaces hosts spec := by
  unfold resolveSsh at h
  split at h <;> try cases h
  · exact confined_ssh hhost ["-b", "com.apple.Terminal", "ssh"] (by decide) (by decide)
  · exact confined_ssh hhost ["ssh"] (by decide) (by decide)
  · exact confined_ssh hhost ["ssh"] (by decide) (by decide)
  · exact confined_ssh hhost [] (by decide) (by decide)

theorem confined_captured {shortcut : Shortcut} (hmem : shortcut ∈ catalog)
    (hpath : Registered workspaces path) :
    Confined workspaces hosts (.captured shortcut.program shortcut.args path) where
  program := (by decide : ∀ s ∈ catalog, s.program ∈ programs) shortcut hmem
  args a ha := .constant a (List.mem_append_right _ (List.mem_flatMap.2 ⟨shortcut, hmem, ha⟩))
  cwd := hpath

/-- Every planned command is confined. -/
theorem confined_plan {req : DevActionRequest} (h : plan req workspaces hosts os = .ok spec) :
    Confined workspaces hosts spec := by
  have bind_ok {α β : Type} {x : Result α} {f : α → Result β} {b : β} (h : x >>= f = .ok b) :
      ∃ a, x = .ok a ∧ f a = .ok b := by
    cases x with
    | error e => cases h
    | ok a => exact ⟨a, rfl, h⟩
  unfold plan at h
  cases hkind : req.kind with
  | launchEditor editor workspaceID =>
    rw [hkind] at h
    obtain ⟨path, hpath, h⟩ := bind_ok h
    exact confined_resolveEditor (registered_resolveOptional workspaceID hpath) h
  | openTerminal terminal workspaceID =>
    rw [hkind] at h
    obtain ⟨path, hpath, h⟩ := bind_ok h
    exact confined_resolveTerminal (registered_resolveOptional workspaceID hpath) h
  | runShortcut tool shortcutID workspaceID =>
    simp only [hkind] at h
    cases hfind : find tool shortcutID with
    | none => simp [hfind] at h
    | some shortcut =>
      simp only [hfind] at h
      cases hneeds : shortcut.needsWorkspace with
      | false =>
        simp only [hneeds, Bool.false_eq_true, if_false] at h
        obtain ⟨path, hpath, h⟩ := bind_ok h
        obtain rfl := Except.ok.inj h
        exact confined_captured (mem_of_find hfind) (registered_resolveOptional workspaceID hpath)
      | true =>
        simp only [hneeds, if_true] at h
        cases workspaceID with
        | none => cases h
        | some id =>
          obtain ⟨path, hpath, h⟩ := bind_ok h
          obtain rfl := Except.ok.inj h
          exact confined_captured (mem_of_find hfind) (registered_resolveOptional (some id) hpath)
  | sshConnect hostID terminal =>
    rw [hkind] at h
    obtain ⟨host, hhost, h⟩ := bind_ok h
    unfold resolve at hhost
    split at hhost
    · rename_i host' hget
      obtain rfl := Except.ok.inj hhost
      exact confined_resolveSsh (Registry.mem_of_get hget).1 h
    · cases hhost

end Plan

/-! ### The service -/

namespace DevToolsService

variable (s : DevToolsService isAbsolute) (runner : CommandRunner) (req : DevActionRequest)

/-- What `handle` has the runner execute is the planned command. -/
theorem ran_handle : (s.handle runner req).2.2 = (plan req s.workspaces s.hosts s.os).toOption.toList := by
  unfold handle
  split
  · rename_i e he
    rw [he]
    rfl
  · rename_i spec hspec
    rw [hspec]
    split <;> rfl

/-- `handle` runs confined commands only, the same one for all requests that refer to the same, and none
for a request that refers to something unknown. -/
theorem handle_confined :
    (∀ spec ∈ (s.handle runner req).2.2, Confined s.workspaces s.hosts spec) ∧
      (∀ req', lookUp s.workspaces s.hosts req'.kind = lookUp s.workspaces s.hosts req.kind →
        (s.handle runner req').2.2 = (s.handle runner req).2.2) ∧
      ((lookUp s.workspaces s.hosts req.kind).dangling = true →
        (s.handle runner req).2 = ({ s with rejected := s.rejected + 1 }, [])) := by
  refine ⟨?_, ?_, ?_⟩
  · intro spec hspec
    rw [ran_handle, Option.mem_toList] at hspec
    cases hplan : plan req s.workspaces s.hosts s.os with
    | error e => simp [hplan, Except.toOption] at hspec
    | ok spec' =>
      rw [hplan] at hspec
      obtain rfl := Option.some.inj hspec
      exact confined_plan hplan
  · intro req' hsame
    rw [ran_handle, ran_handle, plan_lookUp, plan_lookUp, hsame]
  · intro hdangling
    have hnone : (plan req s.workspaces s.hosts s.os).toOption = none := by
      rw [plan_lookUp, command_dangling hdangling]
    unfold handle
    cases hplan : plan req s.workspaces s.hosts s.os with
    | error e => rfl
    | ok spec => simp [hplan, Except.toOption] at hnone

end DevToolsService

end DeskSync.DevTools
