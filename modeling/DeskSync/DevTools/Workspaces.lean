import DeskSync.DevTools.Confinement
import DeskSync.DevTools.Destination

/-!
# Where the workspace of a request goes

The path of a requested workspace becomes an argument of the command, or the directory it runs in. Only the
launches of Claude on Linux and on Windows have no place for it (`resolve_editor`), although the program they
run would take the directory as the ones next to them do.

`honoured_iff`: a planned command has the path of the requested workspace if and only if it is none of these.
-/

namespace DeskSync.DevTools

variable {isAbsolute : String → Bool}

def DevActionKind.workspaceID : DevActionKind → Option String
  | .launchEditor _ workspaceID => workspaceID
  | .openTerminal _ workspaceID => workspaceID
  | .runShortcut _ _ workspaceID => workspaceID
  | .sshConnect .. => none

/-- The path is one of the arguments, or the directory of the command. -/
def Honours (spec : CommandSpec) (path : String) : Prop := path ∈ spec.args ∨ spec.cwd = some path

/-- The arguments of the command that starts Claude on Windows. -/
def startArgs : List String := ["/c", "start", "", "claude"]

/-- The editor is launched without a place for the path. -/
def Placeless (editor : Editor) (os path : String) : Prop :=
  editor = .claude ∧ (os = linux ∨ os = windows ∧ path ∉ startArgs)

/-- The request has no place for the path of its workspace. -/
def Drops (kind : DevActionKind) (os path : String) : Prop :=
  match kind with
  | .launchEditor editor _ => Placeless editor os path
  | _ => False

/-! ### The launches -/

theorem honours_launch {program : String} {args : List String} {path : String} :
    Honours (.launch program args) path ↔ path ∈ args := by
  simp [Honours, CommandSpec.launch]

theorem honours_withCwd (spec : CommandSpec) (path : String) : Honours (spec.withCwd (some path)) path :=
  .inr rfl

theorem resolveEditor_honours {editor : Editor} {os path : String} {spec : CommandSpec}
    (h : resolveEditor editor os (some path) = .ok spec) : Honours spec path ↔ ¬Placeless editor os path := by
  unfold resolveEditor at h
  cases editor with
  | vsCode | cursor =>
    cases h
    rw [honours_launch]
    exact iff_of_true List.mem_cons_self fun hp => by cases hp.1
  | claude =>
    simp only at h
    split at h
    · -- `open -a Claude` takes the path
      cases h
      rw [honours_launch]
      refine iff_of_true (by simp) fun hp => ?_
      rcases hp.2 with hos | ⟨hos, -⟩
      · exact absurd hos (by decide)
      · exact absurd hos (by decide)
    · cases h
      rw [honours_launch]
      exact iff_of_false List.not_mem_nil fun hp => hp ⟨rfl, .inl rfl⟩
    · cases h
      rw [honours_launch]
      constructor
      · rintro hmem ⟨-, hos | ⟨-, hnot⟩⟩
        · exact absurd hos (by decide)
        · exact hnot hmem
      · intro hp
        by_contra hnot
        exact hp ⟨rfl, .inr ⟨rfl, hnot⟩⟩
    · cases h

theorem resolveTerminal_honours {terminal : Terminal} {os path : String} {spec : CommandSpec}
    (h : resolveTerminal terminal os (some path) = .ok spec) : Honours spec path := by
  unfold resolveTerminal at h
  split at h
  -- the three applications of macOS
  · cases h
    exact honours_launch.2 (by simp)
  · cases h
    exact honours_launch.2 (by simp)
  · cases h
    exact honours_launch.2 (by simp)
  -- Linux
  · cases h
    exact honours_withCwd _ path
  · cases h
    exact honours_withCwd _ path
  -- Windows
  · cases h
    exact honours_launch.2 (by simp [wtDirArgs])
  · cases h
    exact honours_launch.2 (by simp [wtDirArgs])
  · cases h

/-! ### The planner -/

theorem command_honours {workspaces : WorkspaceRegistry isAbsolute} {hosts : SshHostRegistry}
    {kind : DevActionKind} {os id : String} {spec : CommandSpec} {w : Workspace}
    (hid : kind.workspaceID = some id) (hget : workspaces.get id = some w)
    (h : (lookUp workspaces hosts kind).command os = some spec) :
    Honours spec w.path ↔ ¬Drops kind os w.path := by
  cases kind with
  | launchEditor editor workspaceID =>
    cases hid
    simp only [lookUp, Lookup.command, Option.map_some, hget, optionalPath, Option.bind_some] at h
    cases hres : resolveEditor editor os (some w.path) with
    | error e => simp [hres, Except.toOption] at h
    | ok spec' =>
      rw [hres] at h
      cases h
      exact resolveEditor_honours hres
  | openTerminal terminal workspaceID =>
    cases hid
    simp only [lookUp, Lookup.command, Option.map_some, hget, optionalPath, Option.bind_some] at h
    cases hres : resolveTerminal terminal os (some w.path) with
    | error e => simp [hres, Except.toOption] at h
    | ok spec' =>
      rw [hres] at h
      cases h
      exact iff_of_true (resolveTerminal_honours hres) not_false
  | runShortcut tool shortcutID workspaceID =>
    cases hid
    simp only [lookUp, Lookup.command, Option.map_some, hget, optionalPath, Option.isNone_some, Bool.and_false,
      Bool.false_eq_true, if_false, Option.bind_eq_some_iff, Option.map_some, Option.some.injEq] at h
    obtain ⟨s, -, rfl⟩ := h
    exact iff_of_true (.inr rfl) not_false
  | sshConnect => cases hid

/-- A command planned for a request with a workspace has the path the workspace is registered with as an
argument or as its directory, if and only if it does not launch Claude where the launch has no place for it. -/
theorem honoured_iff {workspaces : WorkspaceRegistry isAbsolute} {hosts : SshHostRegistry}
    {requestID : String} {kind : DevActionKind} {os id : String} {spec : CommandSpec}
    (hid : kind.workspaceID = some id) (h : plan ⟨requestID, kind⟩ workspaces hosts os = .ok spec) :
    (∃ w, workspaces.get id = some w ∧ Honours spec w.path) ↔
      ∃ w, workspaces.get id = some w ∧ ¬Drops kind os w.path := by
  have hcommand : (lookUp workspaces hosts kind).command os = some spec := by
    rw [← plan_lookUp workspaces hosts ⟨requestID, kind⟩ os, h]
    rfl
  exact exists_congr fun w => and_congr_right fun hget => command_honours hid hget hcommand

section App

def app : Workspace := ⟨"ws1", "App", "/home/dev/app"⟩

def appOnly : WorkspaceRegistry fun _ => true := ⟨[app], by decide +kernel, by simp⟩

theorem honoured_code : (∃ w, appOnly.get "ws1" = some w ∧ Honours (.launch "code" ["/home/dev/app"]) w.path) ↔
    ∃ w, appOnly.get "ws1" = some w ∧ ¬Drops (.launchEditor .vsCode (some "ws1")) linux w.path := by
  have hplan : plan ⟨"r", .launchEditor .vsCode (some "ws1")⟩ appOnly deployOnly linux =
      .ok (.launch "code" ["/home/dev/app"]) := rfl
  exact honoured_iff rfl hplan

/-- On Linux Claude is launched without the requested workspace. -/
theorem claude_drops : ¬∀ (workspaces : WorkspaceRegistry fun _ => true) (hosts : SshHostRegistry)
    (requestID : String) (kind : DevActionKind) (os id : String) (spec : CommandSpec),
    kind.workspaceID = some id → plan ⟨requestID, kind⟩ workspaces hosts os = .ok spec →
      ∃ w, workspaces.get id = some w ∧ Honours spec w.path := by
  intro h
  obtain ⟨w, hw, hhonours⟩ := h appOnly deployOnly "r" (.launchEditor .claude (some "ws1")) linux "ws1"
    (.launch "claude" []) rfl rfl
  exact List.not_mem_nil (honours_launch.1 hhonours)

end App

end DeskSync.DevTools
