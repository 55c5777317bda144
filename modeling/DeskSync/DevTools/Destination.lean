import DeskSync.DevTools.Service

/-!
# What `ssh` reads

The command for a registered host has one place where a field chosen by the user of the agent is an
argument of its own: the destination `user@host`. `validate_host` looks at the characters of the two
fields and not at what they begin with, so `ssh` takes the argument for a destination exactly when the
user of the host does not begin with a dash.
-/

namespace DeskSync.DevTools

variable {isAbsolute : String → Bool}

/-- An argument that `ssh` takes for an option. -/
def isOption (a : String) : Prop := a.toList.head? = some '-'

instance (a : String) : Decidable (isOption a) := inferInstanceAs (Decidable (_ = _))

/-- The arguments of `ssh` in a command that runs it, or has a terminal run it. -/
def sshPart (spec : CommandSpec) : List String :=
  if spec.program = "ssh" then spec.args else (spec.args.dropWhile (· ≠ "ssh")).tail

/-- `ssh` gets `host` as its destination, and no option but the port of `host`. -/
structure Reads (host : SshHost) (args : List String) : Prop where
  shape : args = [host.destination] ∨ args = [host.destination, "-p", toString host.port.toNat]
  destination : ¬ isOption host.destination
  options : ∀ a ∈ args, isOption a → a = "-p"

theorem sshPart_resolveSsh {destination : String} {port : UInt16} {terminal : Terminal} {os : String}
    {spec : CommandSpec} (h : resolveSsh destination port terminal os = .ok spec) :
    sshPart spec = sshArgs destination port := by
  unfold resolveSsh at h
  split at h <;> try cases h
  all_goals simp [sshPart, CommandSpec.launch]

theorem plan_sshConnect {workspaces : WorkspaceRegistry isAbsolute} {hosts : SshHostRegistry} {host : SshHost}
    (hhost : host ∈ hosts.items) (requestID : String) (terminal : Terminal) (os : String) :
    plan ⟨requestID, .sshConnect host.id terminal⟩ workspaces hosts os =
      resolveSsh host.destination host.port terminal os := by
  have hresolve : resolve hosts host.id = .ok host := by
    rw [resolve, Registry.get_key hhost]
  simp only [plan, hresolve]
  rfl

theorem isOption_destination (host : SshHost) : isOption host.destination ↔ isOption host.user := by
  unfold isOption SshHost.destination
  rw [String.toList_append, String.toList_append, List.append_assoc]
  cases host.user.toList with
  | nil => simp
  | cons c rest => rfl

theorem not_isOption_port (port : UInt16) : ¬ isOption (toString port.toNat) := by
  intro h
  have hmem : '-' ∈ Nat.toDigits 10 port.toNat := by
    rw [isOption, Nat.toString_eq_repr, Nat.repr_eq_ofList_toDigits, String.toList_ofList] at h
    exact List.mem_of_head? h
  have hdigit := Nat.isDigit_of_mem_toDigits (by omega) (by omega) hmem
  exact absurd hdigit (by decide)

theorem reads_sshArgs (host : SshHost) :
    Reads host (sshArgs host.destination host.port) ↔ ¬ isOption host.destination := by
  constructor
  · exact fun h => h.destination
  · intro hdest
    have hcases : sshArgs host.destination host.port = [host.destination] ∨
        sshArgs host.destination host.port = [host.destination, "-p", toString host.port.toNat] := by
      unfold sshArgs
      split_ifs
      · exact .inr rfl
      · exact .inl rfl
    refine ⟨hcases, hdest, fun a ha hopt => ?_⟩
    have hmem : a ∈ [host.destination, "-p", toString host.port.toNat] := by
      obtain h | h := hcases
      · rw [h] at ha
        exact List.mem_cons.2 (.inl (List.mem_singleton.1 ha))
      · exact h ▸ ha
    obtain rfl | hmem := List.mem_cons.1 hmem
    · exact absurd hopt hdest
    obtain rfl | hmem := List.mem_cons.1 hmem
    · rfl
    obtain rfl := List.mem_singleton.1 hmem
    exact absurd hopt (not_isOption_port _)

/-- Planning an SSH session to a registered host gives `ssh` that host and nothing else, if and only if
the user of the host does not begin with a dash. -/
theorem reads_iff {workspaces : WorkspaceRegistry isAbsolute} {hosts : SshHostRegistry} {host : SshHost}
    (hhost : host ∈ hosts.items) {requestID : String} {terminal : Terminal} {os : String} {spec : CommandSpec}
    (h : plan ⟨requestID, .sshConnect host.id terminal⟩ workspaces hosts os = .ok spec) :
    Reads host (sshPart spec) ↔ ¬ isOption host.user := by
  rw [plan_sshConnect hhost] at h
  rw [sshPart_resolveSsh h, reads_sshArgs, isOption_destination]

section Hosts

def deploy : SshHost := ⟨"h", "Prod", "deploy", "10.0.0.1", 22⟩

def smuggler : SshHost := { deploy with user := "-oProxyCommand=id" }

def deployOnly : SshHostRegistry := ⟨[deploy], by decide +kernel, by simp⟩

def smugglerOnly : SshHostRegistry := ⟨[smuggler], by decide +kernel, by simp⟩

/-- No workspace is registered. -/
def noWorkspaces : WorkspaceRegistry fun _ => true := .new

theorem reads_deploy : Reads deploy ["deploy@10.0.0.1"] ↔ ¬ isOption "deploy" := by
  have hplan : plan ⟨"r", .sshConnect deploy.id .warp⟩ noWorkspaces deployOnly linux =
      .ok (.launch "ssh" ["deploy@10.0.0.1"]) := rfl
  exact reads_iff List.mem_cons_self hplan

/-- A host with the user `-oProxyCommand=id` is registered, and `ssh` gets an option instead of a
destination. -/
theorem smuggled_option :
    ∃ hosts : SshHostRegistry, Registry.fromItems [smuggler] = .ok hosts ∧ ∃ spec,
      plan ⟨"r", .sshConnect "h" .warp⟩ noWorkspaces hosts linux = .ok spec ∧
        sshPart spec = ["-oProxyCommand=id@10.0.0.1"] ∧ ¬ Reads smuggler (sshPart spec) := by
  refine ⟨smugglerOnly, Registry.fromItems_items smugglerOnly, _, rfl, rfl, fun h => ?_⟩
  exact h.destination (by decide)

end Hosts

end DeskSync.DevTools
