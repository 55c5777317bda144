import DeskSync.Lib.Entries
import Mathlib.Logic.Function.Basic

/-!
# Launch at login

The autostart entry of each platform, which names the executable as it is, and what the readers of `Lib/Entries`
launch from it. The program that is launched is the executable exactly if its path has no character that the
format gives a meaning to (`launches_iff_plain`).
-/

namespace DeskSync.LaunchAtLogin

open Entries

/-- The targets that have an autostart directory. -/
inductive Platform
  | macos
  | linux
  | windows
  deriving DecidableEq

def separator (c : Char) : Bool := c == '\\' || c == '/'

/-- From a root; on Windows from the root of a drive, or of a share. -/
def isAbsolute : Platform → List Char → Bool
  | .windows, a :: b :: rest => separator a && separator b || a.isAlpha && b == ':' && rest.head?.any separator
  | .windows, _ => false
  | _, path => path.head? == some '/'

/-- Neither a control character nor a code point that is no character. -/
def printable (c : Char) : Bool := 0x20 ≤ c.toNat && !(0x7F ≤ c.toNat && c.toNat ≤ 0x9F) && c.toNat % 0x10000 < 0xFFFE

structure ExecPath (platform : Platform) where
  path : String
  absolute : isAbsolute platform path.toList = true
  printable : ∀ c ∈ path.toList, printable c = true

/-- The reverse-DNS label / base name used for the autostart entry. -/
def LABEL : String := "com.desksync.agent"

def entry_file_name : Platform → String
  | .macos => LABEL ++ ".plist"
  | .linux => "desksync-agent.desktop"
  | .windows => "DeskSyncAgent.cmd"

def macos.render_entry (exec : String) : String :=
  "<?xml version=\"1.0\" encoding=\"UTF-8\"?>
<!DOCTYPE plist PUBLIC \"-//Apple//DTD PLIST 1.0//EN\" \"http://www.apple.com/DTDs/PropertyList-1.0.dtd\">
<plist version=\"1.0\">
<dict>
    <key>Label</key>
    <string>" ++ LABEL ++ "</string>
    <key>ProgramArguments</key>
    <array>
        <string>" ++ exec ++ "</string>
    </array>
    <key>RunAtLoad</key>
    <true/>
    <key>KeepAlive</key>
    <true/>
</dict>
</plist>
"

def linux.render_entry (exec : String) : String :=
  "[Desktop Entry]\nType=Application\nName=DeskSync Agent\nExec=" ++ exec ++
    "\nTerminal=false\nX-GNOME-Autostart-enabled=true\n"

def windows.render_entry (exec : String) : String := "@echo off\r\nstart \"\" \"" ++ exec ++ "\"\r\n"

def render_entry : Platform → String → String
  | .macos => macos.render_entry
  | .linux => linux.render_entry
  | .windows => windows.render_entry

structure Autostart (platform : Platform) where
  exec_path : ExecPath platform
  dir : String

variable {platform : Platform}

def Autostart.entry_path (self : Autostart platform) : String × String := (self.dir, entry_file_name platform)

/-- The textual content of the autostart entry for this platform. -/
def Autostart.entry_contents (self : Autostart platform) : String := render_entry platform self.exec_path.path

/-- Create the autostart entry (idempotent). -/
def Autostart.enable (self : Autostart platform) (files : String × String → Option String) :
    String × String → Option String :=
  Function.update files self.entry_path (some self.entry_contents)

/-- What the reader of an entry knows besides it: where the entry is, and the values of the variables. -/
structure Env where
  location : List Char
  var : List Char → List Char
  deriving Inhabited

/-- The program that is launched, with its arguments. -/
def argv (env : Env) : Platform → List Char → Option (List (List Char))
  | .macos, entry => Plist.argv entry
  | .linux, entry => Desktop.argv env.location entry
  | .windows, entry => Script.argv env.var entry

/-- Wherever the entry is read after it was written, the executable is launched without arguments. -/
def Autostart.Launches (self : Autostart platform) : Prop :=
  ∀ files env, (self.enable files self.entry_path).bind (argv env platform ·.toList) =
    some [self.exec_path.path.toList]

/-- No character of the path has a meaning in the entry. -/
def Plain : Platform → List Char → Prop
  | .macos, path => '&' ∉ path ∧ '<' ∉ path ∧ ¬ "]]>".toList <:+: path
  | .linux, path => ∀ c ∈ path, Desktop.quoting c = false ∧ c ≠ '%'
  | .windows, path => '%' ∉ path ∧ '"' ∉ path

variable {path : String}

theorem launches_iff_argv (self : Autostart platform) :
    self.Launches ↔
      ∀ env, argv env platform (render_entry platform self.exec_path.path).toList =
        some [self.exec_path.path.toList] := by
  simp only [Autostart.Launches, Autostart.enable, Function.update_self, Option.bind_some, Autostart.entry_contents]
  exact forall_const _

theorem ExecPath.ne_nil (exec : ExecPath platform) : exec.path.toList ≠ [] := by
  intro hnil
  have habsolute := exec.absolute
  rw [hnil] at habsolute
  cases platform <;> cases habsolute

theorem ExecPath.not_mem (exec : ExecPath platform) {c : Char} (hc : LaunchAtLogin.printable c = false) :
    c ∉ exec.path.toList := fun hmem => Bool.false_ne_true (hc.symm.trans (exec.printable c hmem))

/-- Between the separators that surround the path. -/
theorem toList_part {a b : String} {sep : Char} {x y z w : List Char} (ha : a.toList = x ++ sep :: y)
    (hb : b.toList = z ++ sep :: w) (path : String) :
    (a ++ path ++ b).toList = x ++ sep :: (y ++ (path.toList ++ z) ++ sep :: w) := by
  simp [ha, hb]

theorem toList_part_nil {a b : String} {sep : Char} {x y w : List Char} (ha : a.toList = x ++ sep :: y)
    (hb : b.toList = sep :: w) (path : String) :
    (a ++ path ++ b).toList = x ++ sep :: (y ++ path.toList ++ sep :: w) := by
  simp [ha, hb]

/-- The value of `Exec` is the path. -/
theorem linux_argv (location : List Char) (hpath : '\n' ∉ path.toList) :
    Desktop.argv location (linux.render_entry path).toList =
      Desktop.words (Desktop.fieldCode "DeskSync Agent".toList location) path.toList := by
  have hhead : "[Desktop Entry]\nType=Application\nName=DeskSync Agent\nExec=".toList =
    "[Desktop Entry]\nType=Application\nName=DeskSync Agent".toList ++ '\n' :: "Exec=".toList := by decide +kernel
  have htail : "\nTerminal=false\nX-GNOME-Autostart-enabled=true\n".toList =
    '\n' :: "Terminal=false\nX-GNOME-Autostart-enabled=true\n".toList := by decide +kernel
  unfold linux.render_entry
  rw [toList_part_nil hhead htail]
  exact Desktop.argv_of_lines (by decide +kernel) (by decide +kernel) hpath location _

theorem linux_iff (exec : ExecPath .linux) :
    (∀ env, argv env .linux (linux.render_entry exec.path).toList = some [exec.path.toList]) ↔
      Plain .linux exec.path.toList := by
  have hpath : '\n' ∉ exec.path.toList := exec.not_mem (by decide)
  have hname : '%' ∉ "DeskSync Agent".toList := by decide +kernel
  constructor
  · intro h
    have hwords := h ⟨[], fun _ => []⟩
    rw [argv, linux_argv _ hpath] at hwords
    exact Desktop.not_reserved_of_words (Desktop.count_fieldCode hname) hwords
  · intro h env
    rw [argv, linux_argv _ hpath]
    exact Desktop.words_of_not_reserved exec.ne_nil h

theorem windows_iff (exec : ExecPath .windows) :
    (∀ env, argv env .windows (windows.render_entry exec.path).toList = some [exec.path.toList]) ↔
      Plain .windows exec.path.toList := by
  have hhead : "@echo off\r\nstart \"\" \"".toList = "@echo off\r".toList ++ '\n' :: "start \"\" \"".toList := by
    decide +kernel
  have htail : "\"\r\n".toList = "\"\r".toList ++ '\n' :: [] := by decide +kernel
  have hbefore : ∀ var, Script.argv var "@echo off\r".toList = none := fun var => by
    rw [Script.argv, firstLine_of_not_mem (by decide +kernel), Script.expand_of_not_mem (by decide +kernel)]
    decide +kernel
  rw [Plain, ← Script.argv_eq_self hbefore (exec.not_mem (by decide)) (exec.not_mem (by decide)),
    ← toList_part hhead htail]
  exact ⟨fun h var => h ⟨[], var⟩, fun h env => h env.var⟩

/-- The template ends with the tag of the string `n` characters after its beginning, and goes on with the end of the
array. -/
theorem plist_argv {a b c d : List Char} {n : ℕ} (hhead : a ++ b ++ c = (a ++ b ++ c).take n ++ '<' :: "string>".toList)
    (harray : ∀ ts, Plist.array "ProgramArguments" (Plist.markup ((a ++ b ++ c).take n) ++ ts) = Plist.strings ts)
    (hclose : (((d.splitOn '<').map Plist.tagged).map Prod.fst).take 2 = ["/string".toList, "/array".toList])
    (path : String) :
    Plist.argv (String.ofList a ++ String.ofList b ++ String.ofList c ++ path ++ String.ofList ('<' :: d)).toList =
      some [path.toList] ↔ Plain .macos path.toList := by
  have hstart : (String.ofList a ++ String.ofList b ++ String.ofList c).toList =
      (a ++ b ++ c).take n ++ '<' :: "string>".toList := by
    rw [String.toList_append, String.toList_append, String.toList_ofList, String.toList_ofList, String.toList_ofList,
      ← hhead]
  rw [toList_part_nil hstart String.toList_ofList, Plist.argv_of_array harray, Plist.strings_eq_self hclose,
    Plist.text_eq_self, Plain, and_left_comm]

set_option maxRecDepth 4000 in
theorem macos_iff (exec : ExecPath .macos) :
    (∀ env, argv env .macos (macos.render_entry exec.path).toList = some [exec.path.toList]) ↔
      Plain .macos exec.path.toList := by
  have hargv : Plist.argv (macos.render_entry exec.path).toList = some [exec.path.toList] ↔
      Plain .macos exec.path.toList := by
    unfold macos.render_entry LABEL
    refine plist_argv (n := 284) ?head (fun ts => ?array) ?close exec.path
    case head => decide +kernel
    case array => rfl
    case close => decide +kernel
  exact (forall_const Env).trans hargv

/-- The entry launches the executable exactly if no character of its path has a meaning there. -/
theorem launches_iff_plain (self : Autostart platform) :
    self.Launches ↔ Plain platform self.exec_path.path.toList := by
  rw [launches_iff_argv]
  cases platform with
  | macos => exact macos_iff self.exec_path
  | linux => exact linux_iff self.exec_path
  | windows => exact windows_iff self.exec_path

def spaced : Autostart .linux where
  exec_path := {
    path := "/opt/Desk Sync/agent"
    absolute := by decide +kernel
    printable := List.all_eq_true.1 (by decide +kernel) }
  dir := "/home/user/.config/autostart"

theorem spaced_argv (env : Env) :
    argv env .linux spaced.entry_contents.toList = some ["/opt/Desk".toList, "Sync/agent".toList] := by
  have hpath : '\n' ∉ spaced.exec_path.path.toList := spaced.exec_path.not_mem (by decide)
  have hsplit : Desktop.split .between spaced.exec_path.path.toList =
    some ["/opt/Desk".toList, "Sync/agent".toList] := by decide +kernel
  have hentry : spaced.entry_contents = linux.render_entry spaced.exec_path.path := rfl
  rw [argv, hentry, linux_argv _ hpath]
  exact Desktop.words_of_split hsplit (by decide +kernel)

/-- The space in the path ends the name of the program. -/
theorem not_launches_spaced :
    (∀ env, argv env .linux spaced.entry_contents.toList = some ["/opt/Desk".toList, "Sync/agent".toList]) ∧
      ¬ spaced.Launches := by
  refine ⟨spaced_argv, fun h => ?_⟩
  have hargv : argv default .linux spaced.entry_contents.toList = some [spaced.exec_path.path.toList] :=
    (launches_iff_argv spaced).1 h default
  rw [spaced_argv] at hargv
  simp at hargv

end DeskSync.LaunchAtLogin
