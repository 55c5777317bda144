import DeskSync.Lib.Hex
import Mathlib.Data.List.Infix

/-!
# Readers of launch entries

The command that a desktop entry, a property list or a script gives the system to launch, each read by the rules of
its format. A path that is written into an entry as it is comes back as the program without arguments only if the
format gives no meaning to any of its characters (`Desktop.not_reserved_of_words`, `Plist.strings_eq_self`,
`Script.argv_eq_self`): what is quoting, a reference or an expansion is lost in the reading.
-/

namespace DeskSync.Entries

variable {α : Type}

/-- What `read` makes of the first line that it accepts. -/
def firstLine (read : List Char → Option α) (entry : List Char) : Option α := (entry.splitOn '\n').findSome? read

/-- What follows `key` on the first line that begins with it. -/
def value (key : String) : List Char → Option (List Char) := firstLine (·.dropPrefix? key.toList)

theorem firstLine_append (read : List Char → Option α) (a b : List Char) :
    firstLine read (a ++ '\n' :: b) = (firstLine read a).or (firstLine read b) := by
  rw [firstLine, List.splitOn_append_cons_self, List.findSome?_append]
  rfl

theorem firstLine_of_not_mem {line : List Char} (h : '\n' ∉ line) (read : List Char → Option α) :
    firstLine read line = read line := by
  rw [firstLine, List.splitOn_eq_singleton h, List.findSome?_singleton]

theorem value_append (key : String) (a b : List Char) :
    value key (a ++ '\n' :: b) = (value key a).or (value key b) := firstLine_append _ a b

theorem value_line {key : String} {text : List Char} (h : '\n' ∉ key.toList ++ text) :
    value key (key.toList ++ text) = some text := by
  rw [value, firstLine_of_not_mem h]
  exact List.dropPrefix?_append_of_beq _ (beq_self_eq_true _)

namespace Desktop

/-- Between two words, in one, or between double quotes. -/
inductive Mode
  | between
  | word
  | quoted
  deriving DecidableEq

/-- After a character of a word. -/
def Mode.inside : Mode → Mode
  | .quoted => .quoted
  | _ => .word

/-- After a double quote. -/
def Mode.toggle : Mode → Mode
  | .quoted => .word
  | _ => .quoted

def push (c : Char) : List (List Char) → List (List Char)
  | [] => [[c]]
  | word :: words => (c :: word) :: words

/-- The words of an `Exec` value. A space ends a word outside quotes, a backslash takes the next character as it is.
In a word, the first one of the result is what is left of it. -/
def split : Mode → List Char → Option (List (List Char))
  | .between, [] => some []
  | .word, [] => some [[]]
  | .quoted, [] => none
  | mode, c :: cs =>
    if c = '\\' then
      match cs with
      | [] => none
      | d :: rest => (split mode.inside rest).map (push d)
    else if c = '"' then split mode.toggle cs
    else if c = ' ' ∧ mode ≠ .quoted then
      (split .between cs).map fun words => if mode = .word then [] :: words else words
    else (split mode.inside cs).map (push c)

def quoting (c : Char) : Bool := c == ' ' || c == '"' || c == '\\'

/-- What a field code stands for when no file is opened: `name` is the entry's, `location` its own place. -/
def fieldCode (name location : List Char) (code : Char) : Option (List Char) :=
  if code = '%' then some ['%']
  else if code = 'c' then some name
  else if code = 'k' then some location
  else if code ∈ "fFuUidDnNvm".toList then some []
  else none

def expand (code : Char → Option (List Char)) : List Char → Option (List Char)
  | [] => some []
  | c :: cs =>
    if c = '%' then
      match cs with
      | [] => none
      | d :: rest => do
        let text ← code d
        let rest ← expand code rest
        return text ++ rest
    else (expand code cs).map (c :: ·)

/-- A word that its field codes leave empty is no argument. -/
def arguments (code : Char → Option (List Char)) : List (List Char) → Option (List (List Char))
  | [] => some []
  | word :: words => do
    let arg ← expand code word
    let args ← arguments code words
    return if arg = [] ∧ word ≠ [] then args else arg :: args

/-- Quoting is undone before the field codes are expanded. -/
def words (code : Char → Option (List Char)) (exec : List Char) : Option (List (List Char)) := do
  let words ← split .between exec
  arguments code words

def argv (location entry : List Char) : Option (List (List Char)) := do
  let exec ← value "Exec=" entry
  words (fieldCode ((value "Name=" entry).getD []) location) exec

variable {mode : Mode} {cs exec : List Char} {ws args : List (List Char)} {code : Char → Option (List Char)}

theorem flatten_push (c : Char) (ws : List (List Char)) : (push c ws).flatten = c :: ws.flatten := by
  cases ws <;> rfl

/-- The words are made of the characters of the value, in their order. -/
theorem flatten_split (h : split mode cs = some ws) : ws.flatten.Sublist cs := by
  fun_induction split mode cs generalizing ws with
  | case1 | case2 => cases h; exact List.Sublist.slnil
  | case3 | case4 => cases h
  | case5 mode d rest ih =>
    obtain ⟨ws', hws', rfl⟩ := Option.map_eq_some_iff.1 h
    rw [flatten_push]
    exact ((ih hws').cons_cons d).cons '\\'
  | case6 mode cs _ ih => exact (ih h).cons '"'
  | case7 mode c cs _ _ _ ih =>
    obtain ⟨ws', hws', rfl⟩ := Option.map_eq_some_iff.1 h
    have hsub := (ih hws').cons c
    split_ifs <;> simpa using hsub
  | case8 mode c cs _ _ _ ih =>
    obtain ⟨ws', hws', rfl⟩ := Option.map_eq_some_iff.1 h
    rw [flatten_push]
    exact (ih hws').cons_cons c

theorem ne_cons_of_sublist {l : List Char} (h : l.Sublist cs) (c : Char) : l ≠ c :: cs := by
  rintro rfl
  exact Nat.not_succ_le_self _ h.length_le

/-- If no character is lost there is no quoting in the value. -/
theorem not_quoting_of_flatten (h : split mode cs = some ws) (hws : ws.flatten = cs) :
    mode ≠ .quoted ∧ ∀ c ∈ cs, quoting c = false := by
  fun_induction split mode cs generalizing ws with
  | case1 | case2 => simp
  | case3 | case4 => cases h
  | case5 mode d rest ih =>
    obtain ⟨ws', hws', rfl⟩ := Option.map_eq_some_iff.1 h
    rw [flatten_push] at hws
    exact absurd hws (ne_cons_of_sublist ((flatten_split hws').cons_cons d) '\\')
  | case6 mode cs _ ih => exact absurd hws (ne_cons_of_sublist (flatten_split h) '"')
  | case7 mode c cs _ _ _ ih =>
    obtain ⟨ws', hws', rfl⟩ := Option.map_eq_some_iff.1 h
    have hne := ne_cons_of_sublist (flatten_split hws') c
    split_ifs at hws <;> exact absurd hws hne
  | case8 mode c cs hbackslash hquote hspace ih =>
    obtain ⟨ws', hws', rfl⟩ := Option.map_eq_some_iff.1 h
    rw [flatten_push, List.cons.injEq] at hws
    obtain ⟨hmode, hcs⟩ := ih hws' hws.2
    have hne : mode ≠ .quoted := by
      rintro rfl
      exact hmode rfl
    refine ⟨hne, List.forall_mem_cons.2 ⟨?_, hcs⟩⟩
    have hc : c ≠ ' ' := fun hc => hspace ⟨hc, hne⟩
    simp [quoting, hc, hbackslash, hquote]

theorem split_cons {c : Char} (hc : quoting c = false) (mode : Mode) (cs : List Char) :
    split mode (c :: cs) = (split mode.inside cs).map (push c) := by
  have hc : (c ≠ ' ' ∧ c ≠ '"') ∧ c ≠ '\\' := by simpa [quoting] using hc
  rw [split.eq_def]
  cases mode <;> simp [hc]

theorem split_word (h : ∀ c ∈ cs, quoting c = false) : split .word cs = some [cs] := by
  induction cs with
  | nil => rfl
  | cons c cs ih =>
    obtain ⟨hc, hcs⟩ := List.forall_mem_cons.1 h
    rw [split_cons hc, Mode.inside, ih hcs]
    · rfl
    · nofun

/-- A value without quoting is one word. -/
theorem split_between (hne : cs ≠ []) (h : ∀ c ∈ cs, quoting c = false) : split .between cs = some [cs] := by
  obtain ⟨c, cs, rfl⟩ := List.exists_cons_of_ne_nil hne
  obtain ⟨hc, hcs⟩ := List.forall_mem_cons.1 h
  rw [split_cons hc, Mode.inside, split_word hcs]
  · rfl
  · nofun

/-- At most half of the marks are left where no code stands for one. -/
theorem count_expand (hcode : ∀ d text, code d = some text → text.count '%' ≤ if d = '%' then 1 else 0)
    {text : List Char} (h : expand code cs = some text) : 2 * text.count '%' ≤ cs.count '%' := by
  fun_induction expand code cs generalizing text with
  | case1 => cases h; rfl
  | case2 => cases h
  | case3 d rest ih =>
    obtain ⟨text', htext', more, hmore, rfl⟩ : ∃ text', code d = some text' ∧ ∃ more,
        expand code rest = some more ∧ text' ++ more = text := by
      simpa [Option.bind_eq_some_iff] using h
    have hd := hcode d text' htext'
    have hrest := ih hmore
    rw [List.count_append, List.count_cons_self, List.count_cons]
    simp only [beq_iff_eq]
    split_ifs at hd ⊢ <;> omega
  | case4 c cs hc ih =>
    obtain ⟨more, hmore, rfl⟩ := Option.map_eq_some_iff.1 h
    rw [List.count_cons_of_ne hc, List.count_cons_of_ne hc]
    exact ih hmore

theorem expand_of_not_mem (h : '%' ∉ cs) : expand code cs = some cs := by
  induction cs with
  | nil => rfl
  | cons c cs ih =>
    rw [List.mem_cons, not_or] at h
    rw [expand.eq_def]
    simp only [if_neg (Ne.symm h.1), ih h.2, Option.map_some]

theorem count_arguments (hcode : ∀ d text, code d = some text → text.count '%' ≤ if d = '%' then 1 else 0)
    (h : arguments code ws = some args) : 2 * args.flatten.count '%' ≤ ws.flatten.count '%' := by
  induction ws generalizing args with
  | nil => cases h; rfl
  | cons w ws ih =>
    obtain ⟨arg, harg, more, hmore, rfl⟩ : ∃ arg, expand code w = some arg ∧ ∃ more,
        arguments code ws = some more ∧ (if arg = [] ∧ w ≠ [] then more else arg :: more) = args := by
      simpa [arguments, Option.bind_eq_some_iff] using h
    have hflatten : (if arg = [] ∧ w ≠ [] then more else arg :: more).flatten = arg ++ more.flatten := by
      split_ifs with hempty
      · rw [hempty.1]; rfl
      · rfl
    have hw := count_expand hcode harg
    have hws := ih hmore
    rw [hflatten, List.flatten_cons, List.count_append, List.count_append]
    omega

theorem arguments_of_not_mem (h : '%' ∉ ws.flatten) : arguments code ws = some ws := by
  induction ws with
  | nil => rfl
  | cons w ws ih =>
    rw [List.flatten_cons, List.mem_append, not_or] at h
    rw [arguments, expand_of_not_mem h.1, ih h.2]
    by_cases hw : w = [] <;> simp [hw]

theorem words_of_split (hws : split .between exec = some ws) (hmark : '%' ∉ ws.flatten) : words code exec = some ws := by
  rw [words, hws]
  exact arguments_of_not_mem hmark

theorem words_of_not_reserved (hne : exec ≠ []) (h : ∀ c ∈ exec, quoting c = false ∧ c ≠ '%') :
    words code exec = some [exec] := by
  have hmark : '%' ∉ exec := fun hmem => (h _ hmem).2 rfl
  exact words_of_split (split_between hne fun c hc => (h c hc).1) (by rwa [List.flatten_singleton])

/-- A value is its own only word only if nothing in it is quoting or begins a field code. -/
theorem not_reserved_of_words (hcode : ∀ d text, code d = some text → text.count '%' ≤ if d = '%' then 1 else 0)
    (h : words code exec = some [exec]) : ∀ c ∈ exec, quoting c = false ∧ c ≠ '%' := by
  obtain ⟨ws, hws, hargs⟩ := Option.bind_eq_some_iff.1 h
  have hsub := flatten_split hws
  have hcount := count_arguments hcode hargs
  have hle := hsub.count_le '%'
  rw [List.flatten_singleton] at hcount
  have hmark : '%' ∉ exec := List.count_eq_zero.1 (by omega)
  -- The field codes have left the words as they are.
  rw [arguments_of_not_mem fun hmem => hmark (hsub.subset hmem), Option.some.injEq] at hargs
  have hquoting := (not_quoting_of_flatten hws (by rw [hargs, List.flatten_singleton])).2
  exact fun c hc => ⟨hquoting c hc, fun heq => hmark (heq ▸ hc)⟩

theorem count_fieldCode {name : List Char} (hname : '%' ∉ name) (d : Char) (text : List Char)
    (h : fieldCode name [] d = some text) : text.count '%' ≤ if d = '%' then 1 else 0 := by
  unfold fieldCode at h
  split_ifs at h with hd <;> cases h
  · exact List.count_singleton_self.le.trans (if_pos hd).ge
  all_goals rw [if_neg hd]
  · exact (List.count_eq_zero.2 hname).le
  all_goals exact le_rfl

/-- The value that is taken apart is the one after `Exec=`. -/
theorem argv_of_lines {before name : List Char} (hname : value "Name=" before = some name)
    (hbefore : value "Exec=" before = none) (hexec : '\n' ∉ exec) (location after : List Char) :
    argv location (before ++ '\n' :: ("Exec=".toList ++ exec ++ '\n' :: after)) =
      words (fieldCode name location) exec := by
  have hline : value "Exec=" ("Exec=".toList ++ exec) = some exec := value_line (by simpa using hexec)
  rw [argv, value_append, value_append, value_append, hname, hbefore, hline]
  rfl

end Desktop

namespace Plist

def tagged (part : List Char) : List Char × List Char :=
  (part.takeWhile (· ≠ '>'), (part.dropWhile (· ≠ '>')).tail)

/-- Each tag with the text after it. -/
def markup (entry : List Char) : List (List Char × List Char) := (entry.splitOn '<').tail.map tagged

def xmlChar (n : ℕ) : Bool :=
  n == 0x9 || n == 0xA || n == 0xD || 0x20 ≤ n && n ≤ 0xD7FF || 0xE000 ≤ n && n ≤ 0xFFFD ||
    0x10000 ≤ n && n ≤ 0x10FFFF

def number (base : ℕ) (digits : List Char) : Option ℕ :=
  if digits = [] then none
  else digits.foldlM (fun n c => do
    let d ← Hex.value c
    if d.toNat < base then some (n * base + d.toNat) else none) 0

/-- The character that `&name;` stands for. -/
def reference (name : List Char) : Option Char :=
  if name = "amp".toList then some '&'
  else if name = "lt".toList then some '<'
  else if name = "gt".toList then some '>'
  else if name = "quot".toList then some '"'
  else if name = "apos".toList then some '\''
  else do
    let n ← match name with
      | '#' :: 'x' :: digits => number 16 digits
      | '#' :: digits => number 10 digits
      | _ => none
    if xmlChar n then some (Char.ofNat n) else none

/-- With `some name`, a reference of which `name` has been read, from its end. -/
def unescape : Option (List Char) → List Char → Option (List Char)
  | none, [] => some []
  | some _, [] => none
  | none, c :: cs => if c = '&' then unescape (some []) cs else (unescape none cs).map (c :: ·)
  | some name, c :: cs =>
    if c = ';' then do
      let d ← reference name.reverse
      let cs ← unescape none cs
      return d :: cs
    else unescape (some (c :: name)) cs

/-- Character data, in which `]]>` may not occur. -/
def text (cs : List Char) : Option (List Char) := if "]]>".toList <:+: cs then none else unescape none cs

/-- The strings up to the end of the array. -/
def strings : List (List Char × List Char) → Option (List (List Char))
  | [] => none
  | (tag, cs) :: rest =>
    if tag = "/array".toList then some []
    else
      match rest with
      | [] => none
      | (close, _) :: rest =>
        if tag = "string".toList ∧ close = "/string".toList then do
          let s ← text cs
          let ss ← strings rest
          return s :: ss
        else none

def array (key : String) : List (List Char × List Char) → Option (List (List Char))
  | [] => none
  | (tag, cs) :: rest =>
    if tag = "key".toList ∧ cs = key.toList then
      match rest with
      | _ :: (value, _) :: items => if value = "array".toList then strings items else none
      | _ => none
    else array key rest

def argv (entry : List Char) : Option (List (List Char)) := array "ProgramArguments" (markup entry)

variable {st : Option (List Char)} {cs t : List Char} {rest : List (List Char × List Char)} {ss : List (List Char)}

theorem markup_append (a b : List Char) : markup (a ++ '<' :: b) = markup a ++ (b.splitOn '<').map tagged := by
  rw [markup, List.splitOn_append_cons_self, List.tail_append_of_ne_nil (List.splitOn_ne_nil _ _), List.map_append,
    markup]

/-- A reference is longer than what it stands for. -/
theorem length_unescape (h : unescape st cs = some t) : t.length + cs.count '&' ≤ cs.length := by
  fun_induction unescape st cs generalizing t with
  | case1 => cases h; rfl
  | case2 => cases h
  | case3 cs ih =>
    have hcs := ih h
    rw [List.count_cons_self, List.length_cons]
    omega
  | case4 c cs hc ih =>
    obtain ⟨t', ht', rfl⟩ := Option.map_eq_some_iff.1 h
    have hcs := ih ht'
    rw [List.count_cons_of_ne hc, List.length_cons, List.length_cons]
    omega
  | case5 name cs ih =>
    obtain ⟨d, -, t', ht', rfl⟩ : ∃ d, reference name.reverse = some d ∧ ∃ t', unescape none cs = some t' ∧
        d :: t' = t := by
      simpa [Option.bind_eq_some_iff] using h
    have hcs := ih ht'
    rw [List.count_cons_of_ne (by decide), List.length_cons, List.length_cons]
    omega
  | case6 name c cs _ ih =>
    have hcs := ih h
    have hc := List.count_cons (a := '&') (b := c) (l := cs)
    rw [hc, List.length_cons]
    split_ifs <;> omega

theorem unescape_of_not_mem (h : '&' ∉ cs) : unescape none cs = some cs := by
  induction cs with
  | nil => rfl
  | cons c cs ih =>
    rw [List.mem_cons, not_or] at h
    rw [unescape, if_neg (Ne.symm h.1), ih h.2]
    rfl

/-- A text stands for no more characters than it has, and for itself only if there is no reference in it. -/
theorem text_eq_self : text cs = some cs ↔ '&' ∉ cs ∧ ¬ "]]>".toList <:+: cs := by
  constructor
  · intro h
    unfold text at h
    split_ifs at h with hend
    have hle := length_unescape h
    exact ⟨List.count_eq_zero.1 (by omega), hend⟩
  · rintro ⟨hmem, hend⟩
    rw [text, if_neg hend, unescape_of_not_mem hmem]

theorem length_text (h : text cs = some t) : t.length ≤ cs.length := by
  unfold text at h
  split_ifs at h
  exact Nat.le_of_add_right_le (length_unescape h)

theorem text_of_strings (h : strings (("string".toList, cs) :: rest) = some (t :: ss)) : text cs = some t := by
  cases rest with
  | nil => cases h
  | cons close rest =>
    rw [strings, if_neg (by decide)] at h
    split_ifs at h with hclose
    obtain ⟨s, hs, hss⟩ := Option.bind_eq_some_iff.1 h
    obtain ⟨ss', -, heq⟩ := Option.bind_eq_some_iff.1 hss
    cases heq
    exact hs

theorem eq_cons_of_take {ts : List (List Char × List Char)} {a b : List Char}
    (h : (ts.map Prod.fst).take 2 = [a, b]) : ∃ x y rest, ts = (a, x) :: (b, y) :: rest := by
  match ts, h with
  | [], h | [_], h => simp at h
  | (a', x) :: (b', y) :: rest, h =>
    obtain ⟨rfl, rfl⟩ : a' = a ∧ b' = b := by simpa using h
    exact ⟨x, y, rest, rfl⟩

/-- The only string is the path exactly if no tag begins in it and it stands for itself. -/
theorem strings_eq_self {path w : List Char}
    (hw : (((w.splitOn '<').map tagged).map Prod.fst).take 2 = ["/string".toList, "/array".toList]) :
    strings ((("string>".toList ++ path ++ '<' :: w).splitOn '<').map tagged) = some [path] ↔
      '<' ∉ path ∧ text path = some path := by
  have hsplit : ∀ u b : List Char, '<' ∉ u → (("string>".toList ++ u ++ '<' :: b).splitOn '<').map tagged =
      ("string".toList, u) :: (b.splitOn '<').map tagged := by
    intro u b hu
    rw [List.splitOn_append_cons_self_of_not_mem (by simpa using hu)]
    rfl
  by_cases hpath : '<' ∈ path
  · obtain ⟨u, v, rfl, hu⟩ := List.eq_append_cons_of_mem hpath
    have heq : "string>".toList ++ (u ++ '<' :: v) ++ '<' :: w = "string>".toList ++ u ++ '<' :: (v ++ '<' :: w) := by
      simp
    rw [heq, hsplit _ _ hu]
    refine ⟨fun h => ?_, fun h => absurd hpath h.1⟩
    -- What comes before the tag is too short.
    have hle := length_text (text_of_strings h)
    rw [List.length_append, List.length_cons] at hle
    omega
  · obtain ⟨x, y, rest, htags⟩ := eq_cons_of_take hw
    have hend : strings (("/array".toList, y) :: rest) = some [] := by rw [strings.eq_def]; rfl
    rw [hsplit _ _ hpath, htags, strings, if_neg (by decide), if_pos ⟨rfl, rfl⟩, hend]
    cases htext : text path with
    | none => simp
    | some t => simpa using fun _ => hpath

theorem argv_of_array {before : List Char}
    (hbefore : ∀ ts, array "ProgramArguments" (markup before ++ ts) = strings ts) (cs : List Char) :
    argv (before ++ '<' :: cs) = strings ((cs.splitOn '<').map tagged) := by
  rw [argv, markup_append, hbefore]

end Plist

namespace Script

/-- `%name%` is the value of a variable and `%%` one `%`; one that no other follows is dropped. With `some name`, a
name of which `name` has been read, from its end. -/
def expand (var : List Char → List Char) : Option (List Char) → List Char → List Char
  | none, [] => []
  | some name, [] => name.reverse
  | none, c :: cs => if c = '%' then expand var (some []) cs else c :: expand var none cs
  | some name, c :: cs =>
    if c = '%' then (if name = [] then ['%'] else var name.reverse) ++ expand var none cs
    else expand var (some (c :: name)) cs

def quotedWord (cs : List Char) : Option (List Char × List Char) :=
  match cs.dropWhile (· = ' ') with
  | '"' :: cs => some (cs.takeWhile (· ≠ '"'), (cs.dropWhile (· ≠ '"')).tail)
  | _ => none

/-- The program is the word after the quoted title. -/
def start (line : List Char) : Option (List (List Char)) := do
  let rest ← line.dropPrefix? "start ".toList
  let (_, rest) ← quotedWord rest
  let (program, rest) ← quotedWord rest
  return program :: (rest.splitOn ' ').filter (· ≠ [])

/-- A line is expanded before its carriage returns are removed and it is taken apart. -/
def argv (var : List Char → List Char) : List Char → Option (List (List Char)) :=
  firstLine fun line => start ((expand var none line).filter (· ≠ '\r'))

variable {st : Option (List Char)} {cs : List Char} {var : List Char → List Char}

/-- Where no variable has a value, at most half of the marks are left. -/
theorem count_expand (hst : ∀ name ∈ st, '%' ∉ name) :
    2 * (expand (fun _ => []) st cs).count '%' ≤ cs.count '%' + if st.isSome then 1 else 0 := by
  fun_induction expand (fun _ => []) st cs with
  | case1 => rfl
  | case2 name =>
    rw [List.count_eq_zero.2 (by simpa using hst name rfl)]
    exact Nat.zero_le _
  | case3 cs ih =>
    have hcs := ih (by rintro _ ⟨⟩; exact List.not_mem_nil)
    rw [List.count_cons_self]
    simpa using hcs
  | case4 c cs hc ih =>
    have hcs := ih nofun
    rw [List.count_cons_of_ne hc, List.count_cons_of_ne hc]
    exact hcs
  | case5 name cs ih =>
    have hcs : 2 * (expand (fun _ => []) none cs).count '%' ≤ cs.count '%' := ih nofun
    have hvalue : (if name = [] then ['%'] else []).count '%' ≤ 1 := by split_ifs <;> decide
    rw [List.count_append, List.count_cons_self, Option.isSome_some, if_pos rfl]
    omega
  | case6 name c cs hc ih =>
    have hcs := ih (by
      rintro _ ⟨⟩ hmem
      exact (List.mem_cons.1 hmem).elim (fun heq => hc heq.symm) (hst name rfl))
    rw [List.count_cons_of_ne hc]
    exact hcs

theorem expand_append {text : List Char} (h : '%' ∉ text) (cs : List Char) :
    expand var none (text ++ cs) = text ++ expand var none cs := by
  induction text with
  | nil => rfl
  | cons c text ih =>
    rw [List.mem_cons, not_or] at h
    rw [List.cons_append, expand, if_neg (Ne.symm h.1), ih h.2, List.cons_append]

theorem expand_of_not_mem (h : '%' ∉ cs) : expand var none cs = cs := by
  simpa [expand] using expand_append h []

theorem start_append (cs : List Char) :
    start ("start \"\" \"".toList ++ cs) =
      some (cs.takeWhile (· ≠ '"') :: (((cs.dropWhile (· ≠ '"')).tail).splitOn ' ').filter (· ≠ [])) := rfl

/-- What the command gets is the line that begins with `start`, expanded. -/
theorem argv_of_lines {before path : List Char} (hbefore : argv var before = none) (hpath : '\n' ∉ path) :
    argv var (before ++ '\n' :: ("start \"\" \"".toList ++ (path ++ "\"\r".toList) ++ '\n' :: [])) =
      start ("start \"\" \"".toList ++ (expand var none (path ++ "\"\r".toList)).filter (· ≠ '\r')) := by
  have hprefix : ("start \"\" \"".toList).filter (· ≠ '\r') = "start \"\" \"".toList := by decide +kernel
  have hend : argv var [] = none := rfl
  have hline : argv var ("start \"\" \"".toList ++ (path ++ "\"\r".toList)) =
      start ("start \"\" \"".toList ++ (expand var none (path ++ "\"\r".toList)).filter (· ≠ '\r')) := by
    rw [argv, firstLine_of_not_mem (by simpa using hpath), expand_append (by decide +kernel), List.filter_append,
      hprefix]
  rw [argv, firstLine_append, firstLine_append, ← argv, hbefore, hend, hline, Option.none_or, Option.or_none]

/-- Where no variable has a value, the path is the program only if no mark is lost and no quote ends the word. -/
theorem not_mem_of_start {path : List Char} {args : List (List Char)}
    (h : start ("start \"\" \"".toList ++ (expand (fun _ => []) none (path ++ "\"\r".toList)).filter (· ≠ '\r')) =
      some (path :: args)) : '%' ∉ path ∧ '"' ∉ path := by
  rw [start_append, Option.some.injEq, List.cons.injEq] at h
  have hquote : '"' ∉ path := fun hmem => by
    rw [← h.1] at hmem
    simpa using List.mem_takeWhile_imp hmem
  have hsub : path.Sublist (expand (fun _ => []) none (path ++ "\"\r".toList)) := by
    conv_lhs => rw [← h.1]
    exact (List.takeWhile_sublist _).trans List.filter_sublist
  have hle := hsub.count_le '%'
  have hcount : 2 * (expand (fun _ => []) none (path ++ "\"\r".toList)).count '%' ≤
    (path ++ "\"\r".toList).count '%' := count_expand nofun
  have htail : ("\"\r".toList).count '%' = 0 := by decide +kernel
  rw [List.count_append, htail] at hcount
  exact ⟨List.count_eq_zero.1 (by omega), hquote⟩

theorem start_of_not_mem {path : List Char} (hreturn : '\r' ∉ path) (hmark : '%' ∉ path) (hquote : '"' ∉ path) :
    start ("start \"\" \"".toList ++ (expand var none (path ++ "\"\r".toList)).filter (· ≠ '\r')) = some [path] := by
  have hexpand : expand var none (path ++ "\"\r".toList) = path ++ "\"\r".toList :=
    expand_of_not_mem (by simpa using hmark)
  have hfilter : (path ++ "\"\r".toList).filter (· ≠ '\r') = path ++ ['"'] := by
    rw [List.filter_append, List.filter_eq_self.2 fun c hc => decide_eq_true (ne_of_mem_of_not_mem hc hreturn)]
    rfl
  have hpos : ∀ c ∈ path, decide (c ≠ '"') = true := fun c hc => decide_eq_true (ne_of_mem_of_not_mem hc hquote)
  rw [hexpand, hfilter, start_append, List.takeWhile_append_of_pos hpos, List.dropWhile_append_of_pos hpos]
  simp

/-- Whatever the variables are, the program is the path exactly if nothing in it is expanded or ends the word. -/
theorem argv_eq_self {before path : List Char} (hbefore : ∀ var, argv var before = none) (hpath : '\n' ∉ path)
    (hreturn : '\r' ∉ path) :
    (∀ var, argv var (before ++ '\n' :: ("start \"\" \"".toList ++ (path ++ "\"\r".toList) ++ '\n' :: [])) =
      some [path]) ↔ '%' ∉ path ∧ '"' ∉ path := by
  constructor
  · intro h
    exact not_mem_of_start ((argv_of_lines (hbefore _) hpath).symm.trans (h _))
  · rintro ⟨hmark, hquote⟩ var
    rw [argv_of_lines (hbefore _) hpath]
    exact start_of_not_mem hreturn hmark hquote

end Script
end DeskSync.Entries
