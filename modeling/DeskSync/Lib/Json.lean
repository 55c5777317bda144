import Mathlib.Data.Int.Notation
import Mathlib.Data.Nat.Notation
import Mathlib.Data.List.Basic

/-!
# JSON documents

A document as a parser reads it, with the members of an object in order and repeated names kept. What a
repeated name means is up to the library that looks a member up: `only` refuses one, `last` takes the
last member with the given property. `agrees` compares names up to case.
-/

namespace DeskSync

/-- A number as it is written: an integer, or a decimal with its digits and the power of ten. -/
inductive Number
  | int (neg : Bool) (n : ℕ)
  | dec (neg : Bool) (digits : ℕ) (exponent : ℤ)
  deriving DecidableEq

inductive Json
  | null
  | bool (b : Bool)
  | num (n : Number)
  | str (s : String)
  | arr (items : List Json)
  | obj (members : List (String × Json))

namespace Json

abbrev Members := List (String × Json)

/-- An unsigned integer below the bound. -/
def uint (bound : ℕ) : Json → Option ℕ
  | num (.int false n) => if n < bound then some n else none
  | _ => none

def string : Json → Option String
  | str s => some s
  | _ => none

def isNull : Json → Bool
  | null => true
  | _ => false

theorem uint_eq_some {bound n : ℕ} {j : Json} :
    j.uint bound = some n ↔ j = num (.int false n) ∧ n < bound := by
  constructor
  · intro h
    unfold uint at h
    split at h
    · split at h
      · obtain rfl := Option.some.inj h
        exact ⟨rfl, ‹_›⟩
      · cases h
    · cases h
  · rintro ⟨rfl, hn⟩
    exact if_pos hn

@[simp] theorem uint_num {bound n : ℕ} (hn : n < bound) : (num (.int false n)).uint bound = some n :=
  if_pos hn

theorem string_eq_some {s : String} {j : Json} : j.string = some s ↔ j = str s := by
  cases j <;> simp [string]

/-- No object of the document has two members of one name. -/
inductive Distinct : Json → Prop
  | null : Distinct null
  | bool (b : Bool) : Distinct (bool b)
  | num (n : Number) : Distinct (num n)
  | str (s : String) : Distinct (str s)
  | arr (items : List Json) (h : ∀ j ∈ items, Distinct j) : Distinct (arr items)
  | obj (members : Members) (hnames : (members.map Prod.fst).Nodup) (h : ∀ m ∈ members, Distinct m.2) :
    Distinct (obj members)

/-- A library parses texts, and prints a document so that it parses back. -/
structure Library (Raw : Type) where
  parse : Raw → Option Json
  text : Json → Raw
  parse_text : ∀ j, parse (text j) = some j

/-- Documents that are texts already. -/
def documents : Library Json where
  parse := some
  text := id
  parse_text := fun _ => rfl

/-! ### Names up to case -/

/-- The letter with which a character agrees up to case; two letters beyond ASCII agree with one. -/
def foldRune (c : Char) : Char :=
  if c = '\u212a' then 'k' else if c = '\u017f' then 's' else c.toLower

/-- The key is the name, which is in lower case, up to case. -/
def agrees (name key : String) : Bool := key.toList.map foldRune = name.toList

theorem agrees_unique {name name' key : String} (h : agrees name key = true)
    (h' : agrees name' key = true) : name = name' := by
  simp only [agrees, decide_eq_true_eq] at h h'
  exact String.toList_injective (h.symm.trans h')

/-! ### Looking members up -/

/-- The value of the member of this name, if there is exactly one. -/
def only (name : String) (ms : Members) : Option Json :=
  match ms.filter (·.1 = name) with
  | [m] => some m.2
  | _ => none

/-- The value of the last member with the property. -/
def last (p : String × Json → Bool) : Members → Option Json
  | [] => none
  | m :: ms => (last p ms).or (if p m then some m.2 else none)

/-- There is exactly one member of this name, and it has this value. -/
def Once (name : String) (v : Json) (ms : Members) : Prop := ms.filter (·.1 = name) = [(name, v)]

theorem only_eq_some {name : String} {v : Json} {ms : Members} :
    only name ms = some v ↔ Once name v ms := by
  unfold only Once
  constructor
  · intro h
    split at h
    · rename_i m hm
      have hname : m.1 = name := by
        have hmem : m ∈ ms.filter (·.1 = name) := by simp [hm]
        simpa using (List.mem_filter.1 hmem).2
      rw [hm, ← hname, ← Option.some.inj h]
    · cases h
  · intro h
    rw [h]

end Json

end DeskSync
