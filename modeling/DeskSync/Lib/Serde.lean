import DeskSync.Lib.Json

/-!
# What serde derives

The readers that `#[derive(Deserialize)]` generates, over JSON documents: the names that the renaming rules
give to the variants of an enumeration, the fields of a structure in an object or an array, enumerations of
unit variants, and internally tagged enumerations. A document that is not read is `none`; the texts of the
errors are left out.

`fields_obj`, `tagged_cons`: in an object without repeated names the fields are looked up, and a tag that
comes first is taken off.
-/

namespace DeskSync.Serde

open Json (Members only)

variable {α : Type}

/-! ### Names -/

/-- `rename_all = "snake_case"` on a variant. -/
def snakeCase (variant : String) : String :=
  .ofList <| variant.toList.zipIdx.flatMap fun p =>
    (if 0 < p.2 ∧ p.1.isUpper then ['_'] else []) ++ [p.1.toLower]

/-- `rename_all = "lowercase"` on a variant. -/
def lowercase (variant : String) : String := .ofList (variant.toList.map Char.toLower)

/-! ### Values -/

def boolean : Json → Option Bool
  | .bool b => some b
  | _ => none

/-- A number, read as a floating-point number. -/
def float (read : Number → Option α) : Json → Option α
  | .num n => read n
  | _ => none

/-! ### Structures -/

/-- The value of a field, if it is there; a field must not be repeated. -/
def member (ms : Members) (name : String) : Option (Option Json) :=
  match ms.filter (·.1 = name) with
  | [] => some none
  | [m] => some (some m.2)
  | _ => none

/-- The values of the fields with these names, from an object, or from an array in order. Other members of
an object are ignored. -/
def fields (names : List String) : Json → Option (List (Option Json))
  | .obj ms => names.mapM (member ms)
  | .arr items =>
    if items.length ≤ names.length then some ((List.range names.length).map (items[·]?)) else none
  | _ => none

def required (read : Json → Option α) (field : Option Json) : Option α := field.bind read

/-- A field with `default`. -/
def defaulted (default : α) (read : Json → Option α) : Option Json → Option α
  | none => some default
  | some j => read j

/-- A field of type `Option` with `default`. -/
def optional (read : Json → Option α) : Option Json → Option (Option α)
  | none => some none
  | some .null => some none
  | some j => (read j).map some

/-! ### Enumerations -/

/-- An enumeration of unit variants, from a buffered value: the name, or an object with the name alone. -/
def unitVariant (variants : List (String × α)) : Json → Option α
  | .str name => variants.lookup name
  | .obj [(name, .null)] => variants.lookup name
  | .obj [(name, .obj [])] => variants.lookup name
  | _ => none

/-- The variant of a tag that was buffered: by its name, or by its number. -/
def bufferedTag (variants : List (String × α)) : Json → Option α
  | .str name => variants.lookup name
  | .num (.int false n) => variants[n]?.map Prod.snd
  | _ => none

/-- An internally tagged enumeration: its tag, and what is left. -/
def tagged (tag : String) : Json → Option (Json × Json)
  | .obj ms => (only tag ms).map (·, .obj (ms.filter (·.1 ≠ tag)))
  | .arr (t :: rest) => some (t, .arr rest)
  | _ => none

/-! ### Objects without repeated names -/

variable {ms : Members}

theorem filter_name (hms : (ms.map Prod.fst).Nodup) (name : String) :
    ms.filter (·.1 = name) = (ms.lookup name).toList.map (name, ·) := by
  induction ms with
  | nil => rfl
  | cons m ms ih =>
    obtain ⟨hnot, hnodup⟩ := List.nodup_cons.1 hms
    by_cases heq : m.1 = name
    · obtain ⟨_, v⟩ := m
      subst heq
      have hrest : ∀ m ∈ ms, m.1 ≠ _ := fun m hm hname => hnot (List.mem_map.2 ⟨m, hm, hname⟩)
      simpa using hrest
    · have hne : (name == m.1) = false := beq_false_of_ne (Ne.symm heq)
      rw [List.filter_cons_of_neg (by simpa using heq), ih hnodup, List.lookup_cons, hne]

theorem only_obj (hms : (ms.map Prod.fst).Nodup) (name : String) : only name ms = ms.lookup name := by
  rw [only, filter_name hms]
  cases ms.lookup name <;> rfl

theorem member_obj (hms : (ms.map Prod.fst).Nodup) (name : String) :
    member ms name = some (ms.lookup name) := by
  rw [member, filter_name hms]
  cases ms.lookup name <;> rfl

/-- Every field is looked up. -/
theorem fields_obj (hms : (ms.map Prod.fst).Nodup) (names : List String) :
    fields names (.obj ms) = some (names.map (ms.lookup ·)) := by
  rw [fields]
  induction names with
  | nil => rfl
  | cons name names ih =>
    rw [List.mapM_cons, member_obj hms, ih]
    rfl

/-- An object that starts with a name, without the name. -/
theorem filter_cons {name : String} {v : Json} (hms : (((name, v) :: ms).map Prod.fst).Nodup) :
    ((name, v) :: ms).filter (·.1 ≠ name) = ms := by
  have hnot := (List.nodup_cons.1 hms).1
  rw [List.filter_cons_of_neg (by simp), List.filter_eq_self]
  intro m hm
  exact decide_eq_true fun hname => hnot (List.mem_map.2 ⟨m, hm, hname⟩)

/-- An object that starts with its tag. -/
theorem tagged_cons {tag : String} {v : Json} (hms : (((tag, v) :: ms).map Prod.fst).Nodup) :
    tagged tag (.obj ((tag, v) :: ms)) = some (v, .obj ms) := by
  rw [tagged, only_obj hms, filter_cons hms, List.lookup_cons_self]
  rfl

end DeskSync.Serde
