import DeskSync.DevTools.Model
import Mathlib.Data.List.Nodup

/-!
# The registries of workspaces and SSH hosts

`registry.rs` of the `devtools` crate. The two registries differ in the check an item has to pass, so
they are one structure over an item's id and its check: a list of checked items, no two with one id.
`new`, `upsert` and `remove` build no others, and every registry is built by `from_items`
(`fromItems_items`).

`Path::is_absolute` depends on the platform the agent is built for and is a parameter.
-/

namespace DeskSync.DevTools

/-! ### Strings -/

/-- `char::is_whitespace`. -/
def isWhitespace (c : Char) : Bool :=
  let n := c.toNat
  (9 ≤ n && n ≤ 13) || n = 32 || n = 0x85 || n = 0xA0 || n = 0x1680 || (0x2000 ≤ n && n ≤ 0x200A) ||
    n = 0x2028 || n = 0x2029 || n = 0x202F || n = 0x205F || n = 0x3000

/-- `char::is_control`. -/
def isControl (c : Char) : Bool :=
  let n := c.toNat
  n ≤ 0x1F || (0x7F ≤ n && n ≤ 0x9F)

/-- `str::trim`. -/
def trim (s : String) : String := String.ofList ((s.toList.dropWhile isWhitespace).rdropWhile isWhitespace)

/-! ### Validation -/

@[irreducible] def validateWorkspace (isAbsolute : String → Bool) (w : Workspace) : Result Unit :=
  if (trim w.id).isEmpty then .error (.invalid "workspace" "id must not be empty")
  else if (trim w.name).isEmpty then .error (.invalid "workspace" "name must not be empty")
  else if (trim w.path).isEmpty || !isAbsolute w.path then
    .error (.invalid "workspace" "path must be absolute")
  else .ok ()

/-- The body of the loop over the user and the host. -/
def validateField (field value : String) : Result Unit :=
  if (trim value).isEmpty then .error (.invalid "ssh host" (field ++ " must not be empty"))
  else if value.toList.any fun c => isWhitespace c || isControl c then
    .error (.invalid "ssh host" (field ++ " must not contain whitespace or control characters"))
  else .ok ()

def validateHost (h : SshHost) : Result Unit :=
  if (trim h.id).isEmpty then .error (.invalid "ssh host" "id must not be empty")
  else if (trim h.label).isEmpty then .error (.invalid "ssh host" "label must not be empty")
  else do
    for (field, value) in [("user", h.user), ("host", h.host)] do
      validateField field value
    if h.port = 0 then .error (.invalid "ssh host" "port must be non-zero")
    else .ok ()

/-! ### Registries -/

structure Registry {α : Type} (key : α → String) (validate : α → Result Unit) where
  items : List α
  valid : ∀ x ∈ items, validate x = .ok ()
  distinct : (items.map key).Nodup

namespace Registry

variable {α : Type} {key : α → String} {validate : α → Result Unit}

def new : Registry key validate := ⟨[], by simp, by simp⟩

def get (r : Registry key validate) (id : String) : Option α := r.items.find? fun x => key x = id

/-- The items after `x` has been put in the place of the one with its id, or at the end. -/
def put (key : α → String) (x : α) (items : List α) : List α :=
  match items.findIdx? fun y => key y = key x with
  | some i => items.set i x
  | none => items ++ [x]

theorem mem_put {x y : α} {items : List α} (h : y ∈ put key x items) : y = x ∨ y ∈ items := by
  unfold put at h
  split at h
  · exact (List.mem_or_eq_of_mem_set h).symm
  · simpa [or_comm] using h

theorem nodup_put {x : α} {items : List α} (h : (items.map key).Nodup) :
    ((put key x items).map key).Nodup := by
  unfold put
  split
  · rename_i i hi
    obtain ⟨hlt, hkey, -⟩ := List.findIdx?_eq_some_iff_getElem.1 hi
    have hsame : (items.map key).set i (key x) = items.map key := by
      rw [← of_decide_eq_true hkey, ← List.getElem_map key (h := by simpa using hlt), List.set_getElem_self]
    rw [List.map_set, hsame]
    exact h
  · rename_i hnone
    have hnew : key x ∉ items.map key := by
      intro hmem
      obtain ⟨y, hy, hkey⟩ := List.mem_map.1 hmem
      have hne := List.findIdx?_eq_none_iff.1 hnone y hy
      simp [hkey] at hne
    rw [List.map_append, List.map_singleton]
    exact List.nodup_append.2 ⟨h, List.nodup_singleton _, fun a ha b hb => by
      rw [List.mem_singleton.1 hb]
      exact fun heq => hnew (heq ▸ ha)⟩

/-- Insert or replace an item after validating it. -/
def upsert (r : Registry key validate) (x : α) : Result (Registry key validate) :=
  match h : validate x with
  | .error e => .error e
  | .ok () => .ok
    { items := put key x r.items
      valid := fun y hy => (mem_put hy).elim (fun heq => heq ▸ h) (r.valid y)
      distinct := nodup_put r.distinct }

/-- Remove an item by id; returns whether it existed. -/
def remove (r : Registry key validate) (id : String) : Bool × Registry key validate :=
  let items := r.items.filter fun x => key x ≠ id
  (items.length != r.items.length,
    { items
      valid := fun x hx => r.valid x (List.mem_filter.1 hx).1
      distinct := r.distinct.sublist (List.filter_sublist.map key) })

/-- Build from persisted items, validating each. -/
def fromItems (items : List α) : Result (Registry key validate) := items.foldlM upsert new

theorem mem_of_get {r : Registry key validate} {id : String} {x : α} (h : r.get id = some x) :
    x ∈ r.items ∧ key x = id :=
  ⟨List.mem_of_find?_eq_some h, by simpa using List.find?_some h⟩

/-- An item is found under its id. -/
theorem get_key {r : Registry key validate} {x : α} (h : x ∈ r.items) : r.get (key x) = some x := by
  cases hget : r.get (key x) with
  | none =>
    have hne := List.find?_eq_none.1 hget x h
    simp at hne
  | some y =>
    obtain ⟨hy, hkey⟩ := mem_of_get hget
    rw [List.inj_on_of_nodup_map r.distinct hy h hkey]

theorem upsert_new {r : Registry key validate} {x : α} (hvalid : validate x = .ok ())
    (hnew : key x ∉ r.items.map key) : ∃ r', r.upsert x = .ok r' ∧ r'.items = r.items ++ [x] := by
  have hput : put key x r.items = r.items ++ [x] := by
    have hnone : r.items.findIdx? (fun y => key y = key x) = none := by
      refine List.findIdx?_eq_none_iff.2 fun y hy => ?_
      exact decide_eq_false fun heq => hnew (List.mem_map.2 ⟨y, hy, heq⟩)
    rw [put, hnone]
  unfold upsert
  split
  · rename_i e he
    rw [hvalid] at he
    cases he
  · exact ⟨_, rfl, hput⟩

/-- Every registry is what `from_items` builds from its items. -/
theorem fromItems_items (r : Registry key validate) : fromItems r.items = .ok r := by
  have hfold (items rest : List α) (hitems : items ++ rest = r.items) :
      ∀ r' : Registry key validate, r'.items = items →
        (rest.foldlM upsert r' : Result (Registry key validate)) = .ok r := by
    induction rest generalizing items with
    | nil =>
      intro r' hr'
      rw [List.append_nil] at hitems
      obtain ⟨items', hv, hd⟩ := r'
      obtain ⟨ritems, hv', hd'⟩ := r
      dsimp only at hr' hitems
      subst hr' hitems
      rfl
    | cons x rest ih =>
      intro r' hr'
      have hx : validate x = .ok () := r.valid x (by rw [← hitems]; simp)
      have hnew : key x ∉ r'.items.map key := by
        have hdistinct := r.distinct
        rw [← hitems, List.map_append, List.map_cons] at hdistinct
        rw [hr']
        intro hmem
        exact (List.nodup_append.1 hdistinct).2.2 _ hmem _ List.mem_cons_self rfl
      obtain ⟨r'', hr'', hitems''⟩ := upsert_new hx hnew
      rw [List.foldlM_cons, hr'']
      exact ih (items ++ [x]) (by rw [← hitems]; simp) r'' (by rw [hitems'', hr'])
  exact hfold [] r.items rfl new rfl

end Registry

abbrev WorkspaceRegistry (isAbsolute : String → Bool) := Registry Workspace.id (validateWorkspace isAbsolute)

/-- Resolve a workspace path by id, or a typed error. -/
def resolvePath {isAbsolute : String → Bool} (r : WorkspaceRegistry isAbsolute) (id : String) :
    Result String :=
  match r.get id with
  | some w => .ok w.path
  | none => .error (.unknownWorkspace id)

abbrev SshHostRegistry := Registry SshHost.id validateHost

/-- Resolve a host by id, or a typed error. -/
def resolve (r : SshHostRegistry) (id : String) : Result SshHost :=
  match r.get id with
  | some h => .ok h
  | none => .error (.unknownHost id)

end DeskSync.DevTools
