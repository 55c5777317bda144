import DeskSync.DevTools.Registry

/-!
# The registries as finite maps

Any number of `upsert` and `remove` calls, from a registry that `from_items` has built (`new` builds the empty
one, which is that of no items). What `get` finds after them is a finite map, changed by one call at a time
(`get_run`), and that map holds the item of the last accepted `upsert` that no removal has followed
(`foldl_onMap_iff`). `registries_map` puts this and the rest together for both registries.
-/

namespace DeskSync.DevTools

/-- A call that may change a registry. -/
inductive Op (α : Type) where
  | upsert (x : α)
  | remove (id : String)

/-- What a call returns. -/
inductive Reply where
  | upserted (result : Result Unit)
  | removed (existed : Bool)

namespace Registry

variable {α : Type} {key : α → String} {validate : α → Result Unit}

/-- A call on `&mut self`. A rejected item is not put into the list. -/
def call (r : Registry key validate) : Op α → Reply × Registry key validate
  | .upsert x =>
    match r.upsert x with
    | .ok r' => (.upserted (.ok ()), r')
    | .error e => (.upserted (.error e), r)
  | .remove id => (.removed (r.remove id).1, (r.remove id).2)

def run (r : Registry key validate) (ops : List (Op α)) : Registry key validate :=
  ops.foldl (fun r op => (r.call op).2) r

/-! ### The abstract map -/

/-- The map after a call. -/
def onMap (key : α → String) (validate : α → Result Unit) (m : String → Option α) : Op α → String → Option α
  | .upsert x => if validate x = .ok () then Function.update m (key x) (some x) else m
  | .remove id => Function.update m id none

/-- A call that decides what is under the id: an accepted `upsert` of it, or its removal. -/
def Touches (key : α → String) (validate : α → Result Unit) (id : String) : Op α → Prop
  | .upsert x => validate x = .ok () ∧ key x = id
  | .remove id' => id' = id

/-- The last accepted `upsert` of the id put the item, and the id has not been removed since. -/
def LastAccepted (key : α → String) (validate : α → Result Unit) (history : List (Op α)) (id : String) (x : α) :
    Prop :=
  ∃ before after, history = before ++ .upsert x :: after ∧ Touches key validate id (.upsert x) ∧
    ∀ op ∈ after, ¬Touches key validate id op

section Map
variable {m : String → Option α} {op : Op α} {id : String} {x : α} {history : List (Op α)}

theorem onMap_of_not_touches (h : ¬Touches key validate id op) : onMap key validate m op id = m id := by
  cases op with
  | upsert x =>
    simp only [onMap]
    split_ifs with hvalid
    · exact Function.update_of_ne (fun heq => h ⟨hvalid, heq.symm⟩) _ _
    · rfl
  | remove id' => exact Function.update_of_ne (fun heq => h heq.symm) _ _

/-- Under a touched id is what an `upsert` has put there. -/
theorem onMap_touches (h : Touches key validate id op) :
    onMap key validate m op id = some x ↔ op = .upsert x := by
  cases op with
  | upsert y =>
    obtain ⟨hvalid, rfl⟩ := h
    rw [onMap, if_pos hvalid, Function.update_self, Option.some.injEq, Op.upsert.injEq]
  | remove id' =>
    obtain rfl : id' = id := h
    rw [onMap, Function.update_self]
    exact iff_of_false (fun heq => nomatch heq) (fun heq => nomatch heq)

/-- Nothing comes after an item if the last call touches its id. -/
theorem lastAccepted_touches (h : Touches key validate id op) :
    LastAccepted key validate (history ++ [op]) id x ↔ op = .upsert x := by
  constructor
  · rintro ⟨earlier, later, heq, -, hlater⟩
    rcases later.eq_nil_or_concat with rfl | ⟨later, last, rfl⟩
    · exact List.singleton_injective (List.append_inj' heq rfl).2
    · rw [List.concat_eq_append, ← List.cons_append, ← List.append_assoc] at heq
      obtain rfl := List.singleton_injective (List.append_inj' heq rfl).2
      exact absurd h (hlater op (by simp))
  · rintro rfl
    exact ⟨history, [], rfl, h, fun _ hop => absurd hop List.not_mem_nil⟩

theorem lastAccepted_of_not_touches (h : ¬Touches key validate id op) :
    LastAccepted key validate (history ++ [op]) id x ↔ LastAccepted key validate history id x := by
  constructor
  · rintro ⟨earlier, later, heq, hx, hlater⟩
    rcases later.eq_nil_or_concat with rfl | ⟨later, last, rfl⟩
    · obtain rfl := List.singleton_injective (List.append_inj' heq rfl).2
      exact absurd hx h
    · rw [List.concat_eq_append, ← List.cons_append, ← List.append_assoc] at heq
      obtain ⟨rfl, -⟩ := List.append_inj' heq rfl
      exact ⟨earlier, later, rfl, hx, fun o ho => hlater o (by simp [ho])⟩
  · rintro ⟨earlier, later, rfl, hx, hlater⟩
    refine ⟨earlier, later ++ [op], by simp, hx, fun o ho => ?_⟩
    rcases List.mem_append.1 ho with ho | ho
    · exact hlater o ho
    · rwa [List.mem_singleton.1 ho]

/-- The map that the calls leave holds the last accepted items. -/
theorem foldl_onMap_iff : history.foldl (onMap key validate) (fun _ => none) id = some x ↔
    LastAccepted key validate history id x := by
  induction history using List.reverseRecOn with
  | nil =>
    refine iff_of_false (fun h => nomatch h) ?_
    rintro ⟨earlier, later, heq, -⟩
    simp at heq
  | append_singleton history op ih =>
    rw [List.foldl_append, List.foldl_cons, List.foldl_nil]
    by_cases htouches : Touches key validate id op
    · rw [onMap_touches htouches, lastAccepted_touches htouches]
    · rw [onMap_of_not_touches htouches, lastAccepted_of_not_touches htouches, ih]

end Map

/-! ### The list refines the map -/

section Items
variable {x y : α} {items : List α} {id : String}

theorem put_cons_of_eq (h : key y = key x) : put key x (y :: items) = x :: items := by
  simp [put, List.findIdx?_cons, h]

theorem put_cons_of_ne (h : key y ≠ key x) : put key x (y :: items) = y :: put key x items := by
  simp only [put, List.findIdx?_cons, h, decide_false, Bool.false_eq_true, if_false]
  cases items.findIdx? fun y => decide (key y = key x) with
  | none => rfl
  | some i => rfl

theorem find_put : (put key x items).find? (fun y => key y = id) =
    if key x = id then some x else items.find? fun y => key y = id := by
  induction items with
  | nil => by_cases hx : key x = id <;> simp [put, hx]
  | cons y items ih =>
    by_cases hyx : key y = key x
    · rw [put_cons_of_eq hyx]
      by_cases hx : key x = id
      · simp [hx]
      · simp [hx, hyx]
    · rw [put_cons_of_ne hyx]
      by_cases hy : key y = id
      · have hx : key x ≠ id := fun hx => hyx (hy.trans hx.symm)
        simp [hy, hx]
      · simp only [List.find?_cons, hy, decide_false, ih]

/-- The other items stay in their order. -/
theorem filter_put : (put key x items).filter (fun y => key y ≠ key x) =
    items.filter fun y => key y ≠ key x := by
  induction items with
  | nil => simp [put]
  | cons y items ih =>
    by_cases hyx : key y = key x
    · rw [put_cons_of_eq hyx]
      simp [hyx]
    · rw [put_cons_of_ne hyx, List.filter_cons, List.filter_cons, ih]

end Items

section Calls
variable {r r' : Registry key validate} {x : α}

/-- What `upsert` does to a registry. -/
theorem upsert_cases (r : Registry key validate) (x : α) :
    (∃ e, validate x = .error e ∧ r.upsert x = .error e) ∨
      ∃ r', validate x = .ok () ∧ r.upsert x = .ok r' ∧ r'.items = put key x r.items := by
  unfold upsert
  split
  · next e h => exact .inl ⟨e, h, rfl⟩
  · next h => exact .inr ⟨_, h, rfl, rfl⟩

theorem get_call (r : Registry key validate) (op : Op α) :
    (r.call op).2.get = onMap key validate r.get op := by
  funext id
  cases op with
  | upsert x =>
    rcases upsert_cases r x with ⟨e, hvalid, hr⟩ | ⟨r', hvalid, hr, hitems⟩
    · simp only [call, hr, onMap, hvalid, reduceCtorEq, if_false]
    · simp only [call, hr, onMap, hvalid, if_true, Function.update_apply]
      rw [get, hitems, find_put]
      exact if_congr eq_comm rfl rfl
  | remove id' =>
    show (r.items.filter fun x => key x ≠ id').find? (fun x => key x = id) = Function.update r.get id' none id
    rw [List.find?_filter, Function.update_apply]
    split_ifs with hid
    · subst hid
      refine List.find?_eq_none.2 fun y _ => ?_
      simp
    · refine congrArg (r.items.find? ·) (funext fun y => ?_)
      by_cases hy : key y = id
      · simp [hy, hid]
      · simp [hy]

theorem get_run (r : Registry key validate) (ops : List (Op α)) :
    (r.run ops).get = ops.foldl (onMap key validate) r.get := by
  induction ops generalizing r with
  | nil => rfl
  | cons op ops ih =>
    rw [List.foldl_cons, ← get_call]
    exact ih (r.call op).2

/-- A registry that `from_items` builds is what the `upsert`s of the items leave. -/
theorem foldlM_upsert {items : List α} (h : items.foldlM upsert r = .ok r') : r' = r.run (items.map .upsert) := by
  induction items generalizing r with
  | nil =>
    cases h
    rfl
  | cons x items ih =>
    rw [List.foldlM_cons] at h
    rcases upsert_cases r x with ⟨e, -, hr⟩ | ⟨r₁, -, hr, -⟩
    · rw [hr] at h
      cases h
    · rw [hr] at h
      rw [ih h, List.map_cons]
      simp only [run, List.foldl_cons, call, hr]

theorem fromItems_isOk {items : List α} : (∃ r : Registry key validate, fromItems items = .ok r) ↔
    ∀ x ∈ items, validate x = .ok () := by
  have hfold (r : Registry key validate) : (∃ r', items.foldlM upsert r = .ok r') ↔
      ∀ x ∈ items, validate x = .ok () := by
    induction items generalizing r with
    | nil => exact iff_of_true ⟨r, rfl⟩ fun x hx => absurd hx List.not_mem_nil
    | cons x items ih =>
      rw [List.foldlM_cons, List.forall_mem_cons]
      rcases upsert_cases r x with ⟨e, hvalid, hr⟩ | ⟨r₁, hvalid, hr, -⟩
      · rw [hr, hvalid]
        exact iff_of_false (fun ⟨_, h⟩ => nomatch h) fun h => nomatch h.1
      · rw [hr]
        exact (ih r₁).trans (iff_and_self.2 fun _ => hvalid)
  exact hfold new

end Calls

/-! ### The result -/

/-- What makes the registries over such items finite maps. -/
structure IsMap (key : α → String) (validate : α → Result Unit) : Prop where
  /-- After any calls on a registry built from any items. -/
  run : ∀ (items : List α) (r : Registry key validate) (ops : List (Op α)), fromItems items = .ok r →
    ((r.run ops).items.map key).Nodup ∧ (∀ x ∈ (r.run ops).items, validate x = .ok ()) ∧
      ∀ id x, (r.run ops).get id = some x ↔ LastAccepted key validate (items.map .upsert ++ ops) id x
  rejected : ∀ (r : Registry key validate) (x : α) (e : DevToolsError), validate x = .error e →
    r.call (.upsert x) = (.upserted (.error e), r)
  /-- The other items stay in their order. -/
  accepted : ∀ (r : Registry key validate) (x : α), validate x = .ok () →
    (r.call (.upsert x)).1 = .upserted (.ok ()) ∧ (r.call (.upsert x)).2.get (key x) = some x ∧
      (r.call (.upsert x)).2.items.filter (fun y => key y ≠ key x) = r.items.filter fun y => key y ≠ key x
  loads : ∀ items : List α, (∃ r : Registry key validate, fromItems items = .ok r) ↔
    ∀ x ∈ items, validate x = .ok ()

theorem isMap (key : α → String) (validate : α → Result Unit) : IsMap key validate := by
  refine ⟨fun items r ops h => ⟨(r.run ops).distinct, (r.run ops).valid, fun id x => ?_⟩,
    fun r x e hvalid => ?_, fun r x hvalid => ?_, fun items => fromItems_isOk⟩
  · have hr : r.run ops = new.run (items.map .upsert ++ ops) := by
      rw [foldlM_upsert h, run, run, run, List.foldl_append]
    have hnew : (new : Registry key validate).get = fun _ => none := rfl
    rw [hr, get_run, hnew, foldl_onMap_iff]
  · rcases upsert_cases r x with ⟨e', hvalid', hr⟩ | ⟨r', hvalid', -⟩
    · obtain rfl := Except.error.inj (hvalid.symm.trans hvalid')
      simp only [call, hr]
    · rw [hvalid] at hvalid'
      cases hvalid'
  · rcases upsert_cases r x with ⟨e', hvalid', hr⟩ | ⟨r', -, hr, hitems⟩
    · rw [hvalid] at hvalid'
      cases hvalid'
    · refine ⟨?_, ?_, ?_⟩
      · simp only [call, hr]
      · rw [get_call, onMap, if_pos hvalid, Function.update_self]
      · simp only [call, hr, hitems, filter_put]

end Registry

/-- For every notion of absolute paths, the workspaces are a finite map, and so are the SSH hosts. -/
theorem registries_map : (∀ isAbsolute, Registry.IsMap Workspace.id (validateWorkspace isAbsolute)) ∧
    Registry.IsMap SshHost.id validateHost :=
  ⟨fun isAbsolute => Registry.isMap Workspace.id (validateWorkspace isAbsolute), Registry.isMap SshHost.id validateHost⟩

end DeskSync.DevTools
