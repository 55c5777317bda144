import DeskSync.Lib.Proc

/-!
# Removing devices

`DevicesController.remove` (`features/devices/application/devices_controller.dart`). It takes the device off
the list that is shown, asks the backend to delete it, and puts the whole list it has found back when that
fails. Any number of removals are under way at once; a step is what happens between two awaits, or the answer
of the backend.

A list that was remembered is out of date as soon as another removal has begun or failed meanwhile:
`removed_comes_back` is a run after which a deleted device is shown again. `shown_iff_upToDate`: at every
moment the list shown is the loaded one without the devices that are being removed or have been, if and only
if every list that is put back lacks exactly those of the other removals. `converges_of_upToDate`: then, once
all removals have finished, it lacks exactly the devices that were deleted.
-/

namespace DeskSync.Mobile.Devices

open Elements Proc
open Proc.Prog (perform)

/-- `Device`, as far as the list looks at it. -/
structure Device where
  id : String
  name : String
  deriving DecidableEq, Repr

/-! ### `DevicesController` -/

inductive Call
  /-- `previous` is read, and `state` set to it without the device. -/
  | hide (deviceId : String)
  | deleteDevice (deviceId : String)
  /-- `state` is set back. -/
  | restore (previous : List Device)
  deriving DecidableEq

@[reducible] def Reply : Call → Type
  | .hide _ => List Device
  | .deleteDevice _ => Except Unit Unit
  | .restore _ => Unit

abbrev Handler := Prog Reply

/-- A call on the list that is shown; the answer of the backend comes with the step. -/
def exec (answer : Except Unit Unit) : (c : Call) → List Device → Reply c × List Device
  | .hide deviceId, shown => (shown, shown.filter fun d => d.id != deviceId)
  | .deleteDevice _, shown => (answer, shown)
  | .restore previous, _ => ((), previous)

/-- The `catch` of `remove`. -/
def rollBack (previous : List Device) : Handler (Except Unit Unit) := do
  perform (Call.restore previous)
  return .error ()

/-- The rest of `remove`, after the device has been taken off the list. -/
def deleteOrRollBack (deviceId : String) (previous : List Device) : Handler (Except Unit Unit) := do
  let deleted : Except Unit Unit ← perform (Call.deleteDevice deviceId)
  match deleted with
  | .ok () => return .ok ()
  | .error () => rollBack previous

def remove (deviceId : String) : Handler (Except Unit Unit) := do
  let previous : List Device ← perform (Call.hide deviceId)
  deleteOrRollBack deviceId previous

/-- Any number of removals, each of the device it is started with. -/
def system : System (List Device) String Reply (Except Unit Unit) (Except Unit Unit) Empty where
  start deviceId _ := remove deviceId
  exec := exec
  env := nofun

abbrev World := Pool (List Device) String Reply (Except Unit Unit)

abbrev Step := Label String (Except Unit Unit) Empty

/-- The list has been loaded. -/
def loaded (initial : List Device) : World := ⟨initial, []⟩

/-! ### What is shown -/

/-- A removal that has begun and has not failed. -/
def hides (p : Handler (Except Unit Unit)) : Bool :=
  match p with
  | .call (.hide _) _ => false
  | .ret (.error ()) => false
  | _ => true

abbrev Removal := Thread String Reply (Except Unit Unit)

/-- Some of the removals hides the device. -/
def hidden (removals : List Removal) (deviceId : String) : Bool :=
  removals.any fun t => hides t.prog && t.req == deviceId

/-- The loaded list without the devices that the removals hide. -/
def visible (initial : List Device) (removals : List Removal) : List Device :=
  initial.filter fun d => !hidden removals d.id

def Shown (initial : List Device) (w : World) : Prop := w.store = visible initial w.threads

/-- The list that a removal puts back lacks exactly the devices that the other removals hide. -/
def UpToDate (initial : List Device) (w : World) : Step → Prop
  | .advance i _ =>
    match w.threads[i]? with
    | some ⟨_, .call (.restore previous) _⟩ => previous = visible initial (w.threads.eraseIdx i)
    | _ => True
  | _ => True

instance (initial : List Device) (w : World) (l : Step) : Decidable (UpToDate initial w l) := by
  unfold UpToDate
  split
  · split <;> infer_instance
  · infer_instance

/-- Once all removals have finished, the list is the loaded one without exactly the deleted devices. -/
def Converged (initial : List Device) (w : World) : Prop :=
  (∀ t ∈ w.threads, t.prog.result.isSome) →
    w.store = initial.filter fun d => ¬∃ t ∈ w.threads, t.req = d.id ∧ t.prog.result = some (.ok ())

theorem Shown.converged {initial : List Device} {w : World} (h : Shown initial w) : Converged initial w := by
  intro hall
  rw [h, visible]
  refine List.filter_congr fun d _ => ?_
  rw [Bool.eq_iff_iff, Bool.not_eq_true', decide_eq_true_eq, ← Bool.not_eq_true, not_iff_not, hidden,
    List.any_eq_true]
  refine exists_congr fun t => and_congr_right fun ht => ?_
  obtain ⟨q, p⟩ := t
  have hres := hall _ ht
  cases p with
  | call c k => cases hres
  | ret r =>
    cases r with
    | error => simp [hides]
    | ok => simp [hides]

/-! ### One removal more -/

/-- The stages of a removal. -/
inductive Stage (deviceId : String) : Handler (Except Unit Unit) → Prop
  | waiting : Stage deviceId (remove deviceId)
  | deleting (previous) : Stage deviceId (deleteOrRollBack deviceId previous)
  | rollingBack (previous) : Stage deviceId (rollBack previous)
  | returned (r) : Stage deviceId (.ret r)

theorem Stage.step {w : World} (h : w.All Stage) (l : Step) : (system.step w l).All Stage := by
  refine h.step (fun q e _ => .waiting) ?_
  rintro i e q c k rfl hi hstage
  cases hstage with
  | waiting => exact .deleting _
  | deleting previous =>
    show Stage q (match e with
      | .ok () => .ret (.ok ())
      | .error () => rollBack previous)
    cases e with
    | ok => exact .returned _
    | error => exact .rollingBack previous
  | rollingBack previous => exact .returned _

/-- A removal that hides its device as before leaves what is visible. -/
theorem visible_set {initial : List Device} {removals : List Removal} {i : ℕ} {q : String}
    {p p' : Handler (Except Unit Unit)} (hi : removals[i]? = some ⟨q, p⟩) (hp : hides p' = hides p) :
    visible initial (removals.set i ⟨q, p'⟩) = visible initial removals := by
  have hlt := (List.getElem?_eq_some_iff.1 hi).1
  unfold visible hidden
  simp only [any_set hlt, any_eraseIdx hi, hp]

/-- A removal that begins takes its device off. -/
theorem visible_hide {initial : List Device} {removals : List Removal} {i : ℕ} {q : String}
    {p p' : Handler (Except Unit Unit)} (hi : removals[i]? = some ⟨q, p⟩) (hp : hides p = false)
    (hp' : hides p' = true) : visible initial (removals.set i ⟨q, p'⟩) =
      (visible initial removals).filter fun d => d.id != q := by
  have hlt := (List.getElem?_eq_some_iff.1 hi).1
  unfold visible hidden
  rw [List.filter_filter]
  refine List.filter_congr fun d _ => ?_
  rw [any_set hlt, any_eraseIdx hi, hp, hp', Bool.false_and, Bool.true_and, Bool.false_or, Bool.not_or,
    bne, Bool.beq_comm]

/-- A removal that waits for its first step hides nothing. -/
theorem visible_spawn {initial : List Device} {removals : List Removal} {q : String} :
    visible initial (removals ++ [⟨q, remove q⟩]) = visible initial removals := by
  have hides_remove : hides (remove q) = false := rfl
  unfold visible hidden
  simp only [List.any_append, List.any_cons, List.any_nil, hides_remove, Bool.false_and, Bool.or_false]

/-- A removal that fails leaves what the others hide. -/
theorem visible_fail {initial : List Device} {removals : List Removal} {i : ℕ} {q : String}
    {p' : Handler (Except Unit Unit)} (hlt : i < removals.length) (hp' : hides p' = false) :
    visible initial (removals.set i ⟨q, p'⟩) = visible initial (removals.eraseIdx i) := by
  unfold visible hidden
  simp only [any_set hlt, hp', Bool.false_and, Bool.false_or]

/-- From a list that is as it should be, a step leads to one that is, if and only if it is up to date. -/
theorem shown_step_iff {initial : List Device} {w : World} (hstage : w.All Stage) (h : Shown initial w)
    (l : Step) : Shown initial (system.step w l) ↔ UpToDate initial w l := by
  cases l with
  | env v => cases v
  | spawn q e =>
    refine iff_of_true ?_ trivial
    show w.store = visible initial (w.threads ++ [⟨q, remove q⟩])
    rw [visible_spawn]
    exact h
  | advance i e =>
    rcases hi : w.threads[i]? with _ | ⟨q, r | ⟨c, k⟩⟩
    · simp only [System.step, UpToDate, hi]
      exact iff_of_true h trivial
    · simp only [System.step, UpToDate, hi]
      exact iff_of_true h trivial
    rw [system.step_advance hi]
    cases hstage i q _ hi with
    | waiting =>
      simp only [UpToDate, hi]
      refine iff_of_true ?_ trivial
      show w.store.filter _ = visible initial (w.threads.set i ⟨q, deleteOrRollBack q w.store⟩)
      rw [visible_hide hi rfl rfl, ← h]
    | deleting previous =>
      simp only [UpToDate, hi]
      refine iff_of_true ?_ trivial
      cases e with
      | ok =>
        show w.store = visible initial (w.threads.set i ⟨q, .ret (.ok ())⟩)
        exact h.trans (visible_set hi (by rfl)).symm
      | error =>
        show w.store = visible initial (w.threads.set i ⟨q, rollBack previous⟩)
        exact h.trans (visible_set hi (by rfl)).symm
    | rollingBack previous =>
      have hlt := (List.getElem?_eq_some_iff.1 hi).1
      have hfail : visible initial (w.threads.set i ⟨q, .ret (.error ())⟩) =
          visible initial (w.threads.eraseIdx i) := visible_fail hlt rfl
      show previous = visible initial (w.threads.set i ⟨q, .ret (.error ())⟩) ↔ _
      rw [hfail]
      simp only [UpToDate, hi]

/-! ### Runs -/

theorem loaded_shown (initial : List Device) : Shown initial (loaded initial) := by
  simp [Shown, loaded, visible, hidden]

theorem shown_iff_upToDate (initial : List Device) (l : List Step) :
    Run.Always system.step (Shown initial) (loaded initial) l ↔
      Run.Guarded system.step (UpToDate initial) (loaded initial) l := by
  refine Run.always_iff_guarded (J := fun w => w.All Stage ∧ Shown initial w) (fun w h => h.2) ?_ ?_
    ⟨.nil _, loaded_shown initial⟩ l
  · exact fun w a h hg => ⟨Stage.step h.1 a, (shown_step_iff h.1 h.2 a).2 hg⟩
  · exact fun w a h hI => (shown_step_iff h.1 h.2 a).1 hI

theorem converges_of_upToDate (initial : List Device) (l : List Step)
    (h : Run.Guarded system.step (UpToDate initial) (loaded initial) l) :
    Run.Always system.step (Converged initial) (loaded initial) l :=
  ((shown_iff_upToDate initial l).2 h).mono fun _ => Shown.converged

/-- Two devices are removed. The first removal fails after the second one has succeeded. -/
def twoDevices : List Device := [⟨"a", "Phone"⟩, ⟨"b", "Desk"⟩]

/-- They overlap: the list that the first one remembers still has the second device. -/
def overlapping : List Step :=
  [.spawn "a" (.ok ()), .spawn "b" (.ok ()), .advance 0 (.ok ()), .advance 1 (.ok ()), .advance 1 (.ok ()),
    .advance 0 (.error ()), .advance 0 (.ok ())]

/-- The removal that fails has begun after the other one. -/
def nested : List Step :=
  [.spawn "b" (.ok ()), .spawn "a" (.ok ()), .advance 0 (.ok ()), .advance 1 (.ok ()),
    .advance 1 (.error ()), .advance 1 (.ok ()), .advance 0 (.ok ())]

theorem removed_comes_back :
    ¬Converged twoDevices (Run.exec system.step (loaded twoDevices) overlapping) := by
  intro h
  have hend := h (by decide)
  revert hend
  decide

theorem nested_converges :
    Run.Always system.step (Converged twoDevices) (loaded twoDevices) nested ∧
      (Run.exec system.step (loaded twoDevices) nested).store = [⟨"a", "Phone"⟩] :=
  ⟨converges_of_upToDate twoDevices nested (by decide), by decide⟩

end DeskSync.Mobile.Devices
