import DeskSync.Lib.Proc
import DeskSync.Media.Scaling

/-!
# Starting and stopping the capture loop

`CaptureLoop::start` and `stop` of the agent's capture crate (`pipeline.rs`), and the tasks they spawn and
abort. A step is what a call does between two awaits, or what a task does between two of its own.

Between setting the flag and spawning its task a `start` waits for the monitors. A `stop` in between clears
the flag and finds no task, so that another `start` spawns one too: `two_tasks` is a run with two tasks in
their loops. `exclusive_of_apart`: as long as a `start` finds the flag cleared only while no other one is
between the flag and its task, and no task is in its loop, there is at most one. In every run, once the last
call to begin is a `stop`, a task captures at most the frame it is at.
-/

namespace DeskSync.Media.CaptureLoop

open Elements Proc
open Proc.Prog (perform)

inductive AgentError
  | subsystem (name message : String)
  | other (message : String)
  deriving DecidableEq

structure Monitor where
  id : String
  primary : Bool
  deriving DecidableEq

structure CaptureSettings where
  monitorId : Option String
  maxHeight : UInt32

/-! ### The loop and its tasks -/

/-- Where a task is: it waits to be polled first, for the tick, for the frame, or it has ended. -/
inductive Progress
  | spawned
  | ticking
  | capturing
  | finished
  | aborted
  deriving DecidableEq

/-- Neither finished nor aborted. -/
def Progress.inLoop : Progress → Bool
  | .finished | .aborted => false
  | _ => true

/-- Between the check of the flag and the next one. -/
def Progress.iterating : Progress → Bool
  | .ticking | .capturing => true
  | _ => false

structure Task where
  monitorId : String
  progress : Progress
  deriving DecidableEq

/-- `CaptureLoop`, with every task that has been spawned; `task` is the handle. -/
structure Loop where
  running : Bool := false
  task : Option ℕ := none
  frames : UInt64 := 0
  latest : Option Frame := none
  tasks : List Task := []
  deriving DecidableEq

def Loop.progress (s : Loop) (i : ℕ) : Option Progress := (s.tasks[i]?).map fun t => t.progress

def Loop.setProgress (s : Loop) (i : ℕ) (progress : Progress) : Loop :=
  { s with tasks := s.tasks.modify i fun t => { t with progress } }

/-- The condition of the loop. -/
def Loop.check (s : Loop) : Progress := if s.running then .ticking else .finished

/-- A task goes on. What it waits for is there; `captured` is the frame, if it waits for one. A panic ends it. -/
def Loop.poll (settings : CaptureSettings) (scaled : Scaled) (i : ℕ) (captured : Except AgentError Frame)
    (s : Loop) : Loop :=
  match s.progress i with
  | some .spawned => s.setProgress i s.check
  | some .ticking => s.setProgress i .capturing
  | some .capturing =>
    match captured with
    | .ok frame =>
      match downscaleToMaxHeight scaled frame settings.maxHeight with
      | some out => { s with frames := s.frames + 1, latest := some out }.setProgress i s.check
      | none => s.setProgress i .finished
    | .error _ => s.setProgress i s.check
  | _ => s

/-- `abort`: a task that has finished stays so. -/
def Loop.abort (s : Loop) (i : ℕ) : Loop :=
  { s with tasks := s.tasks.modify i fun t => if t.progress.inLoop then { t with progress := .aborted } else t }

/-! ### `start` and `stop` -/

inductive Call
  | swapRunning
  | monitors
  | clearRunning
  /-- `tokio::spawn`, and the handle is stored. -/
  | spawn (monitorId : String)
  /-- `stop`, up to the task it waits for. -/
  | halt
  | join (task : ℕ)

@[reducible] def Reply : Call → Type
  | .swapRunning => Bool
  | .monitors => Except AgentError (List Monitor)
  | .halt => Option ℕ
  | _ => Unit

abbrev Handler := Prog Reply

/-- A call; `monitors` is what the capturer answers. -/
def exec (monitors : Except AgentError (List Monitor)) : (c : Call) → Loop → Reply c × Loop
  | .swapRunning, s => (s.running, { s with running := true })
  | .monitors, s => (monitors, s)
  | .clearRunning, s => ((), { s with running := false })
  | .spawn monitorId, s =>
    ((), { s with task := some s.tasks.length, tasks := s.tasks ++ [⟨monitorId, .spawned⟩] })
  | .halt, s =>
    let stopped := { s with running := false, task := none }
    (s.task, match s.task with
      | some i => stopped.abort i
      | none => stopped)
  | .join _, s => ((), s)

/-- The primary monitor, or the first. -/
def choose (monitors : List Monitor) : Except AgentError String :=
  match (monitors.find? (·.primary)).or monitors.head? with
  | some m => .ok m.id
  | none => .error (.subsystem "capture" "no monitors available")

/-- `resolve_monitor`, where none is configured. -/
def enumerate : Handler (Except AgentError String) := do
  let monitors : Except AgentError (List Monitor) ← perform Call.monitors
  match monitors with
  | .ok monitors => return choose monitors
  | .error e => return .error e

def resolveMonitor (settings : CaptureSettings) : Handler (Except AgentError String) :=
  match settings.monitorId with
  | some id => return .ok id
  | none => enumerate

/-- The rest of `start`. -/
def spawnOrClear (resolved : Except AgentError String) : Handler (Except AgentError Unit) :=
  match resolved with
  | .ok monitorId => do
    perform (Call.spawn monitorId)
    return .ok ()
  | .error e => do
    perform Call.clearRunning
    return .error e

def start (settings : CaptureSettings) : Handler (Except AgentError Unit) := do
  let running : Bool ← perform Call.swapRunning
  if running then return .ok ()
  else do
    let resolved ← resolveMonitor settings
    spawnOrClear resolved

def stop : Handler (Except AgentError Unit) := do
  let handle : Option ℕ ← perform Call.halt
  match handle with
  | some task => do
    perform (Call.join task)
    return .ok ()
  | none => return .ok ()

inductive Request
  | start
  | stop
  deriving DecidableEq

/-- Any number of calls, and the tasks. -/
def system (settings : CaptureSettings) (scaled : Scaled) : System Loop Request Reply (Except AgentError Unit)
    (Except AgentError (List Monitor)) (ℕ × Except AgentError Frame) where
  start
    | .start, _ => start settings
    | .stop, _ => stop
  exec := exec
  env v s := s.poll settings scaled v.1 v.2

abbrev World := Pool Loop Request Reply (Except AgentError Unit)

abbrev Step := Label Request (Except AgentError (List Monitor)) (ℕ × Except AgentError Frame)

def idle : World := ⟨{}, []⟩

/-! ### What the runs are about -/

/-- At most one task is in its loop. -/
def AtMostOne (w : World) : Prop := (w.store.tasks.countP fun t => t.progress.inLoop) ≤ 1

instance (w : World) : Decidable (AtMostOne w) := inferInstanceAs (Decidable (_ ≤ 1))

/-- A `start` that has set the flag and may still spawn its task. -/
def starting (p : Handler (Except AgentError Unit)) : Bool :=
  match p.pending with
  | some .monitors | some (.spawn _) => true
  | _ => false

/-- A `start` that finds the flag cleared is alone. -/
def Apart (w : World) : Step → Prop
  | .advance i _ =>
    match w.threads[i]? with
    | some ⟨_, .call .swapRunning _⟩ => w.store.running = false →
      (∀ t ∈ w.threads, starting t.prog = false) ∧ ∀ t ∈ w.store.tasks, t.progress.inLoop = false
    | _ => True
  | _ => True

instance (w : World) (l : Step) : Decidable (Apart w l) := by
  unfold Apart
  split
  · split <;> infer_instance
  · infer_instance

/-- The call that begins with a step. -/
def begun (w : World) : Step → Option Request
  | .advance i _ =>
    match w.threads[i]? with
    | some ⟨_, .call .swapRunning _⟩ => some .start
    | some ⟨_, .call .halt _⟩ => some .stop
    | _ => none
  | _ => none

/-- The task whose capture ends with a step. -/
def captures (w : World) : Step → Option ℕ
  | .env (i, _) => if w.store.progress i = some .capturing then some i else none
  | _ => none

/-- The number of frames a task may still capture in its iteration. -/
def atFrame (w : World) (i : ℕ) : ℕ :=
  if (w.store.progress i).any Progress.iterating then 1 else 0

/-! ### Counting -/

/-- How many tasks are in their loops. -/
def Loop.live (s : Loop) : ℕ := s.tasks.countP fun t => t.progress.inLoop

/-- How many `start` calls may still spawn a task. -/
def pendingStarts (w : World) : ℕ := w.threads.countP fun t => starting t.prog

/-- A task that goes on in its loop was in it. -/
theorem live_setProgress {s : Loop} {i : ℕ} {old new : Progress} (h : s.progress i = some old)
    (hnew : new.inLoop = true → old.inLoop = true) : (s.setProgress i new).live ≤ s.live := by
  refine countP_modify_le fun t ht hin => ?_
  rw [Loop.progress, ht] at h
  cases h
  exact hnew hin

theorem live_poll (settings : CaptureSettings) (scaled : Scaled) (i : ℕ) (captured : Except AgentError Frame)
    (s : Loop) : (s.poll settings scaled i captured).live ≤ s.live := by
  unfold Loop.poll
  split
  · next h => exact live_setProgress h fun _ => rfl
  · next h => exact live_setProgress h fun _ => rfl
  · next h =>
    split
    · split
      · exact live_setProgress (s := { s with frames := s.frames + 1, latest := _ }) h fun _ => rfl
      · exact live_setProgress h fun _ => rfl
    · exact live_setProgress h fun _ => rfl
  · exact le_rfl

theorem live_abort (s : Loop) (i : ℕ) : (s.abort i).live ≤ s.live := by
  refine countP_modify_le fun t _ hin => ?_
  by_contra hout
  rw [if_neg hout] at hin
  exact hout hin

theorem live_halt (s : Loop) (e : Except AgentError (List Monitor)) : (exec e .halt s).2.live ≤ s.live := by
  simp only [exec]
  split
  · exact live_abort _ _
  · exact le_rfl

/-! ### The stages of a call -/

inductive Stage (settings : CaptureSettings) : Handler (Except AgentError Unit) → Prop
  | beginning : Stage settings (start settings)
  | resolving : Stage settings (enumerate >>= spawnOrClear)
  | spawning (id) : Stage settings (spawnOrClear (.ok id))
  | clearing (e) : Stage settings (spawnOrClear (.error e))
  | stopping : Stage settings stop
  | joining (task) : Stage settings (Prog.call (Call.join task) fun _ => .ret (.ok ()))
  | returned (r) : Stage settings (.ret r)

theorem Stage.resolved (settings : CaptureSettings) (r : Except AgentError String) :
    Stage settings (spawnOrClear r) := by
  cases r with
  | ok id => exact .spawning id
  | error e => exact .clearing e

section Step
variable {settings : CaptureSettings} {scaled : Scaled} {w : World}

theorem Stage.step (h : w.All fun _ => Stage settings) (l : Step) :
    ((system settings scaled).step w l).All fun _ => Stage settings := by
  refine h.step (fun q e _ => ?_) ?_
  · cases q with
    | start => exact .beginning
    | stop => exact .stopping
  · rintro i e q c k rfl hi hstage
    cases hstage with
    | beginning =>
      show Stage settings (if w.store.running then .ret (.ok ()) else resolveMonitor settings >>= spawnOrClear)
      split_ifs
      · exact .returned _
      · unfold resolveMonitor
        split
        · exact .spawning _
        · exact .resolving
    | resolving =>
      show Stage settings ((match e with
        | .ok monitors => .ret (choose monitors)
        | .error e => .ret (.error e)) >>= spawnOrClear)
      split
      · exact Stage.resolved settings (choose _)
      · exact .clearing _
    | spawning | clearing | joining => exact .returned _
    | stopping =>
      show Stage settings (match w.store.task with
        | some task => Prog.call (Call.join task) fun _ => .ret (.ok ())
        | none => .ret (.ok ()))
      split
      · exact .joining _
      · exact .returned _

/-- One call makes its next step. -/
theorem alone_set {i : ℕ} {q : Request} {p p' : Handler (Except AgentError Unit)} {s : Loop} {b c : Bool}
    (hi : w.threads[i]? = some ⟨q, p⟩) (hb : starting p = b) (hb' : starting p' = c)
    (h : pendingStarts w + c.toNat + s.live ≤ 1 + b.toNat) :
    pendingStarts ⟨s, w.threads.set i ⟨q, p'⟩⟩ + s.live ≤ 1 := by
  have hset : pendingStarts ⟨s, w.threads.set i ⟨q, p'⟩⟩ + (if starting p then 1 else 0) =
      pendingStarts w + (if starting p' then 1 else 0) :=
    countP_set (p := fun t : Thread Request Reply (Except AgentError Unit) => starting t.prog) hi
  rw [hb, hb'] at hset
  cases b <;> cases c <;> simp at hset h <;> omega

/-- At most one task is in its loop or about to be spawned, and stays so while `start` calls are apart. -/
theorem alone_step (hstage : w.All fun _ => Stage settings) (h : pendingStarts w + w.store.live ≤ 1) (l : Step)
    (hapart : Apart w l) : pendingStarts ((system settings scaled).step w l) +
      ((system settings scaled).step w l).store.live ≤ 1 := by
  rcases (system settings scaled).step_cases w l with hs | ⟨q, e, rfl, hs⟩ | ⟨i, e, q, c, k, rfl, hi, hs⟩ |
    ⟨v, rfl, hs⟩
  · rw [hs]
    exact h
  · have hnot : starting ((system settings scaled).start q e) = false := by
      cases q <;> rfl
    rw [hs]
    simpa [pendingStarts, hnot] using h
  · rw [hs]
    cases hstage i q _ hi with
    | beginning =>
      have hlive : (exec e .swapRunning w.store).2.live = w.store.live := rfl
      cases hrunning : w.store.running with
      | true =>
        refine alone_set hi (b := false) (c := false) rfl ?_ ?_
        · show starting (if w.store.running then _ else _) = false
          rw [hrunning]
          rfl
        · exact h
      | false =>
        simp only [Apart, hi] at hapart
        obtain ⟨hthreads, htasks⟩ := hapart hrunning
        have hzero : pendingStarts w = 0 := List.countP_eq_zero.2 fun t ht => by simp [hthreads t ht]
        have hnone : w.store.live = 0 := List.countP_eq_zero.2 fun t ht => by simp [htasks t ht]
        refine alone_set hi (b := false) rfl rfl ?_
        show pendingStarts w + _ + w.store.live ≤ 1
        rw [hzero, hnone, Nat.zero_add, Nat.add_zero]
        exact Bool.toNat_le _
    | resolving =>
      obtain ⟨starts, hstarts⟩ : ∃ starts, starting ((match e with
        | .ok monitors => .ret (choose monitors)
        | .error e => .ret (.error e)) >>= spawnOrClear) = starts := ⟨_, rfl⟩
      have hle := Bool.toNat_le starts
      refine alone_set hi (b := true) rfl hstarts ?_
      show pendingStarts w + starts.toNat + w.store.live ≤ 2
      omega
    | spawning id =>
      have hlive : (exec e (.spawn id) w.store).2.live = w.store.live + 1 := by
        simp [exec, Loop.live, Progress.inLoop]
      refine alone_set hi (b := true) (c := false) rfl rfl ?_
      show pendingStarts w + 0 + (exec e (.spawn id) w.store).2.live ≤ 2
      omega
    | clearing err => exact alone_set hi (b := false) (c := false) rfl rfl h
    | stopping =>
      have hlive := live_halt w.store e
      refine alone_set hi (b := false) (c := false) rfl ?_ ?_
      · show starting (match w.store.task with
          | some task => Prog.call (Call.join task) fun _ => .ret (.ok ())
          | none => .ret (.ok ())) = false
        split <;> rfl
      · show pendingStarts w + 0 + (exec e .halt w.store).2.live ≤ 1
        omega
    | joining task => exact alone_set hi (b := false) (c := false) rfl rfl h
  · rw [hs]
    have hpoll := live_poll settings scaled v.1 v.2 w.store
    exact (Nat.add_le_add_left hpoll _).trans h

/-! ### After a `stop` -/

theorem running_halt (s : Loop) (e : Except AgentError (List Monitor)) : (exec e .halt s).2.running = false := by
  simp only [exec]
  split <;> rfl

theorem running_poll (i : ℕ) (captured : Except AgentError Frame) (s : Loop) :
    (s.poll settings scaled i captured).running = s.running := by
  unfold Loop.poll
  split
  · rfl
  · rfl
  · split
    · split <;> rfl
    · rfl
  · rfl

/-- Only a `start` that begins sets the flag, and a `stop` that begins clears it. -/
theorem running_step (w : World) (l : Step) (hrunning : begun w l = none → w.store.running = false)
    (hstop : begun w l ≠ some .start) : ((system settings scaled).step w l).store.running = false := by
  cases l with
  | spawn q e => exact hrunning rfl
  | env v =>
    show (w.store.poll settings scaled v.1 v.2).running = false
    rw [running_poll]
    exact hrunning rfl
  | advance i e =>
    rcases hi : w.threads[i]? with _ | ⟨q, r | ⟨c, k⟩⟩
    · simp only [System.step, hi]
      exact hrunning (by simp only [begun, hi])
    · simp only [System.step, hi]
      exact hrunning (by simp only [begun, hi])
    rw [System.step_advance _ hi]
    simp only [begun, hi] at hrunning hstop
    cases c with
    | swapRunning => exact absurd rfl hstop
    | halt => exact running_halt w.store e
    | clearRunning => rfl
    | monitors | spawn | join => exact hrunning rfl

theorem progress_setProgress (s : Loop) (i j : ℕ) (new : Progress) :
    (s.setProgress j new).progress i = if j = i then (s.progress i).map fun _ => new else s.progress i := by
  simp only [Loop.progress, Loop.setProgress, List.getElem?_modify]
  split_ifs <;> simp [Option.map_map, Function.comp_def]

/-- The progress of a task that stays as it is. -/
theorem progress_same {s : Loop} {j : ℕ} {old : Progress} (h : ∀ p ∈ s.progress j, p = old) (i : ℕ) :
    s.progress i = if j = i then (s.progress i).map fun _ => old else s.progress i := by
  split_ifs with hij
  · subst hij
    cases hp : s.progress j with
    | none => rfl
    | some p => rw [h p hp, Option.map_some]
  · rfl

variable (settings scaled) in
/-- What becomes of the task that is polled while the flag is cleared. -/
theorem progress_poll {s : Loop} (hrunning : s.running = false) (j : ℕ) (captured : Except AgentError Frame) :
    ∃ new, (∀ i, (s.poll settings scaled j captured).progress i =
        if j = i then (s.progress i).map fun _ => new else s.progress i) ∧
      (s.progress j = some .capturing → new.iterating = false) ∧
      (new.iterating = true → (s.progress j).any Progress.iterating = true) := by
  have hcheck : s.check = .finished := by simp [Loop.check, hrunning]
  cases hp : s.progress j with
  | none =>
    refine ⟨.finished, fun i => ?_, nofun, nofun⟩
    simp only [Loop.poll, hp]
    exact progress_same (by simp [hp]) i
  | some p =>
    cases p with
    | spawned =>
      refine ⟨.finished, fun i => ?_, nofun, nofun⟩
      simp only [Loop.poll, hp, hcheck, progress_setProgress]
    | ticking =>
      refine ⟨.capturing, fun i => ?_, nofun, fun _ => rfl⟩
      simp only [Loop.poll, hp, progress_setProgress]
    | capturing =>
      refine ⟨.finished, fun i => ?_, fun _ => rfl, nofun⟩
      simp only [Loop.poll, hp, hcheck]
      split
      · split
        · exact progress_setProgress { s with frames := s.frames + 1, latest := _ } i j .finished
        · exact progress_setProgress s i j .finished
      · exact progress_setProgress s i j .finished
    | finished =>
      refine ⟨.finished, fun i => ?_, nofun, nofun⟩
      simp only [Loop.poll, hp]
      exact progress_same (by simp [hp]) i
    | aborted =>
      refine ⟨.aborted, fun i => ?_, nofun, nofun⟩
      simp only [Loop.poll, hp]
      exact progress_same (by simp [hp]) i

/-- While the flag is cleared, a task that has captured its frame leaves the loop. -/
theorem atFrame_poll {s : Loop} (hrunning : s.running = false) (i j : ℕ) (captured : Except AgentError Frame) :
    (if s.progress j = some .capturing then some j else none).toList.count i +
        (if ((s.poll settings scaled j captured).progress i).any Progress.iterating then 1 else 0) ≤
      if (s.progress i).any Progress.iterating then 1 else 0 := by
  obtain ⟨new, hprogress, hdone, hkeep⟩ := progress_poll settings scaled hrunning j captured
  rw [hprogress i]
  by_cases hij : j = i
  · subst hij
    rw [if_pos rfl]
    by_cases hcapturing : s.progress j = some .capturing
    · have hnew := hdone hcapturing
      rw [hcapturing, if_pos rfl, Option.map_some, Option.any_some, hnew]
      simp [Progress.iterating]
    · rw [if_neg hcapturing]
      cases hp : s.progress j with
      | none => simp
      | some p =>
        rw [hp] at hkeep
        cases hnew : new.iterating with
        | true => simp [hnew, Option.any_some.symm.trans (hkeep hnew)]
        | false => simp [hnew]
  · have hne : i ∉ (if s.progress j = some .capturing then some j else none).toList := by
      split_ifs <;> simp [Ne.symm hij]
    rw [if_neg hij, List.count_eq_zero.2 hne, Nat.zero_add]

/-- Once the last call to begin is a `stop`, the flag is cleared. -/
theorem running_of_stop (l : List Step)
    (h : (Run.events (system settings scaled).step begun idle l).getLast? = some .stop) :
    (Run.exec (system settings scaled).step idle l).store.running = false := by
  induction l using List.reverseRecOn with
  | nil => rfl
  | append_singleton l a ih =>
    rw [Run.exec_append]
    rw [Run.events_append] at h
    refine running_step _ a (fun hnone => ?_) (fun hstart => ?_)
    · simp only [Run.events, hnone, Option.toList_none, List.append_nil] at h
      exact ih h
    · simp only [Run.events, hstart, Option.toList_some, List.append_nil, List.getLast?_concat,
        Option.some.injEq] at h
      cases h

theorem atFrame_mono {w' : World} {i : ℕ} (h : (w'.store.progress i).any Progress.iterating = true →
    (w.store.progress i).any Progress.iterating = true) : atFrame w' i ≤ atFrame w i := by
  unfold atFrame
  split_ifs with h' hw
  · exact le_rfl
  · exact absurd (h h') hw
  · exact Nat.zero_le _
  · exact le_rfl

/-- While the flag is cleared, a capture uses up the iteration of its task. -/
theorem atFrame_step (w : World) (l : Step) (hrunning : w.store.running = false) (hnone : begun w l = none)
    (i : ℕ) : ((captures w l).toList.count i) + atFrame ((system settings scaled).step w l) i ≤ atFrame w i := by
  cases l with
  | spawn q e => exact (Nat.zero_add _).le
  | env v => exact atFrame_poll hrunning i v.1 v.2
  | advance j e =>
    show 0 + _ ≤ _
    rw [Nat.zero_add]
    rcases hi : w.threads[j]? with _ | ⟨q, r | ⟨c, k⟩⟩
    · simp only [System.step, hi]
      exact le_rfl
    · simp only [System.step, hi]
      exact le_rfl
    rw [System.step_advance _ hi]
    simp only [begun, hi] at hnone
    cases c with
    | swapRunning | halt => cases hnone
    | clearRunning | monitors | join => exact le_rfl
    | spawn monitorId =>
      -- the new task has not been polled
      refine atFrame_mono fun h => ?_
      change ((w.store.tasks ++ [⟨monitorId, .spawned⟩])[i]?.map fun t => t.progress).any _ = true at h
      rcases Nat.lt_trichotomy i w.store.tasks.length with hlt | rfl | hgt
      · rwa [List.getElem?_append_left hlt] at h
      · simp [Progress.iterating] at h
      · rw [List.getElem?_eq_none (by simp; omega)] at h
        cases h

theorem captures_le (w : World) (l : List Step) (hrunning : w.store.running = false)
    (hnone : Run.events (system settings scaled).step begun w l = []) (i : ℕ) :
    (Run.events (system settings scaled).step captures w l).count i ≤ atFrame w i := by
  induction l generalizing w with
  | nil => exact Nat.zero_le _
  | cons a l ih =>
    obtain ⟨ha, hl⟩ := List.append_eq_nil_iff.1 hnone
    have ha := Option.toList_eq_nil_iff.1 ha
    have hstep : (captures w a).toList.count i + atFrame ((system settings scaled).step w a) i ≤ atFrame w i :=
      atFrame_step w a hrunning ha i
    have hrest := ih _ (running_step w a (fun _ => hrunning) (by rw [ha]; nofun)) hl
    rw [Run.events, List.count_append]
    omega

end Step

/-! ### Runs -/

theorem atMostOne_of_alone {w : World} (h : pendingStarts w + w.store.live ≤ 1) : AtMostOne w :=
  (Nat.le_add_left _ _).trans h

/-- While `start` calls are apart, at most one task is in its loop; and once the last call to begin is a
`stop`, until another one begins, no task captures more than the frame it is at. -/
theorem exclusive_of_apart (settings : CaptureSettings) (scaled : Scaled) (l : List Step)
    (h : Run.Guarded (system settings scaled).step Apart idle l) :
    Run.Always (system settings scaled).step AtMostOne idle l ∧
      ((Run.events (system settings scaled).step begun idle l).getLast? = some .stop →
        ∀ l', Run.events (system settings scaled).step begun
            (Run.exec (system settings scaled).step idle l) l' = [] →
          ∀ i, (Run.events (system settings scaled).step captures
            (Run.exec (system settings scaled).step idle l) l').count i ≤
              atFrame (Run.exec (system settings scaled).step idle l) i) := by
  constructor
  · refine (h.always (I := fun w => (w.All fun _ => Stage settings) ∧ pendingStarts w + w.store.live ≤ 1)
      ?_ ⟨.nil _, Nat.zero_le _⟩).mono fun w hw => atMostOne_of_alone hw.2
    exact fun w a hw hapart => ⟨Stage.step hw.1 a, alone_step hw.1 hw.2 a hapart⟩
  · exact fun hstop l' hnone i => captures_le _ l' (running_of_stop l hstop) hnone i

/-! ### Two runs -/

def display : List Monitor := [⟨"display-0", true⟩]

def settings1080 : CaptureSettings := ⟨none, 1080⟩

/-- A `stop` while a `start` waits for the monitors, and another `start`. -/
def interrupted : List Step :=
  [.spawn .start (.ok []), .advance 0 (.ok []), .spawn .stop (.ok []), .advance 1 (.ok []),
    .spawn .start (.ok []), .advance 2 (.ok []), .advance 2 (.ok display), .advance 2 (.ok []),
    .advance 0 (.ok display), .advance 0 (.ok [])]

/-- A `start`, a `stop` and a `start`, one after the other. -/
def restarted : List Step :=
  [.spawn .start (.ok []), .advance 0 (.ok []), .advance 0 (.ok display), .advance 0 (.ok []),
    .env (0, .ok ⟨0, 0, 0, []⟩), .spawn .stop (.ok []), .advance 1 (.ok []), .advance 1 (.ok []),
    .spawn .start (.ok []), .advance 2 (.ok []), .advance 2 (.ok display), .advance 2 (.ok [])]

theorem two_tasks :
    ¬AtMostOne (Run.exec (system settings1080 exactScaled).step idle interrupted) := by
  decide

theorem restarted_exclusive :
    Run.Always (system settings1080 exactScaled).step AtMostOne idle restarted :=
  (exclusive_of_apart settings1080 exactScaled restarted (by decide)).1

end DeskSync.Media.CaptureLoop
