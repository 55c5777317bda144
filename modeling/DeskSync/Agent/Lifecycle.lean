import DeskSync.Lib.Proc

/-!
# Starting and stopping the agent

`Agent::start` and `Agent::stop` of the core crate (`lib.rs`) over the calls on the subsystems, each of which
may fail. `S` is what a subsystem is known by, and `Ε` its errors.

`start_allOrNothing`: what `start` calls is its subsystems in order, each once; up to the first that fails,
and from there back again, each that was started once, whatever comes of it. `stop_all`: `stop` calls every
subsystem, in reverse order, and cannot fail.
-/

namespace DeskSync.Lifecycle

open Proc
open Proc.Prog (perform)

variable {S Ε : Type}

inductive Call (S : Type)
  | start (s : S)
  | stop (s : S)
  deriving DecidableEq

abbrev Reply (Ε : Type) (_ : Call S) := Except Ε Unit

abbrev Handler (S Ε α : Type) := Prog (Reply Ε : Call S → Type) α

structure Agent (S : Type) where
  subsystems : List S

/-- Stops one subsystem after the other, whether it fails or not. -/
def stopEach : List S → Handler S Ε Unit
  | [] => return ()
  | s :: rest => do
    let _ ← perform (Call.stop s)
    stopEach rest

/-- The loop of `start`, with the subsystems it has started. -/
def startEach (started : List S) : List S → Handler S Ε (Except Ε Unit)
  | [] => return .ok ()
  | s :: rest => do
    let r : Except Ε Unit ← perform (Call.start s)
    match r with
    | .ok () => startEach (started ++ [s]) rest
    | .error e =>
      stopEach started.reverse
      return .error e

def Agent.start (a : Agent S) : Handler S Ε (Except Ε Unit) := startEach [] a.subsystems

def Agent.stop (a : Agent S) : Handler S Ε (Except Ε Unit) := do
  stopEach a.subsystems.reverse
  return .ok ()

/-! ### Traces -/

/-- A call and what came of it. -/
structure Event (S Ε : Type) where
  call : Call S
  outcome : Except Ε Unit

/-- A call is recorded with its outcome. -/
def record (outcome : Except Ε Unit) (c : Call S) (trace : List (Event S Ε)) :
    Reply Ε c × List (Event S Ε) :=
  (outcome, trace ++ [⟨c, outcome⟩])

/-- What a handler returns, and what it has called; `outcomes n` is what comes of its `n`-th call. -/
def traced {α : Type} (outcomes : ℕ → Except Ε Unit) (p : Handler S Ε α) : α × List (Event S Ε) :=
  p.run record outcomes []

def started (s : S) : Event S Ε := ⟨.start s, .ok ()⟩

/-- All subsystems have been started; or those before the one that failed have, and have been stopped
again. -/
inductive AllOrNothing (subsystems : List S) : Except Ε Unit → List (Event S Ε) → Prop
  | all : AllOrNothing subsystems (.ok ()) (subsystems.map started)
  | rolledBack (before : List S) (failing : S) (after : List S) (e : Ε) (stops : List (Event S Ε))
      (hsubsystems : subsystems = before ++ failing :: after)
      (hstops : stops.map Event.call = before.reverse.map .stop) :
      AllOrNothing subsystems (.error e) (before.map started ++ ⟨.start failing, .error e⟩ :: stops)

theorem run_stopEach (subsystems : List S) (outcomes : ℕ → Except Ε Unit) (trace : List (Event S Ε)) :
    ∃ stops : List (Event S Ε), stops.map Event.call = subsystems.map .stop ∧
      (stopEach subsystems).run record outcomes trace = ((), trace ++ stops) := by
  induction subsystems generalizing outcomes trace with
  | nil => exact ⟨[], rfl, by rw [List.append_nil]; rfl⟩
  | cons s rest ih =>
    obtain ⟨stops, hstops, hrun⟩ := ih (fun n => outcomes (n + 1)) (trace ++ [⟨.stop s, outcomes 0⟩])
    refine ⟨⟨.stop s, outcomes 0⟩ :: stops, ?_, ?_⟩
    · rw [List.map_cons, List.map_cons, hstops]
    · rw [List.append_assoc] at hrun
      exact hrun

/-- From the subsystems that have been started on, the loop starts the rest or stops them all. -/
theorem run_startEach (before rest : List S) (outcomes : ℕ → Except Ε Unit) :
    AllOrNothing (before ++ rest) ((startEach before rest).run record outcomes (before.map started)).1
      ((startEach before rest).run record outcomes (before.map started)).2 := by
  induction rest generalizing before outcomes with
  | nil =>
    rw [List.append_nil]
    exact .all
  | cons s rest ih =>
    cases hout : outcomes 0 with
    | ok =>
      have hstep : (startEach before (s :: rest)).run record outcomes (before.map started) =
          (startEach (before ++ [s]) rest).run record (fun n => outcomes (n + 1))
            ((before ++ [s]).map started) := by
        simp only [startEach, Prog.perform_bind, Prog.run_call, record, hout, List.map_append,
          List.map_singleton]
        rfl
      rw [hstep, List.append_cons]
      exact ih (before ++ [s]) _
    | error e =>
      obtain ⟨stops, hstops, hrun⟩ := run_stopEach before.reverse (fun n => outcomes (n + 1))
        (before.map started ++ [⟨.start s, .error e⟩])
      have hstep : (startEach before (s :: rest)).run record outcomes (before.map started) =
          (.error e, before.map started ++ ⟨.start s, .error e⟩ :: stops) := by
        have hmap := Prog.run_map record (fun _ : Unit => (Except.error e : Except Ε Unit))
          (fun n => outcomes (n + 1)) (stopEach before.reverse)
          (before.map started ++ [⟨.start s, .error e⟩])
        simp only [startEach, Prog.perform_bind, Prog.run_call, record, hout]
        rw [hrun] at hmap
        rw [List.append_assoc] at hmap
        exact hmap
      rw [hstep]
      exact .rolledBack before s rest e stops rfl hstops

/-- Whatever the subsystems and whichever calls fail, the start is all or nothing. -/
theorem start_allOrNothing (a : Agent S) (outcomes : ℕ → Except Ε Unit) :
    AllOrNothing a.subsystems (traced outcomes a.start).1 (traced outcomes a.start).2 :=
  run_startEach [] a.subsystems outcomes

/-- Every subsystem is stopped, in reverse order, whichever of them fail. -/
theorem stop_all (a : Agent S) (outcomes : ℕ → Except Ε Unit) :
    (traced outcomes a.stop).1 = .ok () ∧
      (traced outcomes a.stop).2.map Event.call = a.subsystems.reverse.map .stop := by
  obtain ⟨stops, hstops, hrun⟩ := run_stopEach a.subsystems.reverse outcomes []
  have hmap := Prog.run_map record (fun _ : Unit => (Except.ok () : Except Ε Unit)) outcomes
    (stopEach a.subsystems.reverse) []
  rw [hrun, List.nil_append] at hmap
  have htraced : traced outcomes a.stop = (.ok (), stops) := hmap
  rw [htraced]
  exact ⟨rfl, hstops⟩

end DeskSync.Lifecycle
