import DeskSync.Agent.Input
import DeskSync.Lib.Marks

/-!
# The way of an input event through the agent

Each session has a task that takes the events of its peer in order (`event_task` of `handle_session`), and all of them
share one `InputRouter` (`router.rs`), the injector behind it (`EnigoInjector`, `native.rs`) and the clipboard. The
router counts frames and puts events into the queue of the injector, whose thread executes them one after the other.
Between two calls of a task the other tasks and the thread go on; a task ends when its session does, wherever it is;
the injector is started and stopped, `stop` waits for the thread, and `start` waits for `stop`.

A call that counts or injects leaves a mark, and a peer event owes the same marks on every way (`emits_eventTask`).
`every_event_once`: in every run, the events the thread has executed are the first of those put into the queue, all of
them when nothing is queued; a session has put in the events of its frames, each once and in order of arrival; and the
counters are the numbers of frames taken that are events and that are not, but for one frame of each task that is at
work.
-/

namespace DeskSync.Agent.Router

open Agent.Input Elements Proc
open Proc.Prog (perform Emits)

variable {Raw : Type}

/-- `PeerEvent`; `Raw` are the texts on the data channels. -/
inductive PeerEvent (Raw : Type)
  | localIce (candidate : String) (sdpMLineIndex : UInt16)
  | inputFrame (frame : Raw)
  | controlFrame (frame : Raw)
  | stateChanged (state : String)

/-! ### What the tasks share -/

/-- The calls of a task: `set_text` of the clipboard, `inject` of the injector, the two counters of the router,
`send` of the session's signaling and `handle_frame` of the dev-tools. -/
inductive Shared (Raw : Type)
  | setText (text : String)
  | inject (event : InputEvent ℚ)
  | countRejected
  | countDispatched
  | sendIce (candidate : String) (sdpMLineIndex : UInt16)
  | devtools (frame : Raw)

/-- Errors are logged. -/
abbrev Ack (Raw : Type) (_ : Shared Raw) := Except AgentError Unit

inductive FrameOutcome
  | dispatched
  | rejected
  deriving DecidableEq

/-- `InputRouter::dispatch`. -/
def dispatch (event : InputEvent ℚ) : Prog (Ack Raw) Unit := do
  match event with
  | .clipboardText text =>
    let _ ← perform (Shared.setText text)
    let _ ← perform (Shared.inject event)
  | _ =>
    let _ ← perform (Shared.inject event)

/-- `InputRouter::handle_frame`. -/
def handleFrame (fromStr : Raw → Option (InputEvent ℚ)) (frame : Raw) : Prog (Ack Raw) FrameOutcome :=
  match fromStr frame with
  | none => do
    let _ ← perform Shared.countRejected
    return .rejected
  | some event => do
    dispatch event
    let _ ← perform Shared.countDispatched
    return .dispatched

/-- What the task does with a peer event. -/
def eventTask (fromStr : Raw → Option (InputEvent ℚ)) : PeerEvent Raw → Prog (Ack Raw) Unit
  | .localIce candidate sdpMLineIndex => do
    let _ ← perform (Shared.sendIce candidate sdpMLineIndex)
  | .inputFrame frame => do
    let _ ← handleFrame fromStr frame
  | .controlFrame frame => do
    let _ ← perform (Shared.devtools frame)
  | .stateChanged _ => return ()

/-! ### The injector -/

inductive Command
  | event (event : InputEvent ℚ)
  | shutdown

/-- Its thread, with the size of the display and the queue. While it is `stopping`, the sender is gone, and `stop`
holds the lock of `thread` until the thread has ended. A `start` that comes in between has set up the `next` thread,
and holds the lock of `tx` until it gets that of `thread`. `stop` takes the two locks together. -/
inductive Injector
  | stopped
  | running (dims : ℤ × ℤ) (queue : List Command)
  | stopping (dims : ℤ × ℤ) (queue : List Command) (next : Option (ℤ × ℤ))

namespace Injector

/-- Does nothing on a started injector; the thread may fail to get at the display. -/
def start (ready : Except String (ℤ × ℤ)) : Injector → Injector
  | .stopped =>
    match ready with
    | .ok dims => .running dims []
    | .error _ => .stopped
  | .stopping dims queue none => .stopping dims queue ready.toOption
  | i => i

/-- The first half of `stop`. One that comes while another waits, or a `start`, has nothing to stop yet. -/
def stop : Injector → Injector
  | .running dims queue => .stopping dims (queue ++ [.shutdown]) none
  | i => i

/-- A `start` holds the lock of `tx`. -/
def locked : Injector → Bool
  | .stopping _ _ (some _) => true
  | _ => false

def inject (event : InputEvent ℚ) : Injector → Except AgentError Unit × Injector
  | .running dims queue => (.ok (), .running dims (queue ++ [.event event]))
  | i => (.error ⟨"input", "injector not started"⟩, i)

/-- The next command of the thread, which ends with `shutdown`; the next thread takes its place. -/
def next : Injector → Option ((ℤ × ℤ) × Command × Injector)
  | .running dims (c :: queue) => some (dims, c, .running dims queue)
  | .stopping dims (.event e :: queue) next => some (dims, .event e, .stopping dims queue next)
  | .stopping dims (.shutdown :: _) none => some (dims, .shutdown, .stopped)
  | .stopping dims (.shutdown :: _) (some dims') => some (dims, .shutdown, .running dims' [])
  | _ => none

end Injector

/-- The host, and the text on its clipboard. -/
structure Desk where
  host : Host := {}
  clipboard : Option String := none

/-- A call of the thread. -/
def Desk.exec (fault : Option String) (c : Call) (d : Desk) : Reply c × Desk :=
  let r := Host.exec fault c d.host
  (r.1, { host := r.2
          clipboard := match c, fault with
            | .setText text, none => some text
            | _, _ => d.clipboard })

/-- The counters wrap around. -/
structure Station where
  injector : Injector := .stopped
  dispatched : UInt64 := 0
  rejected : UInt64 := 0
  desk : Desk := {}

/-- A call of a task; the clipboard, the signaling and the dev-tools may fail. -/
def Station.act (fault : Option AgentError) (c : Shared Raw) (s : Station) : Ack Raw c × Station :=
  match c with
  | .setText text =>
    match fault with
    | some e => (.error e, s)
    | none => (.ok (), { s with desk := { s.desk with clipboard := some text } })
  | .inject event => ((s.injector.inject event).1, { s with injector := (s.injector.inject event).2 })
  | .countRejected => (.ok (), { s with rejected := s.rejected + 1 })
  | .countDispatched => (.ok (), { s with dispatched := s.dispatched + 1 })
  | .sendIce _ _ | .devtools _ =>
    match fault with
    | some e => (.error e, s)
    | none => (.ok (), s)

/-- A call that waits for a lock. -/
def Station.blocks (s : Station) : Shared Raw → Bool
  | .inject _ => s.injector.locked
  | _ => false

/-! ### Runs -/

/-- The task of a session: what has come from its peer, and what is left of the event at hand. -/
structure SessionTask (Raw : Type) where
  inbox : List (PeerEvent Raw) := []
  work : Prog (Ack Raw) Unit := .ret ()
  aborted : Bool := false

structure World (Raw : Type) where
  tasks : List (SessionTask Raw) := []
  station : Station := {}

inductive Step (Raw : Type)
  | opens
  | arrives (k : ℕ) (ev : PeerEvent Raw)
  | takes (k : ℕ)
  | acts (k : ℕ) (fault : Option AgentError)
  | aborts (k : ℕ)
  | starts (ready : Except String (ℤ × ℤ))
  | stops
  /-- The thread takes a command; `faults n` is what comes of its `n`-th call. -/
  | executes (faults : ℕ → Option String)

inductive Mark
  | injected (event : InputEvent ℚ)
  | rejected
  | dispatched
  deriving DecidableEq

def mark : Shared Raw → Option Mark
  | .inject event => some (.injected event)
  | .countRejected => some .rejected
  | .countDispatched => some .dispatched
  | _ => none

inductive Event (Raw : Type)
  | arrived (k : ℕ) (ev : PeerEvent Raw)
  | took (k : ℕ) (ev : PeerEvent Raw)
  /-- The call went through, or did not. -/
  | left (k : ℕ) (m : Mark) (ok : Bool)
  | executed (event : InputEvent ℚ)

section Step
variable (fromStr : Raw → Option (InputEvent ℚ))

def World.step (w : World Raw) : Step Raw → World Raw × List (Event Raw)
  | .opens => ({ w with tasks := w.tasks ++ [{}] }, [])
  | .arrives k ev =>
    match w.tasks[k]? with
    | some t => ({ w with tasks := w.tasks.set k { t with inbox := t.inbox ++ [ev] } }, [.arrived k ev])
    | none => (w, [])
  | .takes k =>
    match w.tasks[k]? with
    | some ⟨ev :: inbox, .ret (), false⟩ =>
      ({ w with tasks := w.tasks.set k ⟨inbox, eventTask fromStr ev, false⟩ }, [.took k ev])
    | _ => (w, [])
  | .acts k fault =>
    match w.tasks[k]? with
    | some ⟨inbox, .call c next, false⟩ =>
      let r := w.station.act fault c
      if w.station.blocks c then (w, [])
      else
        ({ tasks := w.tasks.set k ⟨inbox, next r.1, false⟩, station := r.2 },
          (mark c).toList.map fun m => .left k m r.1.isOk)
    | _ => (w, [])
  | .aborts k => ({ w with tasks := w.tasks.modify k fun t => { t with aborted := true } }, [])
  | .starts ready => ({ w with station := { w.station with injector := w.station.injector.start ready } }, [])
  | .stops => ({ w with station := { w.station with injector := w.station.injector.stop } }, [])
  | .executes faults =>
    match w.station.injector.next with
    | some (dims, .event e, injector) =>
      ({ w with station :=
        { w.station with
          injector
          desk := ((execute dims e).run Desk.exec faults w.station.desk).2 } }, [.executed e])
    | some (_, .shutdown, injector) => ({ w with station := { w.station with injector } }, [])
    | none => (w, [])

abbrev World.run (l : List (Step Raw)) : World Raw × List (Event Raw) :=
  Run.exec (Run.record (World.step fromStr)) ({}, []) l

end Step

/-! ### Histories -/

section History
variable (k : ℕ) (h : List (Event Raw))

def arrivedAt : List (PeerEvent Raw) :=
  h.filterMap fun
    | .arrived j ev => if j = k then some ev else none
    | _ => none

def tookAt : List (PeerEvent Raw) :=
  h.filterMap fun
    | .took j ev => if j = k then some ev else none
    | _ => none

/-- What the tasks of all sessions have taken. -/
def taken : List (PeerEvent Raw) :=
  h.filterMap fun
    | .took _ ev => some ev
    | _ => none

/-- What has come from all peers. -/
def arrived : List (PeerEvent Raw) :=
  h.filterMap fun
    | .arrived _ ev => some ev
    | _ => none

def leftBy : List Mark :=
  h.filterMap fun
    | .left j m _ => if j = k then some m else none
    | _ => none

/-- What the session put into the queue, or tried to. -/
def injectedBy : List (InputEvent ℚ) :=
  (leftBy k h).filterMap fun
    | .injected e => some e
    | _ => none

/-- All marks. -/
def marks : List Mark :=
  h.filterMap fun
    | .left _ m _ => some m
    | _ => none

/-- What was put into the queue, and by whom. -/
def accepted : List (ℕ × InputEvent ℚ) :=
  h.filterMap fun
    | .left j (.injected e) true => some (j, e)
    | _ => none

def executed : List (InputEvent ℚ) :=
  h.filterMap fun
    | .executed e => some e
    | _ => none

end History

/-- What an event of the peer owes. -/
def marksOf (fromStr : Raw → Option (InputEvent ℚ)) : PeerEvent Raw → List Mark
  | .inputFrame frame =>
    match fromStr frame with
    | none => [.rejected]
    | some event => [.injected event, .dispatched]
  | _ => []

/-- The input event in an event of the peer. -/
def readInput (fromStr : Raw → Option (InputEvent ℚ)) : PeerEvent Raw → Option (InputEvent ℚ)
  | .inputFrame frame => fromStr frame
  | _ => none

def readable (fromStr : Raw → Option (InputEvent ℚ)) (ev : PeerEvent Raw) : Bool := (readInput fromStr ev).isSome

/-- An input frame that is no event. -/
def malformed (fromStr : Raw → Option (InputEvent ℚ)) : PeerEvent Raw → Bool
  | .inputFrame frame => (fromStr frame).isNone
  | _ => false

def Command.input : Command → Option (InputEvent ℚ)
  | .event e => some e
  | .shutdown => none

def Injector.queued : Injector → List (InputEvent ℚ)
  | .stopped => []
  | .running _ queue | .stopping _ queue _ => queue.filterMap Command.input

/-- Only the last command of a stopping thread is its end. -/
def Injector.Closed : Injector → Prop
  | .stopped => True
  | .running _ queue => ∃ es : List (InputEvent ℚ), queue = es.map .event
  | .stopping _ queue _ => ∃ es : List (InputEvent ℚ), queue = es.map .event ++ [.shutdown]

section Emits
variable (fromStr : Raw → Option (InputEvent ℚ))

theorem emits_dispatch (event : InputEvent ℚ) :
    Emits mark (dispatch event : Prog (Ack Raw) Unit) [.injected event] := by
  cases event with
  | clipboardText text => exact ⟨_, rfl, fun _ => ⟨[], rfl, fun _ => rfl⟩⟩
  | mouseMove | mouseButton | scroll | key => exact ⟨[], rfl, fun _ => rfl⟩

/-- Whatever happens to its calls, a peer event leaves the same marks. -/
theorem emits_eventTask (ev : PeerEvent Raw) : Emits mark (eventTask fromStr ev) (marksOf fromStr ev) := by
  cases ev with
  | localIce candidate sdpMLineIndex => exact ⟨[], rfl, fun _ => rfl⟩
  | controlFrame frame => exact ⟨[], rfl, fun _ => rfl⟩
  | stateChanged state => rfl
  | inputFrame frame =>
    have hframe : Emits mark (handleFrame fromStr frame) (marksOf fromStr (.inputFrame frame)) := by
      cases hread : fromStr frame with
      | none =>
        simp only [handleFrame, marksOf, hread]
        exact ⟨[], rfl, fun _ => rfl⟩
      | some event =>
        simp only [handleFrame, marksOf, hread]
        have hrest (u : Unit) : Emits mark (do
            let _ ← perform Shared.countDispatched
            return .dispatched : Prog (Ack Raw) FrameOutcome) [.dispatched] := ⟨[], rfl, fun _ => rfl⟩
        exact (emits_dispatch event).bind hrest
    have htask := hframe.bind (f := fun _ => (return () : Prog (Ack Raw) Unit)) fun _ => rfl
    rwa [List.append_nil] at htask

end Emits

/-! ### What one step keeps -/

/-- The mark of a counter. -/
def Mark.counts : Mark → Bool
  | .injected _ => false
  | .rejected | .dispatched => true

/-- A task has taken what came first, and leaves the marks of what it has taken, but for those it owes. -/
structure TaskInv (fromStr : Raw → Option (InputEvent ℚ)) (k : ℕ) (t : SessionTask Raw) (h : List (Event Raw)) :
    Prop where
  inbox : tookAt k h ++ t.inbox = arrivedAt k h
  owed : ∃ owed, leftBy k h ++ owed = (tookAt k h).flatMap (marksOf fromStr) ∧ Emits mark t.work owed ∧
    owed.countP Mark.counts ≤ 1

/-- What was put into the queue has been executed or is still there, and the counters have counted. -/
structure StationInv (s : Station) (h : List (Event Raw)) : Prop where
  queue : executed h ++ s.injector.queued = (accepted h).map Prod.snd
  closed : s.injector.Closed
  rejected : s.rejected = UInt64.ofNat ((marks h).count .rejected)
  dispatched : s.dispatched = UInt64.ofNat ((marks h).count .dispatched)

/-- The events are not of the session. -/
def Without (k : ℕ) (h : List (Event Raw)) : Prop := arrivedAt k h = [] ∧ tookAt k h = [] ∧ leftBy k h = []

structure Inv (fromStr : Raw → Option (InputEvent ℚ)) (p : World Raw × List (Event Raw)) : Prop where
  unopened : ∀ k, p.1.tasks.length ≤ k → Without k p.2
  tasks : ∀ k t, p.1.tasks[k]? = some t → TaskInv fromStr k t p.2
  station : StationInv p.1.station p.2

/-- A frame is counted once. -/
theorem countP_marksOf_le (fromStr : Raw → Option (InputEvent ℚ)) (ev : PeerEvent Raw) :
    (marksOf fromStr ev).countP Mark.counts ≤ 1 := by
  cases ev with
  | inputFrame frame => cases hread : fromStr frame <;> simp [marksOf, hread, Mark.counts]
  | localIce | controlFrame | stateChanged => exact Nat.zero_le 1

section Append
variable (k : ℕ) (h h' : List (Event Raw))

@[simp] theorem arrivedAt_append : arrivedAt k (h ++ h') = arrivedAt k h ++ arrivedAt k h' := List.filterMap_append

@[simp] theorem tookAt_append : tookAt k (h ++ h') = tookAt k h ++ tookAt k h' := List.filterMap_append

@[simp] theorem leftBy_append : leftBy k (h ++ h') = leftBy k h ++ leftBy k h' := List.filterMap_append

@[simp] theorem marks_append : marks (h ++ h') = marks h ++ marks h' := List.filterMap_append

@[simp] theorem accepted_append : accepted (h ++ h') = accepted h ++ accepted h' := List.filterMap_append

@[simp] theorem executed_append : executed (h ++ h') = executed h ++ executed h' := List.filterMap_append

end Append

section Step
variable {fromStr : Raw → Option (InputEvent ℚ)} {k : ℕ} {t : SessionTask Raw} {h h' : List (Event Raw)}

theorem Without.append (hh : Without k h) (hh' : Without k h') : Without k (h ++ h') := by
  obtain ⟨harrived, htook, hleft⟩ := hh
  obtain ⟨harrived', htook', hleft'⟩ := hh'
  refine ⟨?_, ?_, ?_⟩ <;> simp [*]

theorem TaskInv.append (ht : TaskInv fromStr k t h) (hh' : Without k h') : TaskInv fromStr k t (h ++ h') := by
  obtain ⟨harrived, htook, hleft⟩ := hh'
  constructor
  · rw [tookAt_append, arrivedAt_append, htook, harrived, List.append_nil, List.append_nil]
    exact ht.inbox
  · rw [tookAt_append, leftBy_append, htook, hleft, List.append_nil, List.append_nil]
    exact ht.owed

/-- The task of one session goes on. -/
theorem Inv.set {w : World Raw} (hw : Inv fromStr (w, h)) (hk : w.tasks[k]? = some t) {t' : SessionTask Raw}
    {station : Station} (hothers : ∀ j, j ≠ k → Without j h') (ht : TaskInv fromStr k t' (h ++ h'))
    (hstation : StationInv station (h ++ h')) : Inv fromStr (⟨w.tasks.set k t', station⟩, h ++ h') where
  unopened := by
    intro j hj
    rw [List.length_set] at hj
    have hlt := (List.getElem?_eq_some_iff.1 hk).1
    exact (hw.unopened j hj).append (hothers j (by omega))
  tasks := by
    intro j t'' hj
    rcases set_cases hj with ⟨rfl, rfl⟩ | ⟨hne, hj⟩
    · exact ht
    · exact (hw.tasks j t'' hj).append (hothers j (Ne.symm hne))
  station := hstation

/-- Nothing that was put into the queue is lost when an injector is started, stopped, or takes a command. -/
theorem queued_start {i : Injector} (hi : i.Closed) (ready : Except String (ℤ × ℤ)) :
    (i.start ready).queued = i.queued ∧ (i.start ready).Closed := by
  cases i with
  | stopped =>
    cases ready with
    | ok dims => exact ⟨rfl, [], rfl⟩
    | error e => exact ⟨rfl, trivial⟩
  | running dims queue => exact ⟨rfl, hi⟩
  | stopping dims queue next => cases next <;> exact ⟨rfl, hi⟩

theorem queued_stop {i : Injector} (hi : i.Closed) : i.stop.queued = i.queued ∧ i.stop.Closed := by
  cases i with
  | stopped => exact ⟨rfl, trivial⟩
  | running dims queue =>
    obtain ⟨es, rfl⟩ := hi
    exact ⟨by simp [Injector.stop, Injector.queued, Command.input], es, rfl⟩
  | stopping dims queue next => exact ⟨rfl, hi⟩

theorem queued_next {i i' : Injector} (hi : i.Closed) {dims : ℤ × ℤ} {c : Command}
    (hnext : i.next = some (dims, c, i')) : i.queued = c.input.toList ++ i'.queued ∧ i'.Closed := by
  cases i with
  | stopped => cases hnext
  | running dims' queue =>
    obtain ⟨es, rfl⟩ := hi
    cases es with
    | nil => cases hnext
    | cons e es =>
      cases hnext
      exact ⟨rfl, es, rfl⟩
  | stopping dims' queue waiting =>
    obtain ⟨es, rfl⟩ := hi
    cases es with
    | nil =>
      cases waiting with
      | none =>
        cases hnext
        exact ⟨rfl, trivial⟩
      | some dims'' =>
        cases hnext
        exact ⟨rfl, [], rfl⟩
    | cons e es =>
      cases hnext
      exact ⟨rfl, es, rfl⟩

theorem queued_inject {i : Injector} (hi : i.Closed) (e : InputEvent ℚ) :
    (i.inject e).2.queued = i.queued ++ (if (i.inject e).1.isOk then [e] else []) ∧ (i.inject e).2.Closed := by
  cases i with
  | stopped => exact ⟨rfl, trivial⟩
  | running dims queue =>
    obtain ⟨es, rfl⟩ := hi
    exact ⟨by simp [Injector.inject, Injector.queued, Command.input, Except.isOk, Except.toBool], es ++ [e], by
      simp⟩
  | stopping dims queue next => exact ⟨(List.append_nil _).symm, hi⟩

/-- A call of a task. -/
theorem StationInv.act {s : Station} (hs : StationInv s h) (k : ℕ) (fault : Option AgentError) (c : Shared Raw) :
    StationInv (s.act fault c).2 (h ++ (mark c).toList.map fun m => .left k m (s.act fault c).1.isOk) := by
  have hsame {s' : Station} (hi : s'.injector = s.injector) (hr : s'.rejected = s.rejected)
      (hd : s'.dispatched = s.dispatched) : StationInv s' (h ++ []) := by
    rw [List.append_nil]
    exact ⟨hi ▸ hs.queue, hi ▸ hs.closed, hr ▸ hs.rejected, hd ▸ hs.dispatched⟩
  cases c with
  | setText text => cases fault <;> exact hsame rfl rfl rfl
  | sendIce candidate sdpMLineIndex => cases fault <;> exact hsame rfl rfl rfl
  | devtools frame => cases fault <;> exact hsame rfl rfl rfl
  | inject event =>
    obtain ⟨hqueued, hclosed⟩ := queued_inject hs.closed event
    refine ⟨?_, hclosed, ?_, ?_⟩
    · show executed (h ++ _) ++ (s.injector.inject event).2.queued = _
      rw [hqueued, executed_append, accepted_append, List.map_append, ← hs.queue]
      show executed h ++ [] ++ (s.injector.queued ++ _) = _
      cases hok : (s.injector.inject event).1.isOk <;> simp [accepted, mark, Station.act, hok]
    · simpa [Station.act, marks, mark] using hs.rejected
    · simpa [Station.act, marks, mark] using hs.dispatched
  | countRejected =>
    refine ⟨?_, hs.closed, ?_, ?_⟩
    · simpa [Station.act, executed, accepted, mark] using hs.queue
    · simp [Station.act, marks, mark, hs.rejected]
    · simpa [Station.act, marks, mark] using hs.dispatched
  | countDispatched =>
    refine ⟨?_, hs.closed, ?_, ?_⟩
    · simpa [Station.act, executed, accepted, mark] using hs.queue
    · simpa [Station.act, marks, mark] using hs.rejected
    · simp [Station.act, marks, mark, hs.dispatched]

theorem inv_step {p : World Raw × List (Event Raw)} (hp : Inv fromStr p) (x : Step Raw) :
    Inv fromStr (Run.record (World.step fromStr) p x) := by
  obtain ⟨w, h⟩ := p
  have hstay : Inv fromStr (w, h ++ []) := by rwa [List.append_nil]
  have hstation {i : Injector} (desk : Desk) {h' : List (Event Raw)}
      (hs : StationInv { w.station with injector := i, desk := desk } (h ++ h')) (hnobody : ∀ k, Without k h') :
      Inv fromStr ({ w with station := { w.station with injector := i, desk := desk } }, h ++ h') :=
    ⟨fun k hk => (hp.unopened k hk).append (hnobody k), fun k t hk => (hp.tasks k t hk).append (hnobody k), hs⟩
  have hinjector {i : Injector} (hqueued : i.queued = w.station.injector.queued) (hclosed : i.Closed) :
      Inv fromStr ({ w with station := { w.station with injector := i } }, h ++ []) := by
    refine hstation w.station.desk ?_ fun k => ⟨rfl, rfl, rfl⟩
    rw [List.append_nil]
    exact ⟨by rw [hqueued]; exact hp.station.queue, hclosed, hp.station.rejected, hp.station.dispatched⟩
  cases x with
  | opens =>
    refine ⟨fun k hk => ?_, fun k t hk => ?_, ?_⟩
    · simp only [Run.record, World.step, List.length_append, List.length_singleton, List.append_nil] at hk ⊢
      exact hp.unopened k (Nat.le_of_succ_le hk)
    · simp only [Run.record, World.step, List.append_nil] at hk ⊢
      rcases getElem?_concat_cases hk with hk | ⟨rfl, rfl⟩
      · exact hp.tasks k t hk
      · obtain ⟨harrived, htook, hleft⟩ := hp.unopened w.tasks.length le_rfl
        exact ⟨by rw [htook, harrived]; rfl, [], by rw [hleft, htook]; rfl, rfl, Nat.zero_le 1⟩
    · simpa [Run.record, World.step] using hp.station
  | arrives k ev =>
    cases hk : w.tasks[k]? with
    | none => simpa [Run.record, World.step, hk] using hp
    | some t =>
      have ht := hp.tasks k t hk
      simp only [Run.record, World.step, hk]
      refine hp.set hk (fun j hj => ?_) ⟨?_, ?_⟩ ?_
      · simp [Without, arrivedAt, tookAt, leftBy, Ne.symm hj]
      · rw [tookAt_append, arrivedAt_append, ← ht.inbox]
        simp [tookAt, arrivedAt]
      · simpa [tookAt, leftBy] using ht.owed
      · have hs := hp.station
        constructor
        · simpa [executed, accepted] using hs.queue
        · exact hs.closed
        · simpa [marks] using hs.rejected
        · simpa [marks] using hs.dispatched
  | takes k =>
    simp only [Run.record, World.step]
    split
    · rename_i ev inbox hk
      have ht := hp.tasks k _ hk
      refine hp.set hk (fun j hj => ?_) ⟨?_, ?_⟩ ?_
      · simp [Without, arrivedAt, tookAt, leftBy, Ne.symm hj]
      · rw [tookAt_append, arrivedAt_append, ← ht.inbox]
        simp [tookAt, arrivedAt]
      · obtain ⟨owed, howed, hemits, -⟩ := ht.owed
        -- nothing is owed for what was taken before
        obtain rfl : owed = [] := hemits
        refine ⟨marksOf fromStr ev, ?_, emits_eventTask fromStr ev, countP_marksOf_le fromStr ev⟩
        rw [leftBy_append, tookAt_append, List.flatMap_append, ← howed]
        simp [leftBy, tookAt]
      · have hs := hp.station
        constructor
        · simpa [executed, accepted] using hs.queue
        · exact hs.closed
        · simpa [marks] using hs.rejected
        · simpa [marks] using hs.dispatched
    · exact hstay
  | acts k fault =>
    simp only [Run.record, World.step]
    split
    · rename_i inbox c next hk
      have ht := hp.tasks k _ hk
      split
      · exact hstay
      · refine hp.set hk (fun j hj => ?_) ⟨?_, ?_⟩ (hp.station.act k fault c)
        · cases mark c <;> simp [Without, arrivedAt, tookAt, leftBy, Ne.symm hj]
        · rw [tookAt_append, arrivedAt_append, ← ht.inbox]
          cases mark c <;> simp [tookAt, arrivedAt]
        · obtain ⟨owed, howed, hemits, hcount⟩ := ht.owed
          obtain ⟨rest, rfl, hrest⟩ := hemits.next (w.station.act fault c).1
          refine ⟨rest, ?_, hrest, (List.sublist_append_right _ _).countP_le.trans hcount⟩
          rw [leftBy_append, tookAt_append]
          cases hm : mark c with
          | none => simpa [leftBy, tookAt, hm] using howed
          | some m => simpa [leftBy, tookAt, hm] using howed
    · exact hstay
  | aborts k =>
    refine ⟨fun j hj => ?_, fun j t hj => ?_, ?_⟩
    · simp only [Run.record, World.step, List.length_modify, List.append_nil] at hj ⊢
      exact hp.unopened j hj
    · simp only [Run.record, World.step, List.append_nil] at hj ⊢
      obtain ⟨t', ht', rfl⟩ := getElem?_modify_eq_some hj
      have ht := hp.tasks j t' ht'
      split_ifs
      · exact ⟨ht.inbox, ht.owed⟩
      · exact ht
    · simpa [Run.record, World.step] using hp.station
  | starts ready =>
    obtain ⟨hqueued, hclosed⟩ := queued_start hp.station.closed ready
    exact hinjector hqueued hclosed
  | stops =>
    obtain ⟨hqueued, hclosed⟩ := queued_stop hp.station.closed
    exact hinjector hqueued hclosed
  | executes faults =>
    simp only [Run.record, World.step]
    split
    · rename_i dims e injector hnext
      obtain ⟨hqueued, hclosed⟩ := queued_next hp.station.closed hnext
      refine hstation _ ?_ fun k => ⟨rfl, rfl, rfl⟩
      have hqueue := hp.station.queue
      rw [hqueued] at hqueue
      refine ⟨?_, hclosed, ?_, ?_⟩
      · simpa [executed, accepted, Command.input] using hqueue
      · simpa [marks] using hp.station.rejected
      · simpa [marks] using hp.station.dispatched
    · rename_i dims injector hnext
      obtain ⟨hqueued, hclosed⟩ := queued_next hp.station.closed hnext
      exact hinjector hqueued.symm hclosed
    · exact hstay

end Step

/-! ### Runs -/

theorem inv_run (fromStr : Raw → Option (InputEvent ℚ)) (l : List (Step Raw)) : Inv fromStr (World.run fromStr l) := by
  have hinit : Inv fromStr (({}, []) : World Raw × List (Event Raw)) :=
    { unopened := fun _ _ => ⟨rfl, rfl, rfl⟩
      tasks := fun _ _ hk => (by cases hk)
      station := ⟨rfl, trivial, rfl, rfl⟩ }
  exact Run.invariant (I := Inv fromStr) (fun _ x hp => inv_step hp x) hinit l

/-- The task waits for its peer, and its session has not ended. -/
def SessionTask.Waits (t : SessionTask Raw) : Prop := t.inbox = [] ∧ t.work = .ret () ∧ t.aborted = false

/-- The task is not done with what it has taken, though it may have been aborted. -/
def SessionTask.busy (t : SessionTask Raw) : Bool :=
  match t.work with
  | .ret _ => false
  | .call _ _ => true

theorem injected_marksOf (fromStr : Raw → Option (InputEvent ℚ)) (evs : List (PeerEvent Raw)) :
    ((evs.flatMap (marksOf fromStr)).filterMap fun
      | .injected e => some e
      | _ => none) = evs.filterMap (readInput fromStr) := by
  induction evs with
  | nil => rfl
  | cons ev evs ih =>
    rw [List.flatMap_cons, List.filterMap_append, ih, List.filterMap_cons]
    cases ev with
    | inputFrame frame => cases hread : fromStr frame <;> simp [marksOf, readInput, hread]
    | localIce | controlFrame | stateChanged => rfl

/-- A counter counts the frames of its kind. -/
theorem count_marksOf (fromStr : Raw → Option (InputEvent ℚ)) (evs : List (PeerEvent Raw)) :
    (evs.flatMap (marksOf fromStr)).countP (· == .rejected) = evs.countP (malformed fromStr) ∧
      (evs.flatMap (marksOf fromStr)).countP (· == .dispatched) = evs.countP (readable fromStr) := by
  induction evs with
  | nil => exact ⟨rfl, rfl⟩
  | cons ev evs ih =>
    obtain ⟨hrejected, hdispatched⟩ := ih
    rw [List.flatMap_cons, List.countP_append, List.countP_append, hrejected, hdispatched, List.countP_cons,
      List.countP_cons]
    cases ev with
    | inputFrame frame =>
      cases hread : fromStr frame <;> simp [marksOf, malformed, readable, readInput, hread, Nat.add_comm]
    | localIce | controlFrame | stateChanged => simp [marksOf, malformed, readable, readInput]

/-- What a task has counted is at most one short of the frames it has taken, and that only when it is busy. -/
theorem TaskInv.counts {fromStr : Raw → Option (InputEvent ℚ)} {k : ℕ} {t : SessionTask Raw} {h : List (Event Raw)}
    (ht : TaskInv fromStr k t h) :
    (leftBy k h).countP (· == .rejected) ≤ (tookAt k h).countP (malformed fromStr) ∧
    (leftBy k h).countP (· == .dispatched) ≤ (tookAt k h).countP (readable fromStr) ∧
    (tookAt k h).countP (malformed fromStr) + (tookAt k h).countP (readable fromStr) ≤
      (leftBy k h).countP (· == .rejected) + (leftBy k h).countP (· == .dispatched) + if t.busy then 1 else 0 := by
  obtain ⟨owed, howed, hemits, hcount⟩ := ht.owed
  obtain ⟨hrejected, hdispatched⟩ := count_marksOf fromStr (tookAt k h)
  rw [← howed, List.countP_append] at hrejected hdispatched
  have hsplit : owed.countP (· == .rejected) + owed.countP (· == .dispatched) = owed.countP Mark.counts := by
    clear howed hemits hcount hrejected hdispatched
    induction owed with
    | nil => rfl
    | cons m owed ih => cases m <;> simp [List.countP_cons, Mark.counts, ← ih] <;> omega
  have hbusy : owed.countP Mark.counts ≤ if t.busy then 1 else 0 := by
    cases hwork : t.work with
    | ret u =>
      rw [hwork] at hemits
      rw [Prog.emits_ret.1 hemits]
      exact Nat.zero_le _
    | call c next => simpa [SessionTask.busy, hwork] using hcount
  omega

section Sessions
variable {fromStr : Raw → Option (InputEvent ℚ)} {p : World Raw × List (Event Raw)}

/-- A session injects the events of its frames in order. -/
theorem Inv.injectedBy_prefix (hp : Inv fromStr p) (k : ℕ) :
    injectedBy k p.2 <+: (arrivedAt k p.2).filterMap (readInput fromStr) := by
  cases hk : p.1.tasks[k]? with
  | none =>
    obtain ⟨-, -, hleft⟩ := hp.unopened k (List.getElem?_eq_none_iff.1 hk)
    rw [injectedBy, hleft]
    exact List.nil_prefix
  | some t =>
    have ht := hp.tasks k t hk
    obtain ⟨owed, howed, -⟩ := ht.owed
    have hprefix : injectedBy k p.2 <+: (tookAt k p.2).filterMap (readInput fromStr) := by
      rw [← injected_marksOf, ← howed, List.filterMap_append]
      exact List.prefix_append _ _
    refine hprefix.trans ?_
    rw [← ht.inbox, List.filterMap_append]
    exact List.prefix_append _ _

/-- It has injected all of them when its task waits. -/
theorem Inv.injectedBy_waits (hp : Inv fromStr p) {k : ℕ} {t : SessionTask Raw} (hk : p.1.tasks[k]? = some t)
    (hwaits : t.Waits) : injectedBy k p.2 = (arrivedAt k p.2).filterMap (readInput fromStr) := by
  obtain ⟨hinbox, hwork, -⟩ := hwaits
  have ht := hp.tasks k t hk
  obtain ⟨owed, howed, hemits, -⟩ := ht.owed
  rw [hwork] at hemits
  obtain rfl : owed = [] := hemits
  rw [List.append_nil] at howed
  rw [injectedBy, howed, injected_marksOf, ← ht.inbox, hinbox, List.append_nil]

end Sessions

end DeskSync.Agent.Router
