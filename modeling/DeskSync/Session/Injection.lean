import DeskSync.Agent.Router
import DeskSync.Session.Commands

/-!
# From the phone's controls to the host

The controls of the phone as events (`InputController`), on its `input` channel as frames (`DataChannelInputSink`), in
the task of the session, the router, the queue of the injector and its thread, on the host. The channel is reliable
and ordered; it may hold other frames too, and other sessions may send what is no input event.

`value` is the number a coordinate is. `sent_executed`: with a started injector whose calls do not fail, once all have
come to rest, what was executed is what the phone has sent, and a text typed on the phone is typed on the host.
-/

namespace DeskSync.Session.Injection

open Agent.Input Agent.Router
open Session.Typing (agentEvent idle typeText_executed)
open Session.Commands (Wire InRange readEvent)

variable {F Raw : Type}

/-! ### Coordinates -/

/-- The event with numbers for coordinates, on the phone and on the agent. -/
def valued (value : F → ℚ) : Mobile.InputEvent F → Mobile.InputEvent ℚ
  | .mouseMove x y => .mouseMove (value x) (value y)
  | .mouseButton button pressed modifiers => .mouseButton button pressed modifiers
  | .scroll dx dy => .scroll (value dx) (value dy)
  | .key code pressed modifiers => .key code pressed modifiers
  | .clipboardText text => .clipboardText text

def agentValued (value : F → ℚ) : InputEvent F → InputEvent ℚ
  | .mouseMove x y => .mouseMove (value x) (value y)
  | .mouseButton button pressed modifiers => .mouseButton button pressed modifiers
  | .scroll dx dy => .scroll (value dx) (value dy)
  | .key code pressed modifiers => .key code pressed modifiers
  | .clipboardText text => .clipboardText text

theorem agentValued_agentEvent (value : F → ℚ) (e : Mobile.InputEvent F) :
    agentValued value (agentEvent e) = agentEvent (valued value e) := by
  cases e <;> rfl

/-- `from_str::<InputEvent>` of the router. -/
def fromStr (W : Wire F Raw) (value : F → ℚ) (frame : Raw) : Option (InputEvent ℚ) :=
  (readEvent W frame).map (agentValued value)

/-- What the sink puts on the channel is read as what was sent. -/
theorem filterMap_fromStr (W : Wire F Raw) (value : F → ℚ) {es : List (Mobile.InputEvent F)}
    (hcodes : ∀ e ∈ es, InRange e) :
    (Mobile.DataChannelInputSink.sendAll W.double W.jsonEncode {} es).frames.filterMap (fromStr W value) =
      es.map fun e => agentEvent (valued value e) := by
  have hread : ∀ e ∈ es, fromStr W value (W.jsonEncode (e.toJson W.double)) = some (agentEvent (valued value e)) := by
    intro e he
    rw [fromStr, readEvent, W.faithful _ (Mobile.distinct_event W.double e), Option.bind_some,
      Session.Commands.event_crosses W e (hcodes e he), Option.map_some, agentValued_agentEvent]
  rw [Mobile.sendAll_frames, List.nil_append, List.filterMap_map]
  exact (List.filterMap_congr hread).trans (congrFun List.filterMap_eq_map _)

/-! ### A healthy agent -/

/-- The injector is not stopped, and no call of its thread fails. -/
def Healthy : Step Raw → Prop
  | .stops => False
  | .executes faults => ∀ n, faults n = none
  | _ => True

/-- All injections, and who made them. -/
def injections (h : List (Event Raw)) : List (ℕ × InputEvent ℚ) :=
  h.filterMap fun
    | .left j (.injected e) _ => some (j, e)
    | _ => none

/-- The injector is running, everything was accepted, and the host has executed what the thread has taken. -/
structure HealthyInv (dims : ℤ × ℤ) (p : World Raw × List (Event Raw)) : Prop where
  running : ∃ queue, p.1.station.injector = .running dims queue
  accepted : accepted p.2 = injections p.2
  host : p.1.station.desk.host = (Host.executeAll dims (executed p.2) {}).2

/-- The clipboard does not matter to the host. -/
theorem run_desk (p : Proc.Prog Reply (Except AgentError Unit)) (faults : ℕ → Option String) (d : Desk) :
    (p.run Desk.exec faults d).2.host = (p.run Host.exec faults d.host).2 := by
  induction p generalizing faults d with
  | ret r => rfl
  | call c k ih => exact ih _ _ _

section Step
variable {fromStr : Raw → Option (InputEvent ℚ)} {dims : ℤ × ℤ} {p : World Raw × List (Event Raw)}

theorem healthyInv_step (hp : HealthyInv dims p) {x : Step Raw} (hx : Healthy x) :
    HealthyInv dims (Run.record (World.step fromStr) p x) := by
  obtain ⟨w, h⟩ := p
  obtain ⟨queue, hqueue⟩ : ∃ queue, w.station.injector = .running dims queue := hp.running
  have haccepted : accepted h = injections h := hp.accepted
  have hhost : w.station.desk.host = (Host.executeAll dims (executed h) {}).2 := hp.host
  have hframe {w' : World Raw} {evs : List (Event Raw)} (hs : w'.station = w.station)
      (ha : accepted evs = injections evs) (he : executed evs = []) : HealthyInv dims (w', h ++ evs) := by
    have happ : injections (h ++ evs) = injections h ++ injections evs := List.filterMap_append
    refine ⟨⟨queue, hs ▸ hqueue⟩, ?_, ?_⟩
    · rw [accepted_append, haccepted, ha, happ]
    · rw [executed_append, he, List.append_nil]
      exact hs ▸ hhost
  cases x with
  | opens => exact hframe rfl rfl rfl
  | arrives k ev =>
    simp only [Run.record, World.step]
    split
    · exact hframe rfl rfl rfl
    · exact hframe rfl rfl rfl
  | takes k =>
    simp only [Run.record, World.step]
    split
    · exact hframe rfl rfl rfl
    · exact hframe rfl rfl rfl
  | aborts k => exact hframe rfl rfl rfl
  | stops => exact hx.elim
  | starts ready =>
    have hsame : w.station.injector.start ready = w.station.injector := by rw [hqueue]; rfl
    simp only [Run.record, World.step, hsame]
    exact hframe rfl rfl rfl
  | acts k fault =>
    simp only [Run.record, World.step]
    split
    · rename_i inbox c next hk
      have hfree : w.station.blocks c = false := by
        cases c with
        | inject event => simp [Station.blocks, hqueue, Injector.locked]
        | _ => rfl
      simp only [hfree, Bool.false_eq_true, if_false]
      cases c with
      | inject event =>
        refine ⟨⟨queue ++ [.event event], ?_⟩, ?_, ?_⟩
        · simp [Station.act, hqueue, Injector.inject]
        · rw [accepted_append, haccepted]
          simp [accepted, injections, mark, Station.act, hqueue, Injector.inject, Except.isOk, Except.toBool]
        · rw [executed_append]
          simpa [executed, mark, Station.act] using hhost
      | setText text =>
        cases fault with
        | none => exact ⟨⟨queue, hqueue⟩, by simpa [mark] using haccepted, by simpa [mark, Station.act] using hhost⟩
        | some e => exact hframe rfl rfl rfl
      | sendIce candidate sdpMLineIndex => cases fault <;> exact hframe rfl rfl rfl
      | devtools frame => cases fault <;> exact hframe rfl rfl rfl
      | countRejected | countDispatched =>
        refine ⟨⟨queue, hqueue⟩, ?_, ?_⟩
        · rw [accepted_append, haccepted]
          simp [accepted, injections, mark]
        · rw [executed_append]
          simpa [executed, mark, Station.act] using hhost
    · exact hframe rfl rfl rfl
  | executes faults =>
    obtain rfl : faults = fun _ => none := funext hx
    simp only [Run.record, World.step, hqueue]
    cases queue with
    | nil => exact hframe rfl rfl rfl
    | cons c queue =>
      cases c with
      | shutdown => exact ⟨⟨queue, rfl⟩, by simpa [Injector.next] using haccepted, by
          simpa [Injector.next] using hhost⟩
      | event e =>
        refine ⟨⟨queue, rfl⟩, ?_, ?_⟩
        · simpa [Injector.next, accepted, injections] using haccepted
        · have hone : executed (h ++ [Event.executed e]) = executed h ++ [e] := executed_append _ _
          simp only [Injector.next]
          rw [hone, executeAll_append, ← hhost, run_desk]
          rfl

theorem healthyInv_run (fromStr : Raw → Option (InputEvent ℚ)) (dims : ℤ × ℤ) {l : List (Step Raw)}
    (hl : ∀ x ∈ l, Healthy x) : HealthyInv dims (World.run fromStr (.starts (.ok dims) :: l)) := by
  have hstart : HealthyInv dims (Run.record (World.step fromStr) (({}, []) : World Raw × List (Event Raw))
      (.starts (.ok dims))) := ⟨⟨[], rfl⟩, rfl, rfl⟩
  exact (Run.guarded_of_forall hl _).invariant (I := HealthyInv dims) (fun _ _ hp hx => healthyInv_step hp hx) hstart

end Step

/-! ### Everything has come to rest -/

/-- The frames that came in on the `input` channel. -/
def inputFrames (evs : List (PeerEvent Raw)) : List Raw :=
  evs.filterMap fun
    | .inputFrame frame => some frame
    | _ => none

theorem filterMap_inputFrames (fromStr : Raw → Option (InputEvent ℚ)) (evs : List (PeerEvent Raw)) :
    evs.filterMap (readInput fromStr) = (inputFrames evs).filterMap fromStr := by
  rw [inputFrames, List.filterMap_filterMap]
  refine List.filterMap_congr fun ev _ => ?_
  cases ev <;> rfl

/-- Where one session injects, its injections are all. -/
theorem injections_eq {k : ℕ} {h : List (Event Raw)} (hothers : ∀ j, j ≠ k → injectedBy j h = []) :
    (injections h).map Prod.snd = injectedBy k h := by
  induction h with
  | nil => rfl
  | cons ev h ih =>
    have htail : ∀ j, j ≠ k → injectedBy j h = [] := by
      intro j hj
      have happ : injectedBy j (ev :: h) = injectedBy j [ev] ++ injectedBy j h := by
        rw [← List.singleton_append, injectedBy, leftBy_append, List.filterMap_append]
        rfl
      exact (List.append_eq_nil_iff.1 (happ ▸ hothers j hj)).2
    cases ev with
    | arrived | took | executed => exact ih htail
    | left j m ok =>
      cases m with
      | rejected | dispatched =>
        refine (ih htail).trans ?_
        by_cases hj : j = k <;> simp [injectedBy, leftBy, hj]
      | injected e =>
        obtain rfl : j = k := by
          by_contra hj
          have hone := hothers j hj
          simp [injectedBy, leftBy] at hone
        have hrest := ih htail
        simp only [injections, injectedBy, leftBy] at hrest ⊢
        simp [hrest]

/-- **The injector is started and no call of its thread fails, one session sends the controls of the phone, among other
frames, and the other sessions send no input events. Once its task waits and the queue is empty, what was executed is
what was sent, whatever the interleaving; and where a text was typed, the host shows it, and nothing is held down.** -/
theorem sent_executed (W : Wire F Raw) (value : F → ℚ) (dims : ℤ × ℤ) (es : List (Mobile.InputEvent F))
    (hcodes : ∀ e ∈ es, InRange e) (l : List (Step Raw)) (hl : ∀ x ∈ l, Healthy x) (k : ℕ) (t : SessionTask Raw)
    (p : World Raw × List (Event Raw)) (hp : p = World.run (fromStr W value) (.starts (.ok dims) :: l))
    (hk : p.1.tasks[k]? = some t) (hwaits : t.Waits) (hqueue : p.1.station.injector.queued = [])
    (hsent : (inputFrames (arrivedAt k p.2)).filter (fun frame => (fromStr W value frame).isSome) =
      (Mobile.DataChannelInputSink.sendAll W.double W.jsonEncode {} es).frames)
    (hothers : ∀ j, j ≠ k → ∀ frame ∈ inputFrames (arrivedAt j p.2), fromStr W value frame = none) :
    executed p.2 = (es.map fun e => agentEvent (valued value e)) ∧
    p.1.station.desk.host = (Host.executeAll dims (es.map fun e => agentEvent (valued value e)) {}).2 ∧
    ∀ text, es.map (valued value) = Mobile.typeText text → p.1.station.desk.host = idle (Mobile.mapped text) := by
  have hinv : Inv (fromStr W value) p := hp ▸ inv_run _ _
  have hhealthy : HealthyInv dims p := hp ▸ healthyInv_run _ dims hl
  have hreads (j : ℕ) : (arrivedAt j p.2).filterMap (readInput (fromStr W value)) =
      (inputFrames (arrivedAt j p.2)).filterMap (fromStr W value) := filterMap_inputFrames _ _
  have hfrom : injectedBy k p.2 = es.map fun e => agentEvent (valued value e) := by
    have hfilter : ((inputFrames (arrivedAt k p.2)).filter (fun frame => (fromStr W value frame).isSome)).filterMap
        (fromStr W value) = (inputFrames (arrivedAt k p.2)).filterMap (fromStr W value) := by
      rw [List.filterMap_filter]
      refine List.filterMap_congr fun frame _ => ?_
      cases fromStr W value frame <;> rfl
    rw [hinv.injectedBy_waits hk hwaits, hreads, ← hfilter, hsent, filterMap_fromStr W value hcodes]
  have hnone : ∀ j, j ≠ k → injectedBy j p.2 = [] := by
    intro j hj
    have hprefix := hinv.injectedBy_prefix j
    rw [hreads, List.filterMap_eq_nil_iff.2 (hothers j hj)] at hprefix
    exact List.prefix_nil.1 hprefix
  have hexecuted : executed p.2 = es.map fun e => agentEvent (valued value e) := by
    have haccepted := hinv.station.queue
    rw [hqueue, List.append_nil, hhealthy.accepted, injections_eq hnone, hfrom] at haccepted
    exact haccepted
  have hhost := hhealthy.host
  rw [hexecuted] at hhost
  refine ⟨hexecuted, hhost, fun text htext => ?_⟩
  have hmap : (es.map fun e => agentEvent (valued value e)) = (Mobile.typeText text).map agentEvent := by
    rw [← htext, List.map_map]
    rfl
  rw [hhost, hmap]
  exact (typeText_executed dims text []).2

/-! ### One letter -/

/-- The events of the letter `h`, with the coordinates as they are written; there are none. -/
def letter : List (Mobile.InputEvent Number) := [.key 0x0B true {}, .key 0x0B false {}]

/-- It arrives behind a frame that is no event, and is handled. -/
def typing : List (Step Json) :=
  [.opens, .arrives 0 (.inputFrame .null)] ++
    (Mobile.DataChannelInputSink.sendAll id id {} letter).frames.map (fun frame => .arrives 0 (.inputFrame frame)) ++
    [.takes 0, .acts 0 none, .takes 0, .acts 0 none, .acts 0 none, .executes fun _ => none, .takes 0, .acts 0 none,
      .acts 0 none, .executes fun _ => none]

theorem letter_typed :
    (World.run (fromStr Session.Commands.documents fun _ => 0)
      (.starts (.ok (1920, 1080)) :: typing)).1.station.desk.host = idle (Mobile.mapped [0x68]) := by
  have hhealthy : ∀ x ∈ typing, Healthy x := by
    simp [typing, Healthy, letter, Mobile.DataChannelInputSink.sendAll, Mobile.DataChannelInputSink.send]
  have hone : (World.run (fromStr Session.Commands.documents fun _ => 0)
      (.starts (.ok (1920, 1080)) :: typing)).1.tasks.length = 1 := by decide +kernel
  refine (sent_executed Session.Commands.documents (fun _ => 0) (1920, 1080) letter (by
    simp [letter, Session.Commands.InRange]) typing hhealthy 0 {} _ rfl rfl ⟨rfl, rfl, rfl⟩ (by decide +kernel)
    rfl (fun j hj frame hframe => ?_)).2.2 [0x68] (by decide +kernel)
  obtain ⟨harrived, -⟩ := (inv_run (fromStr Session.Commands.documents fun _ => 0)
    (.starts (.ok (1920, 1080)) :: typing)).unopened j (by omega)
  rw [harrived] at hframe
  cases hframe

end DeskSync.Session.Injection
