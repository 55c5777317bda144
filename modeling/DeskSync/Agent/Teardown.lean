import DeskSync.Agent.Input

/-!
# The injector and the end of a session

The task of `handle_session` that handles the frames of the peer (`session_runtime.rs`), the router, whose
`inject` puts each event into the queue of the injector, and the thread of the injector, which executes them
one after the other; any call may fail. The teardown of the session aborts the task. The thread belongs to
the agent and goes on with its queue; its shutdown with the agent is left out.

`held_after`: what is held down at any moment is what the successful calls pressed last. They are calls of
the handled events, in order, and no event is handled after the teardown, which makes no call itself. So when
the queue is worked off and no call failed, a key or a button is held exactly if the last handled event that
names it pressed it.
-/

namespace DeskSync.Agent.Teardown

open Agent.Input Proc

structure World where
  /-- The frames the peer has received that are not handled yet, decoded. -/
  frames : List (InputEvent ℚ) := []
  ended : Bool := false
  /-- The queue of the injector. -/
  queue : List (InputEvent ℚ) := []
  /-- What is left of the event the thread executes. -/
  running : Prog Reply (Except AgentError Unit) := .ret (.ok ())
  host : Host := {}

inductive Step
  | arrives (event : InputEvent ℚ)
  /-- The task handles the next frame. -/
  | handles
  /-- The thread takes the next event from its queue. -/
  | takes
  /-- The thread makes its next call, which fails with an error or succeeds. -/
  | calls (fault : Option String)
  /-- The teardown. -/
  | ends

inductive Event
  | handled (event : InputEvent ℚ)
  | called (c : Call)
  | failed (c : Call)
  | ended

def World.step (dims : ℤ × ℤ) (w : World) : Step → World × List Event
  | .arrives event => ({ w with frames := w.frames ++ [event] }, [])
  | .handles =>
    if w.ended then (w, [])
    else
      match w.frames with
      | [] => (w, [])
      | e :: frames => ({ w with frames := frames, queue := w.queue ++ [e] }, [.handled e])
  | .takes =>
    match w.running, w.queue with
    | .ret _, e :: queue => ({ w with queue := queue, running := execute dims e }, [])
    | _, _ => (w, [])
  | .calls fault =>
    match w.running with
    | .ret _ => (w, [])
    | .call c k =>
      let r := Host.exec fault c w.host
      ({ w with running := k r.1, host := r.2 }, [if fault = none then .called c else .failed c])
  | .ends => ({ w with ended := true }, if w.ended then [] else [.ended])

/-! ### What is held -/

/-- What a call does to a key or button: it presses it or releases it, if it concerns it. -/
def effect (x : Held) : Call → Option Bool
  | .key k d => if x = .key k then some (decide (d = .press)) else none
  | .button b d => if x = .button b then some (decide (d = .press)) else none
  | _ => none

/-- What an event does to a key or button. -/
def names (x : Held) : InputEvent ℚ → Option Bool
  | .mouseButton button pressed modifiers =>
    if x = .button (toButton button) ∨ x ∈ (modifierKeys modifiers).map .key then some pressed else none
  | .key code pressed modifiers =>
    match (mapHidKey code).bind physicalToEnigo with
    | none => none
    | some k => if x = .key k ∨ x ∈ (modifierKeys modifiers).map .key then some pressed else none
  | _ => none

/-- The last entry, and nothing is held before the first. -/
def lastly (l : List Bool) : Bool := l.getLast?.getD false

theorem apply_held (h : Host) (c : Call) (x : Held) :
    (h.apply c).held x = (effect x c).getD (h.held x) := by
  cases c with
  | key k d =>
    cases d <;> by_cases hx : x = .key k <;> simp [Host.apply, effect, hx]
  | button b d =>
    cases d <;> by_cases hx : x = .button b <;> simp [Host.apply, effect, hx]
  | _ => rfl

/-- The calls of an event, none if its key is not mapped. -/
def callsOf (dims : ℤ × ℤ) (e : InputEvent ℚ) : List Call :=
  match calls dims e with
  | .ok cs => cs
  | .error _ => []

theorem effect_keys (x : Held) (mods : List Input.Key) (d : Direction) :
    ((mods.map (Call.key · d)).filterMap (effect x)).getLast? =
      if x ∈ mods.map .key then some (decide (d = .press)) else none := by
  induction mods using List.reverseRecOn with
  | nil => rfl
  | append_singleton mods k ih =>
    rw [List.map_append, List.filterMap_append, List.getLast?_append, ih, List.map_append]
    by_cases hx : x = .key k <;> simp [effect, hx]

/-- All calls of a chord go the same way. -/
theorem effect_chord (x y : Held) (mods : List Input.Key) (call : Direction → Call)
    (hcall : ∀ d, effect x (call d) = if x = y then some (decide (d = .press)) else none) (pressed : Bool) :
    ((chord mods call pressed).filterMap (effect x)).getLast? =
      if x = y ∨ x ∈ mods.map .key then some pressed else none := by
  cases pressed with
  | true =>
    simp only [chord, if_true, List.filterMap_append, List.getLast?_append, effect_keys, List.filterMap_cons,
      List.filterMap_nil, hcall]
    by_cases hx : x = y <;> simp [hx]
  | false =>
    have hmem : x ∈ mods.reverse.map .key ↔ x ∈ mods.map .key := by simp
    simp only [chord, Bool.false_eq_true, if_false, List.filterMap_cons, hcall]
    by_cases hx : x = y
    · simp only [hx, if_true, true_or]
      rw [List.getLast?_cons, ← hx, effect_keys]
      split <;> rfl
    · simp only [hx, if_false, false_or, effect_keys, hmem]
      split <;> rfl

/-- The calls of an event do to a key or button what the event does to it. -/
theorem effect_callsOf (dims : ℤ × ℤ) (e : InputEvent ℚ) (x : Held) :
    ((callsOf dims e).filterMap (effect x)).getLast? = names x e := by
  unfold callsOf
  cases e with
  | mouseMove x y => rfl
  | mouseButton button pressed modifiers =>
    exact effect_chord x _ _ _ (fun _ => rfl) pressed
  | scroll dx dy =>
    simp only [calls, names]
    split <;> split <;> rfl
  | key code pressed modifiers =>
    simp only [calls, names]
    cases (mapHidKey code).bind physicalToEnigo with
    | none => rfl
    | some k => exact effect_chord x _ _ _ (fun _ => rfl) pressed
  | clipboardText text => rfl

/-- What a sequence of events does to a key or button, the last of them that names it does. -/
theorem effect_events (dims : ℤ × ℤ) (es : List (InputEvent ℚ)) (x : Held) :
    ((es.flatMap (callsOf dims)).filterMap (effect x)).getLast? = (es.filterMap (names x)).getLast? := by
  induction es using List.reverseRecOn with
  | nil => rfl
  | append_singleton es e ih =>
    rw [List.flatMap_append, List.filterMap_append, List.filterMap_append, List.getLast?_append,
      List.getLast?_append, ih, List.flatMap_singleton, effect_callsOf, List.filterMap_cons]
    cases names x e <;> rfl

/-! ### Runs -/

def Event.handling : Event → Option (InputEvent ℚ)
  | .handled e => some e
  | _ => none

def Event.making : Event → Option Call
  | .called c => some c
  | _ => none

def Event.failing : Event → Option Call
  | .failed c => some c
  | _ => none

/-- The handled events of a history, its successful calls and those that failed. -/
def handled (h : List Event) : List (InputEvent ℚ) := h.filterMap Event.handling

def made (h : List Event) : List Call := h.filterMap Event.making

def failures (h : List Event) : List Call := h.filterMap Event.failing

@[simp] theorem handled_concat (h : List Event) (e : Event) :
    handled (h ++ [e]) = handled h ++ e.handling.toList := by
  rw [handled, List.filterMap_append, List.filterMap_cons]
  cases e.handling <;> rfl

@[simp] theorem made_concat (h : List Event) (e : Event) : made (h ++ [e]) = made h ++ e.making.toList := by
  rw [made, List.filterMap_append, List.filterMap_cons]
  cases e.making <;> rfl

@[simp] theorem failures_concat (h : List Event) (e : Event) :
    failures (h ++ [e]) = failures h ++ e.failing.toList := by
  rw [failures, List.filterMap_append, List.filterMap_cons]
  cases e.failing <;> rfl

/-- No event is handled after the teardown. -/
def Permitted (h : List Event) : Event → Prop
  | .handled _ => .ended ∉ h
  | _ => True

/-- What is left of an event: calls, or nothing after an error. -/
def Remains (p : Prog Reply (Except AgentError Unit)) (cs : List Call) : Prop :=
  p = attempt cs ∨ cs = [] ∧ ∃ r, p = .ret r

theorem remains_execute (dims : ℤ × ℤ) (e : InputEvent ℚ) : Remains (execute dims e) (callsOf dims e) := by
  unfold execute callsOf
  cases calls dims e with
  | ok cs => exact .inl rfl
  | error err => exact .inr ⟨rfl, _, rfl⟩

theorem Remains.of_ret {r : Except AgentError Unit} {cs : List Call} (h : Remains (.ret r) cs) : cs = [] := by
  rcases h with h | h
  · cases cs with
    | nil => rfl
    | cons c cs => nomatch h
  · exact h.1

/-- The next call is the first that remains; after an error, none does. -/
theorem Remains.of_call {c : Call} {k : Reply c → Prog Reply (Except AgentError Unit)} {cs : List Call}
    (h : Remains (.call c k) cs) : ∃ rest, cs = c :: rest ∧ k (.ok ()) = attempt rest ∧
      ∀ e, ∃ r, k (.error e) = .ret r := by
  rcases h with h | ⟨-, r, h⟩
  · cases cs with
    | nil => nomatch h
    | cons c' rest =>
      injection h with hc hk
      subst hc
      subst hk
      exact ⟨rest, rfl, rfl, fun e => ⟨_, rfl⟩⟩
  · nomatch h

/-- The events taken from the queue, and what remains of the last of them. -/
def Worked (dims : ℤ × ℤ) (w : World) (h : List Event) : Prop :=
  ∃ taken remaining, handled h = taken ++ w.queue ∧ Remains w.running remaining ∧
    (made h ++ remaining).Sublist (taken.flatMap (callsOf dims)) ∧
    (failures h = [] → made h ++ remaining = taken.flatMap (callsOf dims))

section Worked

variable {dims : ℤ × ℤ} {w : World} {h : List Event}

theorem Worked.handles (hw : Worked dims w h) (e : InputEvent ℚ) (frames : List (InputEvent ℚ)) :
    Worked dims { w with frames := frames, queue := w.queue ++ [e] } (h ++ [.handled e]) := by
  obtain ⟨taken, remaining, hqueue, hremains, hsub, hall⟩ := hw
  refine ⟨taken, remaining, ?_, hremains, ?_, ?_⟩
  · simp [Event.handling, hqueue]
  · simpa [Event.making] using hsub
  · simpa [Event.making, Event.failing] using hall

theorem Worked.takes (hw : Worked dims w h) {r : Except AgentError Unit} {e : InputEvent ℚ}
    {queue : List (InputEvent ℚ)} (hrunning : w.running = .ret r) (hq : w.queue = e :: queue) :
    Worked dims { w with queue := queue, running := execute dims e } h := by
  obtain ⟨taken, remaining, hqueue, hremains, hsub, hall⟩ := hw
  rw [hrunning] at hremains
  obtain rfl := hremains.of_ret
  rw [List.append_nil] at hsub hall
  refine ⟨taken ++ [e], callsOf dims e, ?_, remains_execute dims e, ?_, fun hf => ?_⟩
  · simp [hqueue, hq]
  · rw [List.flatMap_append, List.flatMap_singleton]
    exact hsub.append (List.Sublist.refl _)
  · rw [hall hf, List.flatMap_append, List.flatMap_singleton]

theorem Worked.called (hw : Worked dims w h) {c : Call}
    {k : Reply c → Prog Reply (Except AgentError Unit)} (hrunning : w.running = .call c k) :
    Worked dims { w with running := k (.ok ()), host := w.host.apply c } (h ++ [.called c]) := by
  obtain ⟨taken, remaining, hqueue, hremains, hsub, hall⟩ := hw
  rw [hrunning] at hremains
  obtain ⟨rest, rfl, hok, -⟩ := hremains.of_call
  refine ⟨taken, rest, ?_, .inl hok, ?_, ?_⟩
  · simpa [Event.handling] using hqueue
  · simpa [Event.making] using hsub
  · simpa [Event.making, Event.failing] using hall

/-- What remains of an event after a call that failed is abandoned. -/
theorem Worked.failed (hw : Worked dims w h) {c : Call}
    {k : Reply c → Prog Reply (Except AgentError Unit)} (hrunning : w.running = .call c k) (e : String) :
    Worked dims { w with running := k (.error e) } (h ++ [.failed c]) := by
  obtain ⟨taken, remaining, hqueue, hremains, hsub, -⟩ := hw
  rw [hrunning] at hremains
  obtain ⟨rest, rfl, -, herror⟩ := hremains.of_call
  refine ⟨taken, [], ?_, .inr ⟨rfl, herror e⟩, ?_, ?_⟩
  · simpa [Event.handling] using hqueue
  · simpa [Event.making] using (List.sublist_append_left _ _).trans hsub
  · simp [Event.failing]

theorem Worked.ends (hw : Worked dims w h) : Worked dims { w with ended := true } (h ++ [.ended]) := by
  obtain ⟨taken, remaining, hqueue, hremains, hsub, hall⟩ := hw
  refine ⟨taken, remaining, ?_, hremains, ?_, ?_⟩
  · simpa [Event.handling] using hqueue
  · simpa [Event.making] using hsub
  · simpa [Event.making, Event.failing] using hall

end Worked

structure Inv (dims : ℤ × ℤ) (p : World × List Event) : Prop where
  ended : p.1.ended = true ↔ .ended ∈ p.2
  follows : Run.Follows Permitted p.2
  held : ∀ x, p.1.host.held x = lastly ((made p.2).filterMap (effect x))
  worked : Worked dims p.1 p.2

theorem inv_start (dims : ℤ × ℤ) : Inv dims ({}, []) where
  ended := by simp
  follows := Run.follows_nil
  held := fun _ => rfl
  worked := ⟨[], [], rfl, .inl rfl, .slnil, fun _ => rfl⟩

/-- A call that is made presses or releases. -/
theorem held_call {h : Host} {cs : List Call} (x : Held) (c : Call)
    (hh : h.held x = lastly (cs.filterMap (effect x))) :
    (h.apply c).held x = lastly ((cs ++ [c]).filterMap (effect x)) := by
  rw [apply_held, hh, List.filterMap_append, lastly, lastly, List.getLast?_append]
  cases hx : effect x c <;> simp [hx]

theorem Inv.step {dims : ℤ × ℤ} {p : World × List Event} (hp : Inv dims p) (s : Step) :
    Inv dims (Run.record (World.step dims) p s) := by
  obtain ⟨w, h⟩ := p
  cases s with
  | arrives event =>
    simp only [Run.record, World.step, List.append_nil]
    exact ⟨hp.ended, hp.follows, hp.held, hp.worked⟩
  | handles =>
    simp only [Run.record, World.step]
    split
    · rwa [List.append_nil]
    · next hopen =>
      cases w.frames with
      | nil => rwa [List.append_nil]
      | cons e frames =>
        have hnot : Event.ended ∉ h := fun hm => hopen (hp.ended.2 hm)
        refine ⟨by simpa using hp.ended, hp.follows.concat hnot, ?_, hp.worked.handles e frames⟩
        simpa [Event.making] using hp.held
  | takes =>
    simp only [Run.record, World.step]
    split
    · next hrunning hq =>
      rw [List.append_nil]
      exact ⟨hp.ended, hp.follows, hp.held, hp.worked.takes hrunning hq⟩
    · rwa [List.append_nil]
  | calls fault =>
    simp only [Run.record, World.step]
    split
    · rwa [List.append_nil]
    · next c k hrunning =>
      cases fault with
      | none =>
        refine ⟨by simpa using hp.ended, hp.follows.concat trivial, fun x => ?_, hp.worked.called hrunning⟩
        simpa [Event.making, Host.exec] using held_call x c (hp.held x)
      | some e =>
        refine ⟨by simpa using hp.ended, hp.follows.concat trivial, fun x => ?_, hp.worked.failed hrunning e⟩
        simpa [Event.making, Host.exec] using hp.held x
  | ends =>
    simp only [Run.record, World.step]
    split
    · next he =>
      rw [List.append_nil]
      exact ⟨by simpa using hp.ended.1 he, hp.follows, hp.held, hp.worked⟩
    · refine ⟨by simp, hp.follows.concat trivial, ?_, hp.worked.ends⟩
      simpa [Event.making] using hp.held

/-- The last successful call that concerns a key or a button decides whether it is held; the teardown makes
none. When the queue is worked off without a failing call, the last handled event decides. -/
theorem held_after (dims : ℤ × ℤ) (steps : List Step) :
    let (w, h) := Run.exec (Run.record (World.step dims)) ({}, []) steps
    Run.Follows Permitted h ∧ (made h).Sublist ((handled h).flatMap (callsOf dims)) ∧
      (∀ x, w.host.held x = lastly ((made h).filterMap (effect x))) ∧
      (w.queue = [] → w.running.pending = none → failures h = [] →
        ∀ x, w.host.held x = lastly ((handled h).filterMap (names x))) := by
  have hinv := Run.invariant (I := Inv dims) (fun _ s hp => hp.step s) (inv_start dims) steps
  generalize Run.exec (Run.record (World.step dims)) ({}, []) steps = p at hinv ⊢
  obtain ⟨w, h⟩ := p
  obtain ⟨taken, remaining, hqueue, hremains, hsub, hall⟩ := hinv.worked
  simp only at hqueue hremains hsub hall ⊢
  refine ⟨hinv.follows, ?_, hinv.held, fun hq hidle hf x => ?_⟩
  · rw [hqueue, List.flatMap_append]
    exact ((List.sublist_append_left _ _).trans hsub).trans (List.sublist_append_left _ _)
  · cases hr : w.running with
    | call c k =>
      rw [hr] at hidle
      nomatch hidle
    | ret r =>
      rw [hr] at hremains
      obtain rfl := hremains.of_ret
      have hmade : made h = (handled h).flatMap (callsOf dims) := by
        rw [hqueue, hq, List.append_nil, ← hall hf, List.append_nil]
      rw [hinv.held x, hmade, lastly, effect_events, lastly]

/-- A button is pressed and the session ends. -/
theorem pressed_at_end :
    ¬∀ (dims : ℤ × ℤ) (steps : List Step),
      let w := (Run.exec (Run.record (World.step dims)) ({}, []) steps).1
      w.ended = true → w.queue = [] → w.running.pending = none → ∀ x, w.host.held x = false := by
  intro h
  have hleft := h (0, 0)
    [.arrives (.mouseButton .left true {}), .handles, .takes, .calls none, .ends] rfl rfl rfl (.button .left)
  exact absurd hleft (by decide +kernel)

end DeskSync.Agent.Teardown
