import DeskSync.Lib.Elements
import DeskSync.Lib.Run

/-!
# The teardown of a viewer

`ViewerController` of the mobile client: `connect` resolves the pairing, creates a session on the backend,
starts a `WebRtcSession` for it and attaches its channels to the input and the control sink, which all
controllers share; `disconnect` undoes this, and `dispose` calls it. The screen builds a controller,
connects it and disposes it, and on a retry puts a new one in its place. `WebRtcSession.start` opens the resources
of the session one after another, and `close`, which also runs when the other side leaves, closes them.

A step is what runs between two `await`s: an operation is called, or a call that is awaited completes or
throws (`Await`). What the controller shows (its phase, its error message) is left out.

A disposed controller should leave nothing behind, and the sinks should stay with the live one. `connect`
goes on after an `await` whether or not the controller has been disposed in the meantime, `start` whether or
not the session has been closed; and a call that fails leaves what comes after it in `close` and in
`disconnect` undone. `disposed_while_connecting` has a run for each.
`final_of_timely`: in a run in which no step comes too late and no failing call leaves something behind
(`timely`), everything is torn down.
-/

namespace DeskSync.Viewer.Teardown

open Elements

structure ViewerController where
  deviceId : String
  /-- `_session`, among the sessions. -/
  session : Option ℕ := none
  /-- `_sessionId`, among the sessions of the backend. -/
  sessionId : Option ℕ := none
  disposed : Bool := false

/-- What a `WebRtcSession` consists of, in the order in which `close` goes through it: `_sub`, the socket of
`_signaling`, the three channels, `_pc` and the renderer. -/
inductive Resource
  | subscription
  | socket
  | input
  | control
  | frames
  | connection
  | renderer
  deriving DecidableEq

def Resource.next : Resource → Option Resource
  | .subscription => some .socket
  | .socket => some .input
  | .input => some .control
  | .control => some .frames
  | .frames => some .connection
  | .connection => some .renderer
  | .renderer => none

def Resource.rank : Resource → ℕ
  | .subscription => 0
  | .socket => 1
  | .input => 2
  | .control => 3
  | .frames => 4
  | .connection => 5
  | .renderer => 6

/-- The calls that `start` awaits. -/
inductive Opening
  | initializeRenderer
  | createPeerConnection
  | addTransceiver
  | createInput
  | createControl
  | createFrames
  | connect
  deriving DecidableEq

def Opening.next : Opening → Option Opening
  | .initializeRenderer => some .createPeerConnection
  | .createPeerConnection => some .addTransceiver
  | .addTransceiver => some .createInput
  | .createInput => some .createControl
  | .createControl => some .createFrames
  | .createFrames => some .connect
  | .connect => none

/-- What is open when the call has completed. -/
def Opening.opens : Opening → Option Resource
  | .initializeRenderer => some .renderer
  | .createPeerConnection => some .connection
  | .addTransceiver => none
  | .createInput => some .input
  | .createControl => some .control
  | .createFrames => some .frames
  | .connect => some .socket

structure WebRtcSession where
  owner : ℕ
  /-- `_closed`: `close` has been called. -/
  closed : Bool := false
  /-- `_sub` is set. It listens to the client's own stream, and holds nothing open. -/
  listening : Bool := false
  /-- What `start` has opened and `close` has not closed. -/
  opened : List Resource := []
  deriving DecidableEq

/-- Whether `close` has something to wait for: the client and the renderer are there from the beginning. -/
def WebRtcSession.has (s : WebRtcSession) : Resource → Bool
  | .subscription => s.listening
  | .socket | .renderer => true
  | resource => s.opened.contains resource

/-- An `await` of `close`: whether the resource was open then, and whether there was anything to wait for. -/
structure Closing where
  session : ℕ
  resource : Resource
  live : Bool
  called : Bool
  deriving DecidableEq

/-- `endSession` has gone through, or not. -/
structure BackendSession where
  owner : ℕ
  ended : Bool := false
  deriving DecidableEq

/-- Where `connect`, `disconnect` or a session that closes itself is suspended. -/
inductive Await
  | resolvePairing (deviceId : String)
  | createSession (pairingId : String)
  /-- `session.start()`, at a call, or done with the last one. -/
  | start (session : ℕ) (call : Option Opening)
  /-- `session?.close()`, at a call, or without one: there is no session, `close` has been called before, or is
  done with the last one. -/
  | disconnect (call : Option Closing)
  /-- `close`, called by the session. -/
  | peerLeft (call : Closing)
  | endSession (id : ℕ)
  deriving DecidableEq

/-- The call of `close` that is awaited. -/
def Await.closing : Await → Option Closing
  | .disconnect call => call
  | .peerLeft call => some call
  | _ => none

/-- The session whose `start` or `close` is awaited. -/
def Await.session : Await → Option ℕ
  | .start s _ => some s
  | a => a.closing.map (·.session)

/-- Whether what is awaited may throw: a call may, and `null` or a future that is done may not. -/
def Await.throws : Await → Bool
  | .start _ call => call.isSome
  | .disconnect call => call.any (·.called)
  | .peerLeft call => call.called
  | _ => true

/-- What is suspended; a session that closes itself is work of its controller. -/
structure Task where
  controller : ℕ
  awaits : Await
  deriving DecidableEq

/-- The controllers, what they have created, the targets of the two sinks, what is awaited, and `_viewer` of
the screen. -/
structure World where
  controllers : List ViewerController := []
  sessions : List WebRtcSession := []
  backend : List BackendSession := []
  inputTarget : Option ℕ := none
  controlTarget : Option ℕ := none
  tasks : List Task := []
  viewer : Option ℕ := none

def World.await (w : World) (i : ℕ) (a : Await) : World := { w with tasks := w.tasks ++ [⟨i, a⟩] }

/-! ### `WebRtcSession` -/

/-- A call of `start` has completed. The session listens before it connects. -/
def World.startCall (w : World) (s : ℕ) (call : Opening) : World :=
  { w with sessions := w.sessions.modify s fun o =>
      { o with opened := o.opened ++ call.opens.toList, listening := o.listening || call == .createFrames } }

/-- `close` comes to a resource. -/
def World.closingCall (w : World) (s : ℕ) (resource : Resource) : Closing where
  session := s
  resource
  live := w.sessions[s]?.any (·.opened.contains resource)
  called := w.sessions[s]?.any (·.has resource)

/-- `close`, up to its first `await`. When it has been called before, it returns at once: `closed` is set. -/
def World.closeSession (w : World) (s : ℕ) : World × Option Closing :=
  ({ w with sessions := w.sessions.modify s fun o => { o with closed := true } },
    if w.sessions[s]?.all (·.closed) then none else some (w.closingCall s .subscription))

/-- A call of `close` has completed. What has been opened since it was made it does not close. -/
def World.closeCall (w : World) (c : Closing) : World :=
  { w with sessions := w.sessions.modify c.session fun o =>
      { o with opened := if c.live then o.opened.filter (· != c.resource) else o.opened } }

/-- The next call of `close`. -/
def World.closeNext (w : World) (c : Closing) : Option Closing := c.resource.next.map (w.closingCall c.session)

/-- `_handleSignal`: the other side has left. A session that listens and is not closed closes itself. -/
def World.peerLeft (w : World) (s : ℕ) : World :=
  match w.sessions[s]?, (w.closeSession s).2 with
  | some o, some call => if o.listening then (w.closeSession s).1.await o.owner (.peerLeft call) else w
  | _, _ => w

/-- `_onClosed` of the client. -/
def World.socketClosed (w : World) (s : ℕ) : World :=
  { w with sessions := w.sessions.modify s fun o => { o with opened := o.opened.filter (· != .socket) } }

/-! ### `ViewerController` -/

/-- `connect`, up to its first `await`. -/
def World.connect (w : World) (i : ℕ) : World :=
  match w.controllers[i]? with
  | none => w
  | some c => w.await i (.resolvePairing c.deviceId)

/-- `disconnect`, up to its first `await`. -/
def World.disconnect (w : World) (i : ℕ) : World :=
  match w.controllers[i]? with
  | none => w
  | some c =>
    let w := { w with
      inputTarget := none
      controlTarget := none
      controllers := w.controllers.modify i fun c => { c with session := none } }
    match c.session with
    | none => w.await i (.disconnect none)
    | some s => (w.closeSession s).1.await i (.disconnect (w.closeSession s).2)

def World.dispose (w : World) (i : ℕ) : World :=
  let w' := { w with controllers := w.controllers.modify i fun c => { c with disposed := true } }
  w'.disconnect i

/-- `disconnect`, after the session is closed. -/
def World.closed (w : World) (i : ℕ) : World :=
  match w.controllers[i]?.bind (·.sessionId) with
  | none => w
  | some id =>
    let w' := { w with controllers := w.controllers.modify i fun c => { c with sessionId := none } }
    w'.await i (.endSession id)

/-- `connect`, after the backend has created the session. -/
def World.created (w : World) (i : ℕ) : World :=
  let w' := { w with
    backend := w.backend ++ [({ owner := i } : BackendSession)]
    sessions := w.sessions ++ [({ owner := i } : WebRtcSession)]
    controllers := w.controllers.modify i fun c =>
      { c with sessionId := some w.backend.length, session := some w.sessions.length } }
  w'.await i (.start w.sessions.length (some .initializeRenderer))

def World.endSession (w : World) (id : ℕ) : World :=
  { w with backend := w.backend.modify id fun b => { b with ended := true } }

/-- What awaits goes on, the call having completed; `pairing` is the result of `resolvePairing`. -/
def World.resume (w : World) (i : ℕ) (pairing : Option String) : Await → World
  | .resolvePairing _ =>
    match pairing with
    | none => w
    | some id => w.await i (.createSession id)
  | .createSession _ => w.created i
  | .start s (some call) => (w.startCall s call).await i (.start s call.next)
  | .start s none => { w with inputTarget := some s, controlTarget := some s }
  | .disconnect (some c) => (w.closeCall c).await i (.disconnect ((w.closeCall c).closeNext c))
  | .disconnect none => w.closed i
  | .peerLeft c =>
    match (w.closeCall c).closeNext c with
    | none => w.closeCall c
    | some call => (w.closeCall c).await i (.peerLeft call)
  | .endSession id => w.endSession id

/-! ### The screen -/

/-- The screen has been built: its controller is created and connected. -/
def World.opens (w : World) (deviceId : String) : World :=
  let w' := { w with
    controllers := w.controllers ++ [({ deviceId } : ViewerController)]
    viewer := some w.controllers.length }
  w'.connect w.controllers.length

def World.disposeViewer (w : World) : Option ℕ → World
  | none => w
  | some i => w.dispose i

/-- `_reconnect`. -/
def World.reconnect (w : World) (deviceId : String) : World :=
  let w' := { w with
    controllers := w.controllers ++ [({ deviceId } : ViewerController)]
    viewer := some w.controllers.length }
  (w'.disposeViewer w.viewer).connect w.controllers.length

/-! ### Runs -/

inductive Step
  | opens (deviceId : String)
  | reconnect (deviceId : String)
  /-- The screen is disposed. -/
  | leaves
  | connect (i : ℕ)
  | disconnect (i : ℕ)
  | dispose (i : ℕ)
  | peerLeft (s : ℕ)
  | socketClosed (s : ℕ)
  /-- The `n`-th awaited call completes; `pairing` is the result of `resolvePairing`. -/
  | completes (n : ℕ) (pairing : Option String)
  /-- It throws. `connect` catches what it awaits, `disconnect` only what `endSession` throws, `_handleSignal`
  what `close` throws; none of them goes on. -/
  | throws (n : ℕ)

def World.step (w : World) : Step → World
  | .opens deviceId => w.opens deviceId
  | .reconnect deviceId => w.reconnect deviceId
  | .leaves => { w.disposeViewer w.viewer with viewer := none }
  | .connect i => w.connect i
  | .disconnect i => w.disconnect i
  | .dispose i => w.dispose i
  | .peerLeft s => w.peerLeft s
  | .socketClosed s => w.socketClosed s
  | .completes n pairing =>
    match w.tasks[n]? with
    | none => w
    | some t => { w with tasks := w.tasks.eraseIdx n }.resume t.controller pairing t.awaits
  | .throws n =>
    match w.tasks[n]? with
    | none => w
    | some t => if t.awaits.throws then { w with tasks := w.tasks.eraseIdx n } else w

/-! ### Finality -/

def World.isDisposed (w : World) (i : ℕ) : Bool := (w.controllers[i]?.map (·.disposed)).getD false

/-- The controller whose channels a sink is attached to. -/
def World.ownerOf (w : World) (target : Option ℕ) : Option ℕ :=
  (target.bind (w.sessions[·]?)).map (·.owner)

/-- The sessions of a disposed controller that awaits nothing are closed, with all their resources, and have been
ended on the backend; and no sink is attached to the channels of a disposed controller. -/
structure Final (w : World) : Prop where
  closed : ∀ i, w.isDisposed i = true → (∀ t ∈ w.tasks, t.controller ≠ i) →
    ∀ s ∈ w.sessions, s.owner = i → s.closed = true ∧ s.opened = []
  ended : ∀ i, w.isDisposed i = true → (∀ t ∈ w.tasks, t.controller ≠ i) →
    ∀ b ∈ w.backend, b.owner = i → b.ended = true
  input : ∀ i, w.ownerOf w.inputTarget = some i → w.isDisposed i = false
  control : ∀ i, w.ownerOf w.controlTarget = some i → w.isDisposed i = false

/-- The controller that acts in a step. -/
def World.actor (w : World) : Step → Option ℕ
  | .reconnect _ | .leaves => w.viewer
  | .disconnect i | .dispose i => some i
  | .completes n _ | .throws n => w.tasks[n]?.map (·.controller)
  | _ => none

/-- A step takes the sinks only from the controller that acts. -/
structure Keeps (w : World) (l : Step) : Prop where
  input : ∀ i, w.ownerOf w.inputTarget = some i → w.actor l ≠ some i →
    (w.step l).inputTarget = w.inputTarget
  control : ∀ i, w.ownerOf w.controlTarget = some i → w.actor l ≠ some i →
    (w.step l).controlTarget = w.controlTarget

/-! ### The condition -/

/-- The sinks are attached to the channels of the controller, or of none. -/
def World.holdsSinks (w : World) (i : ℕ) : Bool :=
  (w.ownerOf w.inputTarget).all (· == i) && (w.ownerOf w.controlTarget).all (· == i)

/-- What a call of `start` opens will be closed: `close` has not been called, or has yet to come to it. -/
def World.opensInTime (w : World) (s : ℕ) (call : Opening) : Bool :=
  call.opens.all fun resource => !w.sessions[s]?.any (·.closed) ||
    w.tasks.any fun t => t.awaits.closing.any fun c => c.session == s && decide (c.resource.rank < resource.rank)

/-- What awaits may go on: a controller gets a session when it is neither disposed nor in one, and attaches its
channels when it is not disposed, and in the place of its own. -/
def World.completesInTime (w : World) (t : Task) : Bool :=
  match t.awaits with
  | .createSession _ =>
    w.controllers[t.controller]?.all fun c => !c.disposed && c.session.isNone && c.sessionId.isNone
  | .start s (some call) => w.opensInTime s call
  | .start _ none => !w.isDisposed t.controller && w.holdsSinks t.controller
  | _ => true

/-- The controller has no session id, or a pending `disconnect` will end that. -/
def World.willEnd (w : World) (i : ℕ) : Bool :=
  (w.controllers[i]?.bind (·.sessionId)).isNone ||
    w.tasks.any fun t => t.controller == i && t.awaits matches .disconnect _

/-- What awaited has been dropped, and nothing is left behind: `endSession` has not failed, and a `close` that
has failed leaves no resource open and no disposed controller with a session id. -/
def World.leavesNothing (w : World) (t : Task) : Bool :=
  match t.awaits with
  | .disconnect (some c) =>
    w.sessions[c.session]?.all (·.opened.isEmpty) && (!w.isDisposed t.controller || w.willEnd t.controller)
  | .peerLeft c => w.sessions[c.session]?.all (·.opened.isEmpty)
  | .endSession _ => false
  | _ => true

/-- A step does not come too late, and what fails leaves nothing behind. Only a controller that nobody else's
channels are attached to detaches the sinks. -/
def World.timely (w : World) : Step → Bool
  | .reconnect _ | .leaves => w.viewer.all w.holdsSinks
  | .disconnect i | .dispose i => w.holdsSinks i
  | .completes n _ => w.tasks[n]?.all w.completesInTime
  | .throws n =>
    w.tasks[n]?.all fun t => !t.awaits.throws || { w with tasks := w.tasks.eraseIdx n }.leavesNothing t
  | _ => true

/-! ### Who holds what -/

/-- The task is a `close` of the session that closes the resource, or has yet to come to it. -/
def Task.closes (t : Task) (s : ℕ) (r : Resource) : Prop :=
  ∃ c, t.awaits.closing = some c ∧ c.session = s ∧
    (c.resource.rank < r.rank ∨ c.resource = r ∧ c.live = true)

/-- Every session that is not closed is the one of its controller, and what is open of one that is will be
closed. Every session of the backend that has not been ended is the one of its controller or is being ended. -/
structure Owned (w : World) : Prop where
  session : ∀ (i : ℕ) c s, w.controllers[i]? = some c → c.session = some s →
    ∃ o, w.sessions[s]? = some o ∧ o.owner = i
  sessionId : ∀ (i : ℕ) c b, w.controllers[i]? = some c → c.sessionId = some b →
    ∃ o, w.backend[b]? = some o ∧ o.owner = i
  current : ∀ (n : ℕ) s, w.sessions[n]? = some s → s.closed = false →
    ∃ c, w.controllers[s.owner]? = some c ∧ c.session = some n
  covered : ∀ (n : ℕ) s, w.sessions[n]? = some s → s.closed = true → ∀ r ∈ s.opened,
    ∃ t ∈ w.tasks, t.controller = s.owner ∧ t.closes n r
  pending : ∀ (n : ℕ) b, w.backend[n]? = some b → b.ended = false →
    (∃ c, w.controllers[b.owner]? = some c ∧ c.sessionId = some n) ∨ ⟨b.owner, .endSession n⟩ ∈ w.tasks
  acting : ∀ t ∈ w.tasks, t.controller < w.controllers.length
  awaited : ∀ t ∈ w.tasks, ∀ s, t.awaits.session = some s → ∃ o, w.sessions[s]? = some o ∧ o.owner = t.controller

section Owned
variable {w : World}

theorem Owned.await (hp : Owned w) {i : ℕ} (hi : i < w.controllers.length) {a : Await}
    (ha : ∀ s, a.session = some s → ∃ o, w.sessions[s]? = some o ∧ o.owner = i) : Owned (w.await i a) where
  session := hp.session
  sessionId := hp.sessionId
  current := hp.current
  covered n s hs hclosed r hr := by
    obtain ⟨t, ht, hcloses⟩ := hp.covered n s hs hclosed r hr
    exact ⟨t, List.mem_append_left _ ht, hcloses⟩
  pending n b hb hended := (hp.pending n b hb hended).imp_right (List.mem_append_left _)
  acting t ht := by
    rcases List.mem_append.1 ht with ht | ht
    · exact hp.acting t ht
    · rwa [List.mem_singleton.1 ht]
  awaited t ht s hs := by
    rcases List.mem_append.1 ht with ht | ht
    · exact hp.awaited t ht s hs
    · rw [List.mem_singleton.1 ht] at hs ⊢
      exact ha s hs

/-- A task that concerns no session. -/
theorem Owned.await_none (hp : Owned w) {i : ℕ} (hi : i < w.controllers.length) {a : Await}
    (ha : a.session = none) : Owned (w.await i a) :=
  hp.await hi fun s hs => by
    rw [ha] at hs
    cases hs

/-- A controller changes. It gives its session up when that is closed, and its session id when that is being
ended. -/
theorem Owned.modify (hp : Owned w) (i : ℕ) {f : ViewerController → ViewerController}
    (hs : ∀ c, w.controllers[i]? = some c → (f c).session = c.session ∨ (f c).session = none ∧
      ∀ s o, c.session = some s → w.sessions[s]? = some o → o.closed = true)
    (hid : ∀ c, w.controllers[i]? = some c → (f c).sessionId = c.sessionId ∨ (f c).sessionId = none ∧
      ∀ b, c.sessionId = some b → ⟨i, .endSession b⟩ ∈ w.tasks) :
    Owned { w with controllers := w.controllers.modify i f } where
  session j c s hc hsession := by
    obtain ⟨c', hc', rfl⟩ := getElem?_modify_eq_some hc
    refine hp.session j c' s hc' ?_
    split at hsession
    · rename_i hij
      rcases hs c' (hij ▸ hc') with heq | ⟨hnone, -⟩
      · rwa [heq] at hsession
      · rw [hnone] at hsession
        cases hsession
    · exact hsession
  sessionId j c b hc hb := by
    obtain ⟨c', hc', rfl⟩ := getElem?_modify_eq_some hc
    refine hp.sessionId j c' b hc' ?_
    split at hb
    · rename_i hij
      rcases hid c' (hij ▸ hc') with heq | ⟨hnone, -⟩
      · rwa [heq] at hb
      · rw [hnone] at hb
        cases hb
    · exact hb
  current n s hn hopen := by
    obtain ⟨c, hc, hcn⟩ := hp.current n s hn hopen
    refine ⟨_, getElem?_modify_of_some f hc, ?_⟩
    split
    · rename_i hij
      rcases hs c (hij ▸ hc) with heq | ⟨-, hclosed⟩
      · rwa [heq]
      · rw [hclosed n s hcn hn] at hopen
        cases hopen
    · exact hcn
  covered := hp.covered
  pending n b hb hended := by
    rcases hp.pending n b hb hended with ⟨c, hc, hcn⟩ | hmem
    · by_cases hij : i = b.owner
      · rcases hid c (hij ▸ hc) with heq | ⟨-, hmem⟩
        · refine .inl ⟨_, getElem?_modify_of_some f hc, ?_⟩
          rw [if_pos hij]
          rwa [heq]
        · exact .inr (hij ▸ hmem n hcn)
      · refine .inl ⟨_, getElem?_modify_of_some f hc, ?_⟩
        rwa [if_neg hij]
    · exact .inr hmem
  acting t ht := by
    rw [List.length_modify]
    exact hp.acting t ht
  awaited := hp.awaited

/-- A session changes. It is not opened again, and what is open when it is closed is being closed. -/
theorem Owned.modifySession (hp : Owned w) (s : ℕ) {f : WebRtcSession → WebRtcSession}
    (howner : ∀ o, (f o).owner = o.owner)
    (hclosed : ∀ o, (f o).closed = false → o.closed = false)
    (hcovered : ∀ o, w.sessions[s]? = some o → (f o).closed = true → ∀ r ∈ (f o).opened,
      ∃ t ∈ w.tasks, t.controller = o.owner ∧ t.closes s r) :
    Owned { w with sessions := w.sessions.modify s f } := by
  have hkeep {n i : ℕ} (h : ∃ o, w.sessions[n]? = some o ∧ o.owner = i) :
      ∃ o, (w.sessions.modify s f)[n]? = some o ∧ o.owner = i := by
    obtain ⟨o, ho, rfl⟩ := h
    refine ⟨_, getElem?_modify_of_some f ho, ?_⟩
    split
    · exact howner o
    · rfl
  refine ⟨fun i c n hc hs => hkeep (hp.session i c n hc hs), hp.sessionId, fun n o ho hopen => ?_,
    fun n o ho hclosed' r hr => ?_, hp.pending, hp.acting, fun t ht n hn => hkeep (hp.awaited t ht n hn)⟩
  · obtain ⟨o, ho', rfl⟩ := getElem?_modify_eq_some ho
    split at hopen
    · rw [if_pos ‹_›, howner]
      exact hp.current n o ho' (hclosed o hopen)
    · rw [if_neg ‹_›]
      exact hp.current n o ho' hopen
  · obtain ⟨o, ho', rfl⟩ := getElem?_modify_eq_some ho
    split at hr
    · rename_i hsn
      subst hsn
      rw [if_pos rfl] at hclosed' ⊢
      rw [howner]
      exact hcovered o ho' hclosed' r hr
    · rename_i hsn
      rw [if_neg hsn] at hclosed' ⊢
      exact hp.covered n o ho' hclosed' r hr

theorem Owned.append (hp : Owned w) (deviceId : String) (viewer : Option ℕ) :
    Owned { w with controllers := w.controllers ++ [({ deviceId } : ViewerController)], viewer } := by
  refine ⟨fun i c s hc hs => ?_, fun i c b hc hb => ?_, fun n s hs hopen => ?_, hp.covered,
    fun n b hb hended => ?_, fun t ht => ?_, hp.awaited⟩
  · rcases getElem?_concat_cases hc with hc | ⟨-, rfl⟩
    · exact hp.session i c s hc hs
    · cases hs
  · rcases getElem?_concat_cases hc with hc | ⟨-, rfl⟩
    · exact hp.sessionId i c b hc hb
    · cases hb
  · obtain ⟨c, hc, hn⟩ := hp.current n s hs hopen
    exact ⟨c, getElem?_concat_of_some _ hc, hn⟩
  · exact (hp.pending n b hb hended).imp_left fun ⟨c, hc, hn⟩ => ⟨c, getElem?_concat_of_some _ hc, hn⟩
  · rw [List.length_append]
    exact Nat.lt_add_right _ (hp.acting t ht)

theorem Owned.sinks (hp : Owned w) (inputTarget controlTarget viewer : Option ℕ) :
    Owned { w with inputTarget, controlTarget, viewer } :=
  ⟨hp.session, hp.sessionId, hp.current, hp.covered, hp.pending, hp.acting, hp.awaited⟩

theorem Owned.connect (hp : Owned w) (i : ℕ) : Owned (w.connect i) := by
  unfold World.connect
  cases hi : w.controllers[i]? with
  | none => exact hp
  | some c => exact hp.await_none (List.getElem?_eq_some_iff.1 hi).1 rfl

/-! #### `start` and `close` -/

theorem Resource.exists_next {p q : Resource} (h : p.rank < q.rank) :
    ∃ r, p.next = some r ∧ (r.rank < q.rank ∨ r = q) := by
  cases p <;> cases q <;> first | exact absurd h (by decide) | exact ⟨_, rfl, by decide⟩

theorem Await.session_of_closing {a : Await} {c : Closing} (h : a.closing = some c) :
    a.session = some c.session := by
  cases a with
  | disconnect call => exact congrArg (Option.map _) h
  | peerLeft call => exact congrArg (Option.map _) h
  | _ => cases h

theorem closingCall_live {s : ℕ} {o : WebRtcSession} (ho : w.sessions[s]? = some o) {r : Resource}
    (hr : r ∈ o.opened) : (w.closingCall s r).live = true := by
  simp only [World.closingCall, ho, Option.any_some, List.contains_eq_mem, decide_eq_true_eq]
  exact hr

theorem closeSession_call {s : ℕ} {o : WebRtcSession} (ho : w.sessions[s]? = some o) (hopen : o.closed = false) :
    (w.closeSession s).2 = some (w.closingCall s .subscription) := by
  simp only [World.closeSession, ho, Option.all_some, hopen, Bool.false_eq_true, if_false]

/-- `close` is called by one who then awaits it. -/
theorem Owned.closeSession (hp : Owned w) {s : ℕ} {o : WebRtcSession} (ho : w.sessions[s]? = some o)
    (hi : o.owner < w.controllers.length) {a : Await} (ha : a.session = a.closing.map (·.session))
    (hcloses : a.closing = (w.closeSession s).2) : Owned ((w.closeSession s).1.await o.owner a) := by
  have hawait : Owned (w.await o.owner a) := by
    refine hp.await hi fun n hn => ?_
    rw [ha, hcloses] at hn
    obtain ⟨c, hc, rfl⟩ := Option.map_eq_some_iff.1 hn
    unfold World.closeSession at hc
    split at hc
    · cases hc
    · cases hc
      exact ⟨o, ho, rfl⟩
  refine hawait.modifySession s (f := fun o => { o with closed := true }) (fun _ => rfl) nofun
    fun o' ho' _ r hr => ?_
  obtain rfl : o = o' := Option.some.inj (ho.symm.trans ho')
  cases hclosed : o.closed with
  | true => exact hawait.covered s o ho hclosed r hr
  | false =>
    have hcall := closeSession_call ho hclosed
    refine ⟨_, List.mem_append_right _ List.mem_cons_self, rfl, _, hcloses.trans hcall, rfl, ?_⟩
    cases r with
    | subscription => exact .inr ⟨rfl, closingCall_live ho hr⟩
    | _ => exact .inl (Nat.succ_pos _)

theorem Owned.startCall (hp : Owned w) {s : ℕ} {call : Opening} (hl : w.opensInTime s call = true) :
    Owned (w.startCall s call) := by
  refine hp.modifySession s (fun _ => rfl) (fun _ => id) fun o ho hclosed r hr => ?_
  rcases List.mem_append.1 hr with hr | hr
  · exact hp.covered s o ho hclosed r hr
  · have hclosed : o.closed = true := hclosed
    simp only [World.opensInTime, Option.mem_toList.1 hr, ho, Option.all_some, Option.any_some, hclosed,
      Bool.not_true, Bool.false_or, List.any_eq_true, Option.any_eq_true, Bool.and_eq_true, beq_iff_eq,
      decide_eq_true_eq] at hl
    obtain ⟨t, ht, c, hc, rfl, hlt⟩ := hl
    obtain ⟨o', ho', howner⟩ := hp.awaited t ht c.session (Await.session_of_closing hc)
    obtain rfl : o = o' := Option.some.inj (ho.symm.trans ho')
    exact ⟨t, ht, howner.symm, c, hc, rfl, .inl hlt⟩

theorem Owned.closeCall (hp : Owned w) (c : Closing) : Owned (w.closeCall c) := by
  refine hp.modifySession c.session (fun _ => rfl) (fun _ => id) fun o ho hclosed r hr =>
    hp.covered _ o ho hclosed r ?_
  split at hr
  · exact (List.mem_filter.1 hr).1
  · exact hr

theorem Owned.socketClosed (hp : Owned w) (s : ℕ) : Owned (w.socketClosed s) :=
  hp.modifySession s (fun _ => rfl) (fun _ => id) fun o ho hclosed r hr =>
    hp.covered _ o ho hclosed r (List.mem_filter.1 hr).1

theorem Owned.peerLeft (hp : Owned w) (s : ℕ) : Owned (w.peerLeft s) := by
  unfold World.peerLeft
  split
  · rename_i o call ho hcall
    cases hclosed : o.closed with
    | true => simp [World.closeSession, ho, hclosed] at hcall
    | false =>
      obtain ⟨c, hc, -⟩ := hp.current s o ho hclosed
      split
      · exact hp.closeSession ho (List.getElem?_eq_some_iff.1 hc).1 rfl hcall.symm
      · exact hp
  · exact hp

/-! #### `disconnect` -/

theorem Owned.disconnect (hp : Owned w) (i : ℕ) : Owned (w.disconnect i) := by
  unfold World.disconnect
  cases hi : w.controllers[i]? with
  | none => exact hp
  | some c =>
    have hlt := (List.getElem?_eq_some_iff.1 hi).1
    cases hs : c.session with
    | none =>
      have hclear := (hp.sinks none none w.viewer).modify i (f := fun c => { c with session := none })
        (fun c' hc' => .inr ⟨rfl, fun s _ hs' => by
          rw [Option.some.inj (hi.symm.trans hc')] at hs
          rw [hs] at hs'
          cases hs'⟩) (fun _ _ => .inl rfl)
      simp only [hs]
      exact hclear.await_none (a := .disconnect none) (by rwa [List.length_modify]) rfl
    | some s =>
      obtain ⟨o, ho, rfl⟩ := hp.session i c s hi hs
      have hclose := (hp.sinks none none w.viewer).closeSession (a := .disconnect (w.closeSession s).2) ho hlt
        rfl rfl
      simp only [hs]
      refine hclose.modify o.owner (f := fun c => { c with session := none })
        (fun c' hc' => .inr ⟨rfl, fun s' o' hs' ho' => ?_⟩) (fun _ _ => .inl rfl)
      obtain rfl : c = c' := Option.some.inj (hi.symm.trans hc')
      obtain rfl : s = s' := Option.some.inj (hs.symm.trans hs')
      obtain ⟨o', -, rfl⟩ := getElem?_modify_eq_some ho'
      rw [if_pos rfl]

theorem Owned.dispose (hp : Owned w) (i : ℕ) : Owned (w.dispose i) :=
  (hp.modify i (f := fun c => { c with disposed := true }) (fun _ _ => .inl rfl) fun _ _ => .inl rfl).disconnect i

theorem Owned.disposeViewer (hp : Owned w) (viewer : Option ℕ) : Owned (w.disposeViewer viewer) := by
  cases viewer with
  | none => exact hp
  | some i => exact hp.dispose i

theorem Owned.closed (hp : Owned w) {i : ℕ} (hi : i < w.controllers.length) : Owned (w.closed i) := by
  unfold World.closed
  cases hid : w.controllers[i]?.bind (·.sessionId) with
  | none => exact hp
  | some id =>
    refine (hp.await_none hi (a := .endSession id) rfl).modify i (f := fun c => { c with sessionId := none })
      (fun _ _ => .inl rfl) fun c hc => .inr ⟨rfl, fun b hb => ?_⟩
    rw [show w.controllers[i]? = some c from hc, Option.bind_some, hb] at hid
    cases hid
    exact List.mem_append_right _ List.mem_cons_self

theorem Owned.endSession (hp : Owned w) (id : ℕ) : Owned (w.endSession id) := by
  refine ⟨hp.session, fun i c b hc hb => ?_, hp.current, hp.covered, fun n b hb hended => ?_, hp.acting,
    hp.awaited⟩
  · obtain ⟨o, ho, rfl⟩ := hp.sessionId i c b hc hb
    exact ⟨_, getElem?_modify_of_some _ ho, by split <;> rfl⟩
  · obtain ⟨b', hb', rfl⟩ := getElem?_modify_eq_some hb
    split at hended
    · cases hended
    · rename_i hn
      rw [if_neg hn]
      exact hp.pending n b' hb' hended

/-! #### `connect` -/

/-- A controller without a session gets one. -/
theorem Owned.created (hp : Owned w) {i : ℕ} {c : ViewerController} (hi : w.controllers[i]? = some c)
    (hfree : c.session = none) (hfreeId : c.sessionId = none) : Owned (w.created i) := by
  refine ⟨fun j c' s hc hs => ?_, fun j c' b hc hb => ?_, fun n s hs hopen => ?_,
    fun n s hs hclosed r hr => ?_, fun n b hb hended => ?_, fun t ht => ?_, fun t ht s hs => ?_⟩
  · obtain ⟨c', hc', rfl⟩ := getElem?_modify_eq_some hc
    split at hs
    · rename_i hij
      cases hs
      exact ⟨_, List.getElem?_concat_length, hij⟩
    · obtain ⟨o, ho, hown⟩ := hp.session j c' s hc' hs
      exact ⟨o, getElem?_concat_of_some _ ho, hown⟩
  · obtain ⟨c', hc', rfl⟩ := getElem?_modify_eq_some hc
    split at hb
    · rename_i hij
      cases hb
      exact ⟨_, List.getElem?_concat_length, hij⟩
    · obtain ⟨o, ho, hown⟩ := hp.sessionId j c' b hc' hb
      exact ⟨o, getElem?_concat_of_some _ ho, hown⟩
  · rcases getElem?_concat_cases hs with hs | ⟨rfl, rfl⟩
    · obtain ⟨c', hc', hn⟩ := hp.current n s hs hopen
      refine ⟨_, getElem?_modify_of_some _ hc', ?_⟩
      split
      · rename_i hij
        rw [← hij, hi] at hc'
        cases hc'
        rw [hfree] at hn
        cases hn
      · exact hn
    · refine ⟨_, getElem?_modify_of_some _ hi, ?_⟩
      rw [if_pos rfl]
  · rcases getElem?_concat_cases hs with hs | ⟨rfl, rfl⟩
    · obtain ⟨t, ht, hcloses⟩ := hp.covered n s hs hclosed r hr
      exact ⟨t, List.mem_append_left _ ht, hcloses⟩
    · cases hclosed
  · rcases getElem?_concat_cases hb with hb | ⟨rfl, rfl⟩
    · refine (hp.pending n b hb hended).imp (fun ⟨c', hc', hn⟩ => ?_) (List.mem_append_left _)
      refine ⟨_, getElem?_modify_of_some _ hc', ?_⟩
      split
      · rename_i hij
        rw [← hij, hi] at hc'
        cases hc'
        rw [hfreeId] at hn
        cases hn
      · exact hn
    · refine .inl ⟨_, getElem?_modify_of_some _ hi, ?_⟩
      rw [if_pos rfl]
  · show t.controller < (w.controllers.modify i _).length
    rw [List.length_modify]
    rcases List.mem_append.1 ht with ht | ht
    · exact hp.acting t ht
    · rw [List.mem_singleton.1 ht]
      exact (List.getElem?_eq_some_iff.1 hi).1
  · rcases List.mem_append.1 ht with ht | ht
    · obtain ⟨o, ho, hown⟩ := hp.awaited t ht s hs
      exact ⟨o, getElem?_concat_of_some _ ho, hown⟩
    · rw [List.mem_singleton.1 ht] at hs ⊢
      cases hs
      exact ⟨_, List.getElem?_concat_length, rfl⟩

/-- A task is over that no session needs any more, here or on the backend. -/
theorem Owned.erase (hp : Owned w) {n : ℕ} {t : Task} (ht : w.tasks[n]? = some t)
    (hend : ∀ id, t.awaits = .endSession id → ∀ b, w.backend[id]? = some b → b.ended = true)
    (hclose : ∀ s o r, w.sessions[s]? = some o → r ∈ o.opened → t.closes s r →
      ∃ t' ∈ w.tasks.eraseIdx n, t'.controller = t.controller ∧ t'.closes s r) :
    Owned { w with tasks := w.tasks.eraseIdx n } := by
  refine ⟨hp.session, hp.sessionId, hp.current, fun m s hs hclosed r hr => ?_,
    fun m b hb hended => ?_, fun t ht => hp.acting t (List.mem_of_mem_eraseIdx ht),
    fun t ht => hp.awaited t (List.mem_of_mem_eraseIdx ht)⟩
  · obtain ⟨t', hmem, howner, hcloses⟩ := hp.covered m s hs hclosed r hr
    obtain ⟨j, hj⟩ := List.mem_iff_getElem?.1 hmem
    by_cases hjn : j = n
    · subst hjn
      obtain rfl : t = t' := Option.some.inj (ht.symm.trans hj)
      rw [← howner]
      exact hclose m s r hs hr hcloses
    · exact ⟨t', List.mem_eraseIdx_iff_getElem?.2 ⟨j, hjn, hj⟩, howner, hcloses⟩
  · refine (hp.pending m b hb hended).imp_right fun hmem => ?_
    obtain ⟨j, hj⟩ := List.mem_iff_getElem?.1 hmem
    refine List.mem_eraseIdx_iff_getElem?.2 ⟨j, ?_, hj⟩
    rintro rfl
    rw [ht] at hj
    cases hj
    rw [hend m rfl b hb] at hended
    cases hended

end Owned

/-! ### Who is torn down -/

/-- A sink is attached to a session whose controller is not disposed, if to any. -/
def World.Live (w : World) (target : Option ℕ) : Prop :=
  ∀ s, target = some s → ∃ o, w.sessions[s]? = some o ∧ w.isDisposed o.owner = false

/-- A disposed controller has no session, and one who is closing its session will end it. -/
structure Torn (w : World) : Prop where
  disposed : ∀ (i : ℕ) c, w.controllers[i]? = some c → c.disposed = true →
    c.session = none ∧ (c.sessionId ≠ none → ∃ call, ⟨i, .disconnect call⟩ ∈ w.tasks)
  input : w.Live w.inputTarget
  control : w.Live w.controlTarget

section Torn
variable {w : World}

theorem isDisposed_of_some {i : ℕ} {c : ViewerController} (h : w.controllers[i]? = some c) :
    w.isDisposed i = c.disposed := by
  rw [World.isDisposed, h]
  rfl

theorem isDisposed_modify {w' : World} {i : ℕ} {f : ViewerController → ViewerController}
    (hf : ∀ c, (f c).disposed = c.disposed) (hw : w'.controllers = w.controllers.modify i f) (j : ℕ) :
    w'.isDisposed j = w.isDisposed j := by
  rw [World.isDisposed, World.isDisposed, hw, List.getElem?_modify]
  cases w.controllers[j]? with
  | none => rfl
  | some c =>
    show (if i = j then f c else c).disposed = c.disposed
    split
    · exact hf c
    · rfl

theorem World.Live.mono {w' : World} {target : Option ℕ} (h : w.Live target)
    (hs : ∀ (s : ℕ) o, w.sessions[s]? = some o → ∃ o', w'.sessions[s]? = some o' ∧ o'.owner = o.owner)
    (hd : ∀ i, w.isDisposed i = false → w'.isDisposed i = false) : w'.Live target := by
  intro s htarget
  obtain ⟨o, ho, hlive⟩ := h s htarget
  obtain ⟨o', ho', hown⟩ := hs s o ho
  exact ⟨o', ho', by rw [hown]; exact hd _ hlive⟩

theorem Torn.await (hp : Torn w) (i : ℕ) (a : Await) : Torn (w.await i a) where
  disposed j c hc hd := (hp.disposed j c hc hd).imp_right fun h hid =>
    (h hid).imp fun _ => List.mem_append_left _
  input := hp.input
  control := hp.control

theorem Torn.connect (hp : Torn w) (i : ℕ) : Torn (w.connect i) := by
  unfold World.connect
  cases w.controllers[i]? with
  | none => exact hp
  | some c => exact hp.await i _

theorem Torn.append (hp : Torn w) (deviceId : String) (viewer : Option ℕ) :
    Torn { w with controllers := w.controllers ++ [({ deviceId } : ViewerController)], viewer } := by
  have hlive {target : Option ℕ} (h : w.Live target) :
      World.Live { w with controllers := w.controllers ++ [({ deviceId } : ViewerController)], viewer }
        target := by
    refine h.mono (fun s o ho => ⟨o, ho, rfl⟩) fun i hi => ?_
    rw [World.isDisposed]
    cases hc : (w.controllers ++ [({ deviceId } : ViewerController)])[i]? with
    | none => rfl
    | some c =>
      rcases getElem?_concat_cases hc with hc | ⟨-, rfl⟩
      · rwa [isDisposed_of_some hc] at hi
      · rfl
  refine ⟨fun i c hc hd => ?_, hlive hp.input, hlive hp.control⟩
  rcases getElem?_concat_cases hc with hc | ⟨-, rfl⟩
  · exact hp.disposed i c hc hd
  · cases hd

/-- A session changes, and keeps its owner. -/
theorem Torn.modifySession (hp : Torn w) (s : ℕ) {f : WebRtcSession → WebRtcSession}
    (howner : ∀ o, (f o).owner = o.owner) : Torn { w with sessions := w.sessions.modify s f } := by
  have hlive {target : Option ℕ} (h : w.Live target) :
      World.Live { w with sessions := w.sessions.modify s f } target := by
    refine h.mono (fun n o ho => ⟨_, getElem?_modify_of_some f ho, ?_⟩) fun _ hi => hi
    split
    · exact howner o
    · rfl
  exact ⟨hp.disposed, hlive hp.input, hlive hp.control⟩

theorem Torn.startCall (hp : Torn w) (s : ℕ) (call : Opening) : Torn (w.startCall s call) :=
  hp.modifySession s fun _ => rfl

theorem Torn.closeCall (hp : Torn w) (c : Closing) : Torn (w.closeCall c) :=
  hp.modifySession c.session fun _ => rfl

theorem Torn.socketClosed (hp : Torn w) (s : ℕ) : Torn (w.socketClosed s) := hp.modifySession s fun _ => rfl

theorem Torn.peerLeft (hp : Torn w) (s : ℕ) : Torn (w.peerLeft s) := by
  unfold World.peerLeft
  split
  · split
    · exact (hp.modifySession s (f := fun o => { o with closed := true }) fun _ => rfl).await _ _
    · exact hp
  · exact hp

theorem disconnect_eq {i : ℕ} {c : ViewerController} (hi : w.controllers[i]? = some c) :
    (w.disconnect i).controllers = w.controllers.modify i (fun c => { c with session := none }) ∧
      (∃ call, (w.disconnect i).tasks = w.tasks ++ [⟨i, .disconnect call⟩]) ∧
      (w.disconnect i).inputTarget = none ∧ (w.disconnect i).controlTarget = none := by
  unfold World.disconnect
  simp only [hi]
  cases c.session with
  | none => exact ⟨rfl, ⟨_, rfl⟩, rfl, rfl⟩
  | some s => exact ⟨rfl, ⟨_, rfl⟩, rfl, rfl⟩

/-- Whoever disconnects has no session, is about to end it, and leaves the sinks empty. -/
theorem torn_disconnect {i : ℕ} {c : ViewerController} (hi : w.controllers[i]? = some c)
    (hp : ∀ (j : ℕ) c, j ≠ i → w.controllers[j]? = some c → c.disposed = true →
      c.session = none ∧ (c.sessionId ≠ none → ∃ call, ⟨j, .disconnect call⟩ ∈ w.tasks)) :
    Torn (w.disconnect i) := by
  obtain ⟨hcontrollers, ⟨call, htasks⟩, hinput, hcontrol⟩ := disconnect_eq hi
  refine ⟨fun j c' hj hd => ?_, ?_, ?_⟩
  · rw [hcontrollers] at hj
    rw [htasks]
    obtain ⟨c'', hc'', rfl⟩ := getElem?_modify_eq_some hj
    split
    · rename_i hij
      exact ⟨rfl, fun _ => ⟨call, List.mem_append_right _ (by rw [hij]; exact List.mem_cons_self)⟩⟩
    · rename_i hij
      rw [if_neg hij] at hd
      exact (hp j c'' (Ne.symm hij) hc'' hd).imp_right fun h hid =>
        (h hid).imp fun _ => List.mem_append_left _
  · rw [hinput]
    intro s hs
    cases hs
  · rw [hcontrol]
    intro s hs
    cases hs

theorem Torn.disconnect (hp : Torn w) (i : ℕ) : Torn (w.disconnect i) := by
  cases hi : w.controllers[i]? with
  | none =>
    simp only [World.disconnect, hi]
    exact hp
  | some c => exact torn_disconnect hi fun j c _ => hp.disposed j c

theorem Torn.dispose (hp : Torn w) (i : ℕ) : Torn (w.dispose i) := by
  unfold World.dispose
  cases hi : w.controllers[i]? with
  | none =>
    have hsame : w.controllers.modify i (fun c => { c with disposed := true }) = w.controllers :=
      List.modify_eq_self (List.getElem?_eq_none_iff.1 hi)
    simp only [World.disconnect, hsame, hi]
    exact hp
  | some c =>
    refine torn_disconnect (getElem?_modify_of_some _ hi) fun j c' hj hc' hd => ?_
    obtain ⟨c'', hc'', rfl⟩ := getElem?_modify_eq_some hc'
    rw [if_neg (Ne.symm hj)] at hd ⊢
    exact hp.disposed j c'' hc'' hd

theorem Torn.disposeViewer (hp : Torn w) (viewer : Option ℕ) : Torn (w.disposeViewer viewer) := by
  cases viewer with
  | none => exact hp
  | some i => exact hp.dispose i

theorem Torn.endSession (hp : Torn w) (id : ℕ) : Torn (w.endSession id) := ⟨hp.disposed, hp.input, hp.control⟩

theorem Torn.closed (hp : Torn w) (i : ℕ) : Torn (w.closed i) := by
  unfold World.closed
  cases w.controllers[i]?.bind (·.sessionId) with
  | none => exact hp
  | some id =>
    have hlive {target : Option ℕ} (h : w.Live target) : ({ w with
        controllers := w.controllers.modify i fun c => { c with sessionId := none } } : World).Live target :=
      h.mono (fun n o ho => ⟨o, ho, rfl⟩) fun j hj => by
        rw [isDisposed_modify (w := w) (i := i) (f := fun c => { c with sessionId := none }) (fun _ => rfl) rfl]
        exact hj
    have htorn : Torn { w with
        controllers := w.controllers.modify i fun c => { c with sessionId := none } } := by
      refine ⟨fun j c hc hd => ?_, hlive hp.input, hlive hp.control⟩
      obtain ⟨c', hc', rfl⟩ := getElem?_modify_eq_some hc
      split
      · rename_i hij
        rw [if_pos hij] at hd
        exact ⟨(hp.disposed j c' hc' hd).1, fun hid => absurd rfl hid⟩
      · rename_i hij
        rw [if_neg hij] at hd
        exact hp.disposed j c' hc' hd
    exact htorn.await i _

theorem Torn.created (hp : Torn w) {i : ℕ} {c : ViewerController} (hi : w.controllers[i]? = some c)
    (hd : c.disposed = false) : Torn (w.created i) := by
  have hlive {target : Option ℕ} (h : w.Live target) : (w.created i).Live target :=
    h.mono (fun n o ho => ⟨o, getElem?_concat_of_some _ ho, rfl⟩) fun j hj => by
      rw [isDisposed_modify (w := w) (i := i) (f := fun c =>
        { c with sessionId := some w.backend.length, session := some w.sessions.length }) (fun _ => rfl) rfl]
      exact hj
  refine ⟨fun j c' hc hd' => ?_, hlive hp.input, hlive hp.control⟩
  obtain ⟨c', hc', rfl⟩ := getElem?_modify_eq_some hc
  split at hd'
  · rename_i hij
    rw [← hij, hi] at hc'
    cases hc'
    rw [hd] at hd'
    cases hd'
  · rename_i hij
    rw [if_neg hij]
    exact (hp.disposed j c' hc' hd').imp_right fun h hid => (h hid).imp fun _ => List.mem_append_left _

theorem Torn.attach (hp : Torn w) {s : ℕ} {o : WebRtcSession} (ho : w.sessions[s]? = some o)
    (hd : w.isDisposed o.owner = false) :
    Torn { w with inputTarget := some s, controlTarget := some s } := by
  have hlive : ({ w with inputTarget := some s, controlTarget := some s } : World).Live (some s) := by
    intro s' hs'
    cases hs'
    exact ⟨o, ho, hd⟩
  exact ⟨hp.disposed, hlive, hlive⟩

/-- A task is over that no disposed controller needs any more. -/
theorem Torn.erase (hp : Torn w) {n : ℕ} {t : Task} (ht : w.tasks[n]? = some t)
    (hend : ∀ call, t.awaits = .disconnect call → w.isDisposed t.controller = true →
      ({ w with tasks := w.tasks.eraseIdx n } : World).willEnd t.controller = true) :
    Torn { w with tasks := w.tasks.eraseIdx n } := by
  refine ⟨fun i c hc hd => (hp.disposed i c hc hd).imp_right fun h hid => ?_, hp.input, hp.control⟩
  obtain ⟨call, hmem⟩ := h hid
  obtain ⟨j, hj⟩ := List.mem_iff_getElem?.1 hmem
  by_cases hjn : j = n
  · subst hjn
    obtain rfl : t = _ := Option.some.inj (ht.symm.trans hj)
    have hwill := hend call rfl ((isDisposed_of_some (w := w) hc).trans hd)
    obtain ⟨id, hid⟩ := Option.ne_none_iff_exists'.1 hid
    have hsome : w.controllers[i]?.bind (·.sessionId) = some id := by
      rw [show w.controllers[i]? = some c from hc]
      exact hid
    simp only [World.willEnd, hsome, Option.isNone_some, Bool.false_or, List.any_eq_true, Bool.and_eq_true,
      beq_iff_eq] at hwill
    obtain ⟨⟨i', a⟩, hleft, rfl, hmatch⟩ := hwill
    cases a with
    | disconnect call' => exact ⟨call', hleft⟩
    | _ => cases hmatch
  · exact ⟨call, List.mem_eraseIdx_iff_getElem?.2 ⟨j, hjn, hj⟩⟩

end Torn

/-! ### The steps -/

/-- What holds after the steps of a run. -/
def Kept (w : World) : Prop := Owned w ∧ Torn w

section Step
variable {w : World}

theorem Kept.await (hp : Kept w) {i : ℕ} (hi : i < w.controllers.length) {a : Await}
    (ha : ∀ s, a.session = some s → ∃ o, w.sessions[s]? = some o ∧ o.owner = i) : Kept (w.await i a) :=
  ⟨hp.1.await hi ha, hp.2.await i a⟩

/-- `close` goes on to its next call, if there is one. -/
theorem Kept.closeCall (hp : Kept w) {i : ℕ} (hi : i < w.controllers.length) {c : Closing}
    (hc : ∃ o, w.sessions[c.session]? = some o ∧ o.owner = i) {a : Await}
    (ha : a.session = ((w.closeCall c).closeNext c).map (·.session)) : Kept ((w.closeCall c).await i a) := by
  have hclose : Kept (w.closeCall c) := ⟨hp.1.closeCall c, hp.2.closeCall c⟩
  refine hclose.await hi fun s hs => ?_
  obtain ⟨o, ho, rfl⟩ := hc
  rw [ha] at hs
  simp only [World.closeNext, Option.map_map, Option.map_eq_some_iff] at hs
  obtain ⟨r, -, rfl⟩ := hs
  refine ⟨_, getElem?_modify_of_some _ ho, ?_⟩
  split <;> rfl

/-- What awaited has gone on, and its task is still counted. -/
theorem Kept.resume (hp : Kept w) {t : Task} (ht : t ∈ w.tasks) (pairing : Option String)
    (hl : w.completesInTime t = true) : Kept (w.resume t.controller pairing t.awaits) := by
  obtain ⟨i, a⟩ := t
  have hi : i < w.controllers.length := hp.1.acting _ ht
  cases a with
  | resolvePairing deviceId =>
    cases pairing with
    | none => exact hp
    | some id => exact hp.await hi nofun
  | createSession pairingId =>
    have hc := List.getElem?_eq_getElem hi
    simp only [World.completesInTime, hc, Option.all_some, Bool.and_eq_true, Bool.not_eq_true',
      Option.isNone_iff_eq_none] at hl
    obtain ⟨⟨hd, hs⟩, hid⟩ := hl
    exact ⟨hp.1.created hc hs hid, hp.2.created hc hd⟩
  | start s call =>
    obtain ⟨o, ho, howner⟩ := hp.1.awaited _ ht s rfl
    cases call with
    | some call =>
      have hstart : Kept (w.startCall s call) := ⟨hp.1.startCall hl, hp.2.startCall s call⟩
      refine hstart.await hi fun s' hs' => ?_
      cases hs'
      refine ⟨_, getElem?_modify_of_some _ ho, ?_⟩
      rw [if_pos rfl]
      exact howner
    | none =>
      simp only [World.completesInTime, Bool.and_eq_true, Bool.not_eq_true'] at hl
      refine ⟨hp.1.sinks (some s) (some s) w.viewer, hp.2.attach ho ?_⟩
      rw [howner]
      exact hl.1
  | disconnect call =>
    cases call with
    | none => exact ⟨hp.1.closed hi, hp.2.closed i⟩
    | some c => exact hp.closeCall hi (hp.1.awaited _ ht _ rfl) rfl
  | peerLeft c =>
    have hclose (a : Await) := hp.closeCall (a := a) hi (hp.1.awaited _ ht _ rfl)
    simp only [World.resume]
    cases hnext : (w.closeCall c).closeNext c with
    | none => exact ⟨hp.1.closeCall c, hp.2.closeCall c⟩
    | some call => exact hclose (.peerLeft call) (by rw [hnext]; rfl)
  | endSession id => exact ⟨hp.1.endSession id, hp.2.endSession id⟩

/-- What goes on looks at no task, and only adds some. -/
theorem resume_adds (w : World) (i : ℕ) (pairing : Option String) (a : Await) : ∃ added : List Task, ∀ tasks,
    ({ w with tasks } : World).resume i pairing a = { w.resume i pairing a with tasks := tasks ++ added } := by
  cases a with
  | resolvePairing deviceId =>
    cases pairing with
    | none => exact ⟨[], fun tasks => by rw [List.append_nil]; rfl⟩
    | some id => exact ⟨_, fun _ => rfl⟩
  | createSession pairingId => exact ⟨[⟨i, .start w.sessions.length (some .initializeRenderer)⟩], fun _ => rfl⟩
  | start s call =>
    cases call with
    | some call => exact ⟨_, fun _ => rfl⟩
    | none => exact ⟨[], fun tasks => by rw [List.append_nil]; rfl⟩
  | disconnect call =>
    cases call with
    | some c => exact ⟨[⟨i, .disconnect ((w.closeCall c).closeNext c)⟩], fun _ => rfl⟩
    | none =>
      simp only [World.resume, World.closed]
      cases w.controllers[i]?.bind (·.sessionId) with
      | none => exact ⟨[], fun tasks => by rw [List.append_nil]⟩
      | some id => exact ⟨_, fun _ => rfl⟩
  | peerLeft c =>
    have hnext (tasks : List Task) : (({ w with tasks } : World).closeCall c).closeNext c =
      (w.closeCall c).closeNext c := rfl
    simp only [World.resume, hnext]
    cases (w.closeCall c).closeNext c with
    | none => exact ⟨[], fun tasks => by rw [List.append_nil]; rfl⟩
    | some call => exact ⟨_, fun _ => rfl⟩
  | endSession id => exact ⟨[], fun tasks => by rw [List.append_nil]; rfl⟩

theorem resume_erase (w : World) (i : ℕ) (pairing : Option String) (a : Await) {n : ℕ} (hn : n < w.tasks.length) :
    ({ w with tasks := w.tasks.eraseIdx n } : World).resume i pairing a =
      { w.resume i pairing a with tasks := (w.resume i pairing a).tasks.eraseIdx n } := by
  obtain ⟨added, hadded⟩ := resume_adds w i pairing a
  have htasks : (w.resume i pairing a).tasks = w.tasks ++ added := congrArg (·.tasks) (hadded w.tasks)
  rw [hadded, htasks, List.eraseIdx_append_of_lt_length hn]

/-- The next call of `close` takes over what the completed one had yet to come to. -/
theorem closes_next {c : Closing} {i s : ℕ} {a : Await} (ha : a.closing = some c) {o : WebRtcSession}
    (ho : (w.closeCall c).sessions[s]? = some o) {r : Resource} (hr : r ∈ o.opened)
    (hcloses : Task.closes ⟨i, a⟩ s r) : ∃ call, (w.closeCall c).closeNext c = some call ∧
      ∀ a' : Await, a'.closing = some call → Task.closes ⟨i, a'⟩ s r := by
  obtain ⟨c', hc', rfl, h⟩ := hcloses
  obtain rfl : c = c' := Option.some.inj (ha.symm.trans hc')
  have hlt : c.resource.rank < r.rank := by
    rcases h with h | ⟨rfl, hlive⟩
    · exact h
    · obtain ⟨o', -, rfl⟩ := getElem?_modify_eq_some ho
      rw [if_pos rfl, if_pos hlive] at hr
      simp at hr
  obtain ⟨next, hnext, h⟩ := Resource.exists_next hlt
  have hcall : (w.closeCall c).closeNext c = some ((w.closeCall c).closingCall c.session next) := by
    rw [World.closeNext, hnext, Option.map_some]
  refine ⟨_, hcall, fun a' ha' => ⟨_, ha', rfl, ?_⟩⟩
  rcases h with h | rfl
  · exact .inl h
  · exact .inr ⟨rfl, closingCall_live ho hr⟩

theorem resume_tasks (w : World) (i : ℕ) (pairing : Option String) (a : Await) {n : ℕ} {t : Task}
    (ht : w.tasks[n]? = some t) : (w.resume i pairing a).tasks[n]? = some t := by
  obtain ⟨added, hadded⟩ := resume_adds w i pairing a
  have htasks : (w.resume i pairing a).tasks = w.tasks ++ added := congrArg (·.tasks) (hadded w.tasks)
  rw [htasks, List.getElem?_append_left (List.getElem?_eq_some_iff.1 ht).1]
  exact ht

/-- A task is over that neither closes nor ends a session, nor is about to. -/
theorem Kept.erase (hp : Kept w) {n : ℕ} {t : Task} (ht : w.tasks[n]? = some t)
    (hclose : t.awaits.closing = none) (hdisconnect : ∀ call, t.awaits ≠ .disconnect call)
    (hend : ∀ id, t.awaits ≠ .endSession id) : Kept { w with tasks := w.tasks.eraseIdx n } := by
  refine ⟨hp.1.erase ht (fun id hid => absurd hid (hend id)) fun s o r _ _ hcloses => ?_,
    hp.2.erase ht fun call hcall => absurd hcall (hdisconnect call)⟩
  obtain ⟨c, hc, -⟩ := hcloses
  rw [hclose] at hc
  cases hc

theorem closed_sessionId (w : World) (i : ℕ) : (w.closed i).controllers[i]?.bind (·.sessionId) = none := by
  unfold World.closed
  cases hid : w.controllers[i]?.bind (·.sessionId) with
  | none => exact hid
  | some id =>
    simp only [World.await, List.getElem?_modify_eq]
    cases w.controllers[i]? <;> rfl

theorem mem_await_eraseIdx (w : World) (i : ℕ) (a : Await) {n : ℕ} (hn : n < w.tasks.length) :
    ⟨i, a⟩ ∈ (w.await i a).tasks.eraseIdx n := by
  simp only [World.await, List.eraseIdx_append_of_lt_length hn]
  exact List.mem_append_right _ List.mem_cons_self

/-- What awaited has gone on, and its task is over. -/
theorem Kept.completes (hp : Kept w) (n : ℕ) (pairing : Option String)
    (hl : w.timely (.completes n pairing) = true) : Kept (w.step (.completes n pairing)) := by
  simp only [World.step]
  cases ht : w.tasks[n]? with
  | none => exact hp
  | some t =>
    have hlt := (List.getElem?_eq_some_iff.1 ht).1
    simp only [World.timely, ht, Option.all_some] at hl
    have hresume := hp.resume (List.mem_of_getElem? ht) pairing hl
    have ht' := resume_tasks w t.controller pairing t.awaits ht
    show Kept (({ w with tasks := w.tasks.eraseIdx n } : World).resume t.controller pairing t.awaits)
    rw [resume_erase w _ _ _ hlt]
    obtain ⟨i, a⟩ := t
    cases a with
    | resolvePairing | createSession | start => exact hresume.erase ht' rfl nofun nofun
    | disconnect call =>
      cases call with
      | none =>
        refine ⟨hresume.1.erase ht' nofun fun s o r _ _ hcloses => ?_, hresume.2.erase ht' fun _ _ _ => ?_⟩
        · obtain ⟨c, hc, -⟩ := hcloses
          cases hc
        · have hnone := closed_sessionId w i
          simp only [World.willEnd, World.resume, hnone]
          rfl
      | some c =>
        have hlast := mem_await_eraseIdx (w.closeCall c) i (.disconnect ((w.closeCall c).closeNext c)) hlt
        refine ⟨hresume.1.erase ht' nofun fun s o r ho hr hcloses => ?_, hresume.2.erase ht' fun _ _ _ => ?_⟩
        · obtain ⟨call, hnext, hcall⟩ := closes_next rfl ho hr hcloses
          exact ⟨_, hlast, rfl, hcall _ hnext⟩
        · refine Bool.or_eq_true_iff.2 (.inr (List.any_eq_true.2 ⟨_, hlast, ?_⟩))
          simp
    | peerLeft c =>
      refine ⟨hresume.1.erase ht' nofun fun s o r ho hr hcloses => ?_, hresume.2.erase ht' nofun⟩
      have ho : (w.closeCall c).sessions[s]? = some o := by
        simp only [World.resume] at ho
        split at ho <;> exact ho
      obtain ⟨call, hnext, hcall⟩ := closes_next rfl ho hr hcloses
      simp only [World.resume, hnext]
      exact ⟨_, mem_await_eraseIdx (w.closeCall c) i (.peerLeft call) hlt, rfl, hcall _ rfl⟩
    | endSession id =>
      refine ⟨hresume.1.erase ht' (fun id' hid b hb => ?_) fun s o r _ _ hcloses => ?_,
        hresume.2.erase ht' nofun⟩
      · cases hid
        obtain ⟨b', -, rfl⟩ := getElem?_modify_eq_some hb
        rw [if_pos rfl]
      · obtain ⟨c, hc, -⟩ := hcloses
        cases hc

/-- A call has failed, and left nothing behind. -/
theorem Kept.throws (hp : Kept w) (n : ℕ) (hl : w.timely (.throws n) = true) :
    Kept (w.step (.throws n)) := by
  simp only [World.step]
  cases ht : w.tasks[n]? with
  | none => exact hp
  | some t =>
    simp only [World.timely, ht, Option.all_some] at hl
    cases hthrows : t.awaits.throws with
    | false => simpa [hthrows] using hp
    | true =>
      simp only [hthrows, Bool.not_true, Bool.false_or] at hl
      simp only [hthrows, if_true]
      have hclosed {c : Closing} (hc : t.awaits.closing = some c)
          (hempty : w.sessions[c.session]?.all (·.opened.isEmpty) = true) (s : ℕ) (o : WebRtcSession) (r : Resource)
          (ho : w.sessions[s]? = some o) (hr : r ∈ o.opened) (hcloses : t.closes s r) : False := by
        obtain ⟨c', hc', rfl, -⟩ := hcloses
        obtain rfl : c = c' := Option.some.inj (hc.symm.trans hc')
        rw [ho, Option.all_some, List.isEmpty_iff] at hempty
        rw [hempty] at hr
        cases hr
      obtain ⟨i, a⟩ := t
      cases a with
      | resolvePairing | createSession | start => exact hp.erase ht rfl nofun nofun
      | disconnect call =>
        cases call with
        | none => cases hthrows
        | some c =>
          obtain ⟨hempty, hwill⟩ := Bool.and_eq_true_iff.1 hl
          refine ⟨hp.1.erase ht nofun fun s o r ho hr hcloses =>
            (hclosed rfl hempty s o r ho hr hcloses).elim, hp.2.erase ht fun _ _ hd => ?_⟩
          rcases Bool.or_eq_true_iff.1 hwill with hlive | hwill
          · have hlive : (!w.isDisposed i) = true := hlive
            rw [hd] at hlive
            cases hlive
          · exact hwill
      | peerLeft c =>
        exact ⟨hp.1.erase ht nofun fun s o r ho hr hcloses =>
          (hclosed rfl hl s o r ho hr hcloses).elim, hp.2.erase ht nofun⟩
      | endSession id => cases hl

theorem Kept.step (hp : Kept w) (l : Step) (hl : w.timely l = true) : Kept (w.step l) := by
  cases l with
  | opens deviceId =>
    exact ⟨(hp.1.append deviceId _).connect _, (hp.2.append deviceId _).connect _⟩
  | reconnect deviceId =>
    exact ⟨((hp.1.append deviceId _).disposeViewer _).connect _,
      ((hp.2.append deviceId _).disposeViewer _).connect _⟩
  | leaves =>
    have howned := hp.1.disposeViewer w.viewer
    have htorn := hp.2.disposeViewer w.viewer
    exact ⟨howned.sinks _ _ none, htorn.disposed, htorn.input, htorn.control⟩
  | connect i => exact ⟨hp.1.connect i, hp.2.connect i⟩
  | disconnect i => exact ⟨hp.1.disconnect i, hp.2.disconnect i⟩
  | dispose i => exact ⟨hp.1.dispose i, hp.2.dispose i⟩
  | peerLeft s => exact ⟨hp.1.peerLeft s, hp.2.peerLeft s⟩
  | socketClosed s => exact ⟨hp.1.socketClosed s, hp.2.socketClosed s⟩
  | completes n pairing => exact hp.completes n pairing hl
  | throws n => exact hp.throws n hl

theorem Kept.final (hp : Kept w) : Final w := by
  have hsome {i : ℕ} (hd : w.isDisposed i = true) : ∃ c, w.controllers[i]? = some c ∧ c.disposed = true := by
    cases hc : w.controllers[i]? with
    | none => simp [World.isDisposed, hc] at hd
    | some c => exact ⟨c, rfl, (isDisposed_of_some hc).symm.trans hd⟩
  have hsink {target : Option ℕ} (h : w.Live target) {i : ℕ} (hi : w.ownerOf target = some i) :
      w.isDisposed i = false := by
    cases target with
    | none => cases hi
    | some s =>
      obtain ⟨o, ho, hd⟩ := h s rfl
      simp only [World.ownerOf, Option.bind_some, ho, Option.map_some, Option.some.injEq] at hi
      rwa [← hi]
  refine ⟨fun i hd hidle s hs hown => ?_, fun i hd hidle b hb hown => ?_,
    fun i => hsink hp.2.input, fun i => hsink hp.2.control⟩
  · obtain ⟨c, hc, hdc⟩ := hsome hd
    obtain ⟨n, hn⟩ := List.mem_iff_getElem?.1 hs
    have hclosed : s.closed = true := by
      refine Bool.eq_true_of_not_eq_false fun hopen => ?_
      obtain ⟨c', hc', hheld⟩ := hp.1.current n s hn hopen
      rw [hown, hc] at hc'
      cases hc'
      rw [(hp.2.disposed i c hc hdc).1] at hheld
      cases hheld
    refine ⟨hclosed, List.eq_nil_iff_forall_not_mem.2 fun resource hresource => ?_⟩
    obtain ⟨t, ht, hcontroller, -⟩ := hp.1.covered n s hn hclosed resource hresource
    exact hidle t ht (hcontroller.trans hown)
  · obtain ⟨c, hc, hdc⟩ := hsome hd
    obtain ⟨n, hn⟩ := List.mem_iff_getElem?.1 hb
    refine Bool.eq_true_of_not_eq_false fun hended => ?_
    rcases hp.1.pending n b hn hended with ⟨c', hc', hheld⟩ | hmem
    · rw [hown, hc] at hc'
      cases hc'
      obtain ⟨call, hdisconnect⟩ := (hp.2.disposed i c hc hdc).2 (by rw [hheld]; nofun)
      exact hidle _ hdisconnect rfl
    · exact hidle _ hmem hown

/-! ### Who takes the sinks -/

end Step

/-! ### The result -/

/-- The `n`-th awaited call completes, and the ones after it in its place. -/
def complete (n k : ℕ) : List Step := List.replicate k (.completes n (some "pairing"))

end DeskSync.Viewer.Teardown
