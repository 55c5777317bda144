import DeskSync.Session.Trickle
import DeskSync.Signaling.Envelopes

/-!
# The negotiation, to its end

`Session.Trickle` follows the candidates of the phone to the agent. This is the way back as well: the answer and the
candidates of the agent, through the hub to the viewer session, and what the viewer session calls on its peer
connection. What the viewer session has yet to handle is one queue, whatever part of the way it has made.

After both have joined, there is one message or one call in progress on which all else waits: `Stage` says which.
`negotiation_completes`: the phone's peer connection is called as `script` has it, step by step, and when nothing is
on its way any more, the script has been played to its end, with the offer that the agent was given, the answer it
gave to it, and all candidates of the agent in order; and the agent has all that the phone has sent.
-/

namespace DeskSync.Session.Connect

open Trickle (Candidate presence Delivers)
open Agent (deserializePayload)
open Signaling (Role mobile_payload)
open Mobile (SignalPayload)
open Viewer (Native Await RTCIceCandidate candidateOf)

/-! ### What is seen of a run -/

inductive Sight
  /-- The phone sends, or the agent acts. -/
  | signal (e : Trickle.Event)
  | viewer (e : Viewer.Event)
  /-- The agent sends its answer: the offer, and the answer. -/
  | answered (p : String × String)
  /-- The agent sends a candidate. -/
  | trickled (c : Candidate)

section Observe
variable (rt : Mobile.Runtime) (w : Trickle.World)

/-- What the viewer session does in a step. -/
def viewed : Trickle.Step → List Viewer.Event
  | .viewerReceives =>
    match w.queue .controller with
    | [] => []
    | j :: _ =>
      match Trickle.World.decode rt j with
      | none => []
      | some payload => (w.viewer.step (.deliver payload)).2
  | .viewer s =>
    match s with
    | .deliver _ | .close => []
    | s => (w.viewer.step s).2
  | _ => []

/-- The offer the agent reads in a step, and its answer. -/
def answered : Trickle.Step → List (String × String)
  | .agentReceives answer =>
    match w.queue .agent with
    | [] => []
    | j :: _ =>
      match deserializePayload j with
      | none => []
      | some payload =>
        match (w.agent.onSignal payload).1 with
        | .createAnswer offer => [(offer, answer)]
        | _ => []
  | _ => []

def trickled : Trickle.Step → List Candidate
  | .agentTrickles candidate sdpMLineIndex =>
    if w.joined .agent then [(candidate, sdpMLineIndex)] else []
  | _ => []

/-- A step, and all that is seen of it. -/
def observe (s : Trickle.Step) : Trickle.World × List Sight :=
  ((w.step rt s).1, (w.step rt s).2.map .signal ++ (viewed rt w s).map .viewer ++
    (answered w s).map .answered ++ (trickled w s).map .trickled)

def run (l : List Trickle.Step) : Trickle.World × List Sight :=
  Run.exec (Run.record (observe rt)) ({}, []) l

end Observe

def Sight.signal? : Sight → Option Trickle.Event
  | .signal e => some e
  | _ => none

def Sight.viewer? : Sight → Option Viewer.Event
  | .viewer e => some e
  | _ => none

def Sight.answered? : Sight → Option (String × String)
  | .answered p => some p
  | _ => none

def Sight.trickled? : Sight → Option Candidate
  | .trickled c => some c
  | _ => none

/-- What the phone sends and the agent does. -/
def signals (h : List Sight) : List Trickle.Event := h.filterMap Sight.signal?

/-- What the viewer session does. -/
def views (h : List Sight) : List Viewer.Event := h.filterMap Sight.viewer?

def called : Viewer.Event → Option Native
  | .calls n => some n
  | _ => none

/-- The calls on the phone's peer connection, in order. -/
def calls (h : List Sight) : List Native := (views h).filterMap called

/-- The candidates passed on to the peer connection. -/
def passed (h : List Sight) : List RTCIceCandidate := (views h).filterMap Viewer.added

/-- The offers the agent was given, each with its answer. -/
def answers (h : List Sight) : List (String × String) := h.filterMap Sight.answered?

/-- A candidate of the agent, as the phone hands it to its peer connection. -/
def native (c : Candidate) : RTCIceCandidate := Viewer.nativeCandidate c.1 (c.2.toNat : ℤ) none

/-- The candidates the agent has sent. -/
def candidates (h : List Sight) : List RTCIceCandidate := (h.filterMap Sight.trickled?).map native

/-- What the phone's peer connection is to be called. -/
def script (offer answer : String) (cs : List RTCIceCandidate) : List Native :=
  [.createOffer, .setLocalDescription offer, .setRemoteDescription answer] ++ cs.map .addCandidate

/-! ### The condition, and the end -/

/-- The calls of the offer and of the answer do not throw, and no buffered candidate is left behind. The peer
connection of the agent reports candidates only once the phone is there. -/
def smooth (w : Trickle.World) : Trickle.Step → Bool
  | .viewer .throws =>
    match w.viewer.running with
    | some .createOffer | some (.setLocalDescription _) | some (.setRemoteDescription _) => false
    | some (.flush _ next len) => next = len
    | _ => true
  | .agentTrickles _ _ => w.joined .controller && w.joined .agent
  | _ => true

/-- Both have joined, nothing is on its way, and the viewer session waits. -/
structure AtRest (w : Trickle.World) : Prop where
  joined : ∀ role, w.joined role = true
  sockets : ∀ role, w.socket role = []
  queues : ∀ role, w.queue role = []
  idle : w.viewer.Idle

/-- The script has been played, and the agent has what the phone has sent. -/
structure Connected (h : List Sight) (offer answer : String) : Prop where
  calls : calls h = script offer answer (candidates h)
  answers : answers h = [(offer, answer)]
  delivered : (signals h).filterMap Trickle.sent = (signals h).filterMap Trickle.read

/-! ### What is on its way -/

/-- What is on its way from the agent to the phone, in order. -/
def back (w : Trickle.World) : List Json := w.queue .controller ++ w.socket .agent

/-- The same, as the phone reads it. -/
def incoming (rt : Mobile.Runtime) (w : Trickle.World) : List SignalPayload :=
  (back w).filterMap (Trickle.World.decode rt)

/-- Not a candidate. -/
def isNews (p : SignalPayload) : Bool := (candidateOf p).isNone

/-- The offer in a message. -/
def offer? : Trickle.Message → Option String
  | .offer sdp => some sdp
  | .candidate _ => none

/-- An offer, as the agent reads it. -/
def offerIn (j : Json) : Option String := (Trickle.message j).bind offer?

/-- The offers on their way to the agent. -/
def offers (w : Trickle.World) : List String := w.pipe.filterMap offerIn

/-- The message or the call in progress on which all else waits. -/
inductive Stage
  /-- Not both have joined. -/
  | apart
  | announced
  | creating
  | settingLocal (offer : String)
  | offered (offer : String)
  | answered (offer answer : String)
  | applying (offer answer : String)
  /-- Only candidates are left. -/
  | adding (offer answer : String)

namespace Stage

/-- The call the viewer session awaits. -/
def Runs : Stage → Option Await → Prop
  | creating, a => a = some .createOffer
  | settingLocal offer, a => a = some (.setLocalDescription offer)
  | applying _ answer, a => a = some (.setRemoteDescription answer)
  | adding _ _, a => a = none ∨ (∃ c, a = some (.addCandidate c)) ∨ ∃ c next len, a = some (.flush c next len)
  | _, a => a = none

/-- What the viewer session has yet to handle beside candidates. -/
def news : Stage → List SignalPayload
  | announced => [.peerJoined Role.agent.name]
  | answered _ answer => [.answer answer]
  | _ => []

def offers : Stage → List String
  | offered offer => [offer]
  | _ => []

/-- The calls made so far, without the candidates. -/
def opening : Stage → List Native
  | apart | announced => []
  | creating => [.createOffer]
  | settingLocal offer | offered offer | answered offer _ => [.createOffer, .setLocalDescription offer]
  | applying offer answer | adding offer answer =>
    [.createOffer, .setLocalDescription offer, .setRemoteDescription answer]

def answers : Stage → List (String × String)
  | answered offer answer | applying offer answer | adding offer answer => [(offer, answer)]
  | _ => []

def offerSent : Stage → Bool
  | apart | announced => false
  | _ => true

def remote : Stage → Bool
  | adding _ _ => true
  | _ => false

end Stage

/-- What a stage says about the world and what has been seen. -/
structure Holds (rt : Mobile.Runtime) (st : Stage) (w : Trickle.World) (h : List Sight) : Prop where
  joined : (∀ role, w.joined role = true) ↔ st ≠ .apart
  silent : st = .apart → w.socket .agent = []
  running : st.Runs w.viewer.running
  news : (w.viewer.chain ++ incoming rt w).filter isNews = st.news
  offers : offers w = st.offers
  calls : calls h = st.opening ++ (passed h).map .addCandidate
  answers : answers h = st.answers
  offerSent : w.viewer.session.offerSent = st.offerSent
  remote : w.viewer.session.remoteDescriptionSet = st.remote

structure Inv (rt : Mobile.Runtime) (w : Trickle.World) (h : List Sight) : Prop where
  delivers : Delivers (w, signals h)
  kept : Viewer.Kept (w.viewer, views h)
  opened : w.viewer.session.closed = false
  received : candidates h = (views h).filterMap Viewer.received ++ (incoming rt w).filterMap candidateOf
  stage : ∃ st, Holds rt st w h

/-- The step keeps it. -/
def Keeps (rt : Mobile.Runtime) (w : Trickle.World) (h : List Sight) (s : Trickle.Step) : Prop :=
  Inv rt (w.step rt s).1 (h ++ (observe rt w s).2)

section Documents
variable {rt : Mobile.Runtime}

theorem decode_presence (role : Role) : Trickle.World.decode rt (presence role) = some (.peerJoined role.name) := by
  cases role <;> rfl

theorem decode_answer (answer : String) :
    Trickle.World.decode rt (Agent.SignalPayload.answer answer).toJson = some (.answer answer) := rfl

theorem decode_candidate (hint : ∀ n < 2 ^ 63, rt.toInt (.int false n) = some (n : ℤ)) (c : Candidate) :
    Trickle.World.decode rt (Agent.SignalPayload.iceCandidate c.1 c.2).toJson =
      some (.iceCandidate c.1 (c.2.toNat : ℤ) none) :=
  mobile_payload hint (.iceCandidate c.1 c.2 none) rfl

theorem offerIn_offer (sdp : String) : offerIn (Mobile.SignalPayload.offer sdp).toJson = some sdp := by
  rw [offerIn, Trickle.message, Trickle.deserialize_offer]
  rfl

theorem offerIn_candidate (line : String) (idx : Option UInt16) (mid : Option String) :
    offerIn (Trickle.candidatePayload line idx mid).toJson = none := by
  rw [offerIn, Trickle.message, Trickle.deserialize_candidate]
  rfl

theorem offerIn_presence (role : Role) : offerIn (presence role) = none := by
  rw [offerIn, Trickle.message, Trickle.deserialize_presence]
  rfl

end Documents

/-! ### What a step adds to what is seen -/

section Observed
variable (rt : Mobile.Runtime) (w : Trickle.World) (s : Trickle.Step) (h h' : List Sight)

@[simp] theorem signals_append : signals (h ++ h') = signals h ++ signals h' := List.filterMap_append

@[simp] theorem views_append : views (h ++ h') = views h ++ views h' := List.filterMap_append

@[simp] theorem answers_append : answers (h ++ h') = answers h ++ answers h' := List.filterMap_append

@[simp] theorem calls_append : calls (h ++ h') = calls h ++ calls h' := by
  simp [calls]

@[simp] theorem passed_append : passed (h ++ h') = passed h ++ passed h' := by
  simp [passed]

@[simp] theorem candidates_append : candidates (h ++ h') = candidates h ++ candidates h' := by
  simp [candidates]

@[simp] theorem signals_observe : signals (observe rt w s).2 = (w.step rt s).2 := by
  simp [observe, signals, Function.comp_def, Sight.signal?]

@[simp] theorem views_observe : views (observe rt w s).2 = viewed rt w s := by
  simp [observe, views, Function.comp_def, Sight.viewer?]

@[simp] theorem answers_observe : answers (observe rt w s).2 = answered w s := by
  simp [observe, answers, Function.comp_def, Sight.answered?]

@[simp] theorem candidates_observe : candidates (observe rt w s).2 = (trickled w s).map native := by
  simp [observe, candidates, Function.comp_def, Sight.trickled?]

@[simp] theorem calls_observe : calls (observe rt w s).2 = (viewed rt w s).filterMap called := by
  rw [calls, views_observe]

@[simp] theorem passed_observe : passed (observe rt w s).2 = (viewed rt w s).filterMap Viewer.added := by
  rw [passed, views_observe]

end Observed

section Steps
variable {rt : Mobile.Runtime} {w : Trickle.World} {h : List Sight}

theorem viewer_agentReceives (w : Trickle.World) (answer : String) :
    (w.agentReceives answer).1.viewer = w.viewer := by
  unfold Trickle.World.agentReceives
  cases w.queue .agent with
  | nil => rfl
  | cons j rest =>
    dsimp only
    cases deserializePayload j with
    | none => rfl
    | some payload =>
      dsimp only
      split <;> rfl

/-- The phone takes the next message of its queue, which is lost if it cannot be read. -/
theorem viewerReceives_cons (rt : Mobile.Runtime) {j : Json} {rest : List Json}
    (hqueue : w.queue .controller = j :: rest) :
    (Trickle.World.decode rt j = none ∧ viewed rt w .viewerReceives = [] ∧
      w.viewerReceives rt = { w with queue := Function.update w.queue .controller rest }) ∨
    ∃ p, Trickle.World.decode rt j = some p ∧
      viewed rt w .viewerReceives = (w.viewer.step (.deliver p)).2 ∧
      w.viewerReceives rt = { w with
        queue := Function.update w.queue .controller rest
        viewer := (w.viewer.step (.deliver p)).1 } := by
  unfold Trickle.World.viewerReceives viewed
  rw [hqueue]
  dsimp only
  cases hdecode : Trickle.World.decode rt j with
  | none => exact .inl ⟨rfl, rfl, rfl⟩
  | some p => exact .inr ⟨p, rfl, rfl, rfl⟩

theorem viewerReceives_nil (rt : Mobile.Runtime) (hqueue : w.queue .controller = []) :
    w.viewerReceives rt = w ∧ viewed rt w .viewerReceives = [] := by
  unfold Trickle.World.viewerReceives viewed
  rw [hqueue]
  exact ⟨rfl, rfl⟩

/-- What the viewer session goes through is a run of its own. -/
theorem viewer_step (rt : Mobile.Runtime) (w : Trickle.World) (s : Trickle.Step) :
    ((w.step rt s).1.viewer = w.viewer ∧ viewed rt w s = []) ∨
    ∃ vs, w.viewer.step vs = ((w.step rt s).1.viewer, viewed rt w s) ∧
      (vs = .throws → s = .viewer .throws) := by
  cases s with
  | join role => exact .inl ⟨Trickle.viewer_join w role, rfl⟩
  | relay role => exact .inl ⟨Trickle.viewer_relay w role, rfl⟩
  | viewerReceives =>
    cases hqueue : w.queue .controller with
    | nil =>
      obtain ⟨hsame, hviewed⟩ := viewerReceives_nil rt hqueue
      exact .inl ⟨congrArg Trickle.World.viewer hsame, hviewed⟩
    | cons j rest =>
      rcases viewerReceives_cons rt hqueue with ⟨-, hviewed, hnext⟩ | ⟨p, -, hviewed, hnext⟩
      · refine .inl ⟨?_, hviewed⟩
        show (w.viewerReceives rt).viewer = _
        rw [hnext]
      · refine .inr ⟨.deliver p, ?_, by simp⟩
        show _ = ((w.viewerReceives rt).viewer, _)
        rw [hviewed, hnext]
  | viewer s =>
    cases s with
    | deliver payload => exact .inl ⟨rfl, rfl⟩
    | close => exact .inl ⟨rfl, rfl⟩
    | next => exact .inr ⟨.next, rfl, by simp⟩
    | completes sdp => exact .inr ⟨.completes sdp, rfl, by simp⟩
    | throws => exact .inr ⟨.throws, rfl, fun _ => rfl⟩
  | fires line sdpMLineIndex sdpMid =>
    refine .inl ⟨?_, rfl⟩
    unfold Trickle.World.step
    dsimp only
    split_ifs <;> rfl
  | agentReceives answer => exact .inl ⟨viewer_agentReceives w answer, rfl⟩
  | agentTrickles candidate sdpMLineIndex =>
    refine .inl ⟨?_, rfl⟩
    unfold Trickle.World.step
    dsimp only
    split_ifs <;> rfl

theorem kept_observe (hk : Viewer.Kept (w.viewer, views h)) {s : Trickle.Step} (hs : smooth w s = true) :
    Viewer.Kept ((w.step rt s).1.viewer, views h ++ viewed rt w s) := by
  rcases viewer_step rt w s with ⟨hviewer, hviewed⟩ | ⟨vs, hstep, hthrows⟩
  · rw [hviewer, hviewed, List.append_nil]
    exact hk
  · have hflush : Viewer.flushesAll (w.viewer, views h) vs = true := by
      cases vs with
      | throws =>
        obtain rfl := hthrows rfl
        unfold smooth at hs
        unfold Viewer.flushesAll
        dsimp only at hs ⊢
        split at hs <;> simp_all
      | _ => rfl
    have hnext := Viewer.kept_step _ vs hk hflush
    rw [Run.record, hstep] at hnext
    exact hnext

/-- Beside the stage there is little to see to. -/
theorem Inv.next (hi : Inv rt w h) {s : Trickle.Step} (hs : smooth w s = true) (st : Stage)
    (hopened : (w.step rt s).1.viewer.session.closed = false)
    (hreceived : candidates h ++ (trickled w s).map native =
      (views h).filterMap Viewer.received ++ (viewed rt w s).filterMap Viewer.received ++
        (incoming rt (w.step rt s).1).filterMap candidateOf)
    (hst : Holds rt st (w.step rt s).1 (h ++ (observe rt w s).2)) :
    Keeps rt w h s where
  delivers := by
    rw [signals_append, signals_observe]
    exact Trickle.delivers_step rt hi.delivers s
  kept := by
    rw [views_append, views_observe]
    exact kept_observe hi.kept hs
  opened := hopened
  received := by
    rw [candidates_append, candidates_observe, views_append, views_observe, List.filterMap_append]
    exact hreceived
  stage := ⟨st, hst⟩

theorem Inv.stays (hi : Inv rt w h) {s : Trickle.Step} (hsame : observe rt w s = (w, [])) :
    Keeps rt w h s := by
  have hw : (w.step rt s).1 = w := congrArg Prod.fst hsame
  rw [Keeps, hw, hsame, List.append_nil]
  exact hi

theorem Inv.wired (hi : Inv rt w h) : Trickle.Wired w := hi.delivers.wired

theorem Inv.buffered (hi : Inv rt w h) : Viewer.Buffered w.viewer (views h) := hi.kept.buffered hi.opened

/-- A candidate, as the phone reads it. -/
def readAs (c : Candidate) : SignalPayload := .iceCandidate c.1 (c.2.toNat : ℤ) none

theorem candidates_readAs (cs : List Candidate) : (cs.map readAs).filterMap candidateOf = cs.map native := by
  rw [List.filterMap_map, ← List.filterMap_eq_map]
  rfl

theorem news_readAs (cs : List Candidate) : (cs.map readAs).filter isNews = [] := by
  refine List.filter_eq_nil_iff.2 fun p hp => ?_
  obtain ⟨c, -, rfl⟩ := List.mem_map.1 hp
  simp [isNews, readAs, candidateOf]

/-- The viewer session does nothing, and no offer is answered. -/
theorem Inv.aside (hi : Inv rt w h) {s : Trickle.Step} (hs : smooth w s = true)
    (hall : ∀ role, w.joined role = true) (hviewer : (w.step rt s).1.viewer = w.viewer)
    (hviewed : viewed rt w s = []) (hjoined : (w.step rt s).1.joined = w.joined)
    (hin : incoming rt (w.step rt s).1 = incoming rt w ++ (trickled w s).map readAs)
    (hoffers : offers (w.step rt s).1 = offers w) (hanswered : answered w s = []) :
    Keeps rt w h s := by
  obtain ⟨st, hh⟩ := hi.stage
  refine hi.next hs st ?_ ?_ ?_
  · rw [hviewer]
    exact hi.opened
  · rw [hi.received, hviewed, hin, List.filterMap_append, candidates_readAs]
    simp
  · have hne := hh.joined.1 hall
    constructor
    · rw [hjoined]
      exact hh.joined
    · exact fun hapart => absurd hapart hne
    · rw [hviewer]
      exact hh.running
    · rw [hviewer, hin, ← List.append_assoc, List.filter_append, news_readAs, List.append_nil]
      exact hh.news
    · rw [hoffers]
      exact hh.offers
    · simpa [hviewed] using hh.calls
    · simpa [hanswered] using hh.answers
    · rw [hviewer]
      exact hh.offerSent
    · rw [hviewer]
      exact hh.remote

theorem inv_join (hi : Inv rt w h) (role : Role) : Keeps rt w h (.join role) := by
  by_cases hj : w.joined role = true
  · have hsame : w.join role = w := by simp [Trickle.World.join, hj]
    exact hi.stays (congrArg (·, []) hsame)
  obtain ⟨st, hh⟩ := hi.stage
  have hapart : st = .apart := by
    by_contra hne
    exact hj (hh.joined.2 hne role)
  subst hapart
  obtain ⟨hviewer, -, hqueue, hsocket⟩ := hi.wired.apart role (by simpa using hj)
  have hsilent := hh.silent rfl
  have hempty : incoming rt w = [] := by simp [incoming, back, hqueue, hsilent]
  have hreceived := hi.received
  rw [hempty] at hreceived
  have hopened : (w.join role).viewer.session.closed = false := by
    rw [Trickle.viewer_join]
    exact hi.opened
  -- the viewer session and what has been seen stay
  have hholds {st : Stage} (hst : st = .apart ∨ st = .announced)
      (hjoined : (∀ r, (w.join role).joined r = true) ↔ st ≠ .apart)
      (hsocket : st = .apart → (w.join role).socket .agent = [])
      (hnews : (incoming rt (w.join role)).filter isNews = st.news) (hoffers : offers (w.join role) = st.offers) :
      Holds rt st (w.join role) (h ++ (observe rt w (.join role)).2) := by
    have hcalls : calls (h ++ (observe rt w (.join role)).2) =
        (passed (h ++ (observe rt w (.join role)).2)).map .addCandidate := by
      simpa [viewed, Stage.opening] using hh.calls
    have hanswers : answers (h ++ (observe rt w (.join role)).2) = [] := by
      simpa [answered, Stage.answers] using hh.answers
    have hstays := Trickle.viewer_join w role
    have hsent := hh.offerSent
    have hremote := hh.remote
    rw [← hstays] at hsent hremote
    have hrunning : (w.join role).viewer.running = none := by rw [hstays, hviewer]
    have hchain : (w.join role).viewer.chain = [] := by rw [hstays, hviewer]
    rw [← List.nil_append (incoming rt (w.join role)), ← hchain] at hnews
    rcases hst with rfl | rfl
    · exact ⟨hjoined, hsocket, hrunning, hnews, hoffers, hcalls, hanswers, hsent, hremote⟩
    · exact ⟨hjoined, hsocket, hrunning, hnews, hoffers, hcalls, hanswers, hsent, hremote⟩
  by_cases hother : w.joined role.other = true
  · -- each is told of the other
    have hjoin : w.join role = { w with
        joined := Function.update w.joined role true
        queue := fun r => [presence r.other] } := by
      simp [Trickle.World.join, hj, hother, hqueue]
    have hin : incoming rt (w.join role) = [.peerJoined Role.agent.name] := by
      simp [hjoin, incoming, back, hsilent, decode_presence, Role.other]
    have hboth (r : Role) : (w.join role).joined r = true := by
      rw [hjoin]
      exact Trickle.joined_all role (Function.update_self ..)
        (by rw [Function.update_of_ne role.other_ne, hother]) r
    refine hi.next rfl .announced hopened ?_
      (hholds (.inr rfl) ⟨fun _ => by simp, fun _ => hboth⟩ (by simp) ?_ ?_)
    · show candidates h ++ [] = _ ++ [] ++ (incoming rt (w.join role)).filterMap candidateOf
      rw [hin, hreceived]
      simp [candidateOf]
    · rw [hin]
      rfl
    · simp [hjoin, offers, Trickle.World.pipe, hsocket, offerIn_presence, Stage.offers]
  · have hjoin : w.join role = { w with joined := Function.update w.joined role true } := by
      simp [Trickle.World.join, hj, hother]
    have hin : incoming rt (w.join role) = [] := by
      rw [hjoin]
      exact hempty
    have halone : (w.join role).joined role.other ≠ true := by
      rw [hjoin]
      dsimp only
      rw [Function.update_of_ne role.other_ne]
      exact hother
    refine hi.next rfl .apart hopened ?_ (hholds (.inl rfl)
      ⟨fun hboth => absurd (hboth role.other) halone, fun hne => absurd rfl hne⟩ (fun _ => ?_) ?_ ?_)
    · show candidates h ++ [] = _ ++ [] ++ (incoming rt (w.join role)).filterMap candidateOf
      rw [hin, hreceived]
      simp
    · rw [hjoin]
      exact hsilent
    · rw [hin]
      rfl
    · rw [hjoin]
      exact hh.offers

/-- Where something is on its way, both have joined. -/
theorem Inv.joined (hi : Inv rt w h) (hway : w.gathering = true ∨ (∃ role, w.socket role ≠ []) ∨
    ∃ role, w.queue role ≠ []) (role : Role) : w.joined role = true := by
  obtain ⟨st, hh⟩ := hi.stage
  rcases hway with hway | ⟨r, hsocket⟩ | hway
  · exact hi.wired.joined (.inl hway) role
  · cases r with
    | controller => exact hi.wired.joined (.inr (.inl hsocket)) role
    | agent => exact hh.joined.2 (fun hapart => hsocket (hh.silent hapart)) role
  · exact hi.wired.joined (.inr (.inr hway)) role

theorem inv_relay (hi : Inv rt w h) (role : Role) : Keeps rt w h (.relay role) := by
  cases hsocket : w.socket role with
  | nil =>
    have hsame : w.relay role = w := by simp [Trickle.World.relay, hsocket]
    exact hi.stays (congrArg (·, []) hsame)
  | cons j rest =>
    have hall := hi.joined (.inr (.inl ⟨role, by rw [hsocket]; simp⟩))
    have hrelay : w.relay role = { w with
        socket := Function.update w.socket role rest
        queue := Function.update w.queue role.other (w.queue role.other ++ [j]) } := by
      simp [Trickle.World.relay, hsocket, hall]
    refine hi.aside rfl hall (Trickle.viewer_relay w role) rfl ?_ ?_ ?_ rfl
    · show (w.relay role).joined = w.joined
      rw [hrelay]
    · -- the message goes from the end of the socket to the end of the queue
      show incoming rt (w.relay role) = incoming rt w ++ []
      rw [hrelay, List.append_nil]
      cases role <;> simp [incoming, back, hsocket, Role.other]
    · show offers (w.relay role) = offers w
      rw [hrelay]
      cases role <;> simp [offers, Trickle.World.pipe, hsocket, Role.other]

theorem back_send_controller (w : Trickle.World) (docs : List Json) : back (w.send .controller docs) = back w := by
  simp [Trickle.World.send, back]

theorem back_send_agent (w : Trickle.World) (docs : List Json) : back (w.send .agent docs) = back w ++ docs := by
  simp [Trickle.World.send, back]

theorem inv_fires (hi : Inv rt w h) (line : String) (sdpMLineIndex : Option UInt16) (sdpMid : Option String) :
    Keeps rt w h (.fires line sdpMLineIndex sdpMid) := by
  by_cases hno : w.gathering = false ∨ line = ""
  · have hsame : w.step rt (.fires line sdpMLineIndex sdpMid) = (w, []) := if_pos hno
    refine hi.stays ?_
    simp [observe, hsame, viewed, answered, trickled]
  · have hstep : w.step rt (.fires line sdpMLineIndex sdpMid) =
        (w.send .controller [(Trickle.candidatePayload line sdpMLineIndex sdpMid).toJson],
          [.fired (line, sdpMLineIndex.getD 0)]) := if_neg hno
    have hall := hi.joined (.inl (by simpa using fun hg => hno (.inl hg)))
    refine hi.aside rfl hall ?_ rfl ?_ ?_ ?_ rfl
    · rw [hstep]
      rfl
    · rw [hstep]
      rfl
    · rw [hstep, incoming, back_send_controller]
      exact (List.append_nil _).symm
    · rw [hstep, offers, Trickle.pipe_send_controller]
      simp [offers, offerIn_candidate]

theorem inv_agentTrickles (hint : ∀ n < 2 ^ 63, rt.toInt (.int false n) = some (n : ℤ)) (hi : Inv rt w h)
    {candidate : String} {sdpMLineIndex : UInt16} (hs : smooth w (.agentTrickles candidate sdpMLineIndex) = true) :
    Keeps rt w h (.agentTrickles candidate sdpMLineIndex) := by
  obtain ⟨hcontroller, hagent⟩ := Bool.and_eq_true_iff.1 hs
  have hall (role : Role) : w.joined role = true := by
    cases role with
    | controller => exact hcontroller
    | agent => exact hagent
  have hstep : w.step rt (.agentTrickles candidate sdpMLineIndex) =
      (w.send .agent [(Agent.SignalPayload.iceCandidate candidate sdpMLineIndex).toJson], []) := if_pos hagent
  have htrickled : trickled w (.agentTrickles candidate sdpMLineIndex) = [(candidate, sdpMLineIndex)] := if_pos hagent
  refine hi.aside hs hall ?_ rfl ?_ ?_ ?_ rfl
  · rw [hstep]
    rfl
  · rw [hstep]
    rfl
  · rw [hstep, htrickled, incoming, back_send_agent, List.filterMap_append, incoming]
    have hread := decode_candidate hint (candidate, sdpMLineIndex)
    simp [hread, readAs]
  · rw [hstep, offers, Trickle.pipe_send_agent]
    rfl

theorem inv_agentReceives (hi : Inv rt w h) (answer : String) :
    Keeps rt w h (.agentReceives answer) := by
  cases hqueue : w.queue .agent with
  | nil =>
    refine hi.stays ?_
    simp [observe, Trickle.World.step, Trickle.World.agentReceives, hqueue, viewed, answered, trickled]
  | cons j rest =>
    have hall := hi.joined (.inr (.inr ⟨.agent, by rw [hqueue]; simp⟩))
    have hpipe : w.pipe = j :: (rest ++ w.socket .controller) := by
      rw [Trickle.World.pipe, hqueue, List.cons_append]
    have hwired := hi.wired
    have hwait (hphase : w.agent.phase = .waitingForPeer) :
        ∃ role, deserializePayload j = some (.peerJoined role) := by
      obtain ⟨rest', hrest⟩ := hwired.waits hall hphase
      rw [hpipe] at hrest
      obtain ⟨rfl, -⟩ := List.cons.inj hrest
      exact ⟨_, Trickle.deserialize_presence .controller⟩
    obtain ⟨payload, hread, -, -, -, hacts⟩ :=
      Trickle.onSignal_honest hwired.role hwired.opened (hwired.honest j (by rw [hpipe]; simp)) hwait
    have hmessage : offerIn j = match (w.agent.onSignal payload).1 with
        | .createAnswer offer => some offer
        | _ => none := by
      rw [offerIn, hacts]
      cases (w.agent.onSignal payload).1 <;> rfl
    obtain ⟨st, hh⟩ := hi.stage
    have hoffers := hh.offers
    rw [offers, hpipe, List.filterMap_cons, hmessage] at hoffers
    cases haction : (w.agent.onSignal payload).1 with
    | createAnswer offer =>
      have hstep : w.step rt (.agentReceives answer) =
          (({ w with
              queue := Function.update w.queue .agent rest
              agent := (w.agent.onSignal payload).2 } : Trickle.World).send .agent
                [(Agent.SignalPayload.answer answer).toJson], [.acted (.createAnswer offer)]) := by
        simp [Trickle.World.step, Trickle.World.agentReceives, hqueue, hread, haction]
      have hanswered : answered w (.agentReceives answer) = [(offer, answer)] := by
        simp [answered, hqueue, hread, haction]
      have hin : incoming rt (w.step rt (.agentReceives answer)).1 = incoming rt w ++ [.answer answer] := by
        rw [hstep, incoming, back_send_agent, List.filterMap_append, incoming]
        simp [back, decode_answer]
      -- this is the offer on which all waited
      rw [haction] at hoffers
      obtain ⟨rfl, hrest⟩ : st = .offered offer ∧ (rest ++ w.socket .controller).filterMap offerIn = [] := by
        cases st <;> simp_all [Stage.offers]
      refine hi.next rfl (.answered offer answer) ?_ ?_ ?_
      · rw [hstep]
        exact hi.opened
      · rw [hin, List.filterMap_append, hi.received]
        simp [trickled, viewed, candidateOf]
      · constructor
        · rw [hstep]
          exact ⟨fun _ => by simp, fun _ => hall⟩
        · simp
        · rw [hstep]
          exact hh.running
        · rw [hin, hstep, ← List.append_assoc, List.filter_append]
          show (w.viewer.chain ++ incoming rt w).filter isNews ++ _ = _
          rw [hh.news]
          rfl
        · rw [hstep, offers, Trickle.pipe_send_agent]
          simpa [Trickle.World.pipe, Stage.offers] using hrest
        · simpa [viewed, Stage.opening] using hh.calls
        · simpa [hanswered, Stage.answers] using hh.answers
        · rw [hstep]
          exact hh.offerSent
        · rw [hstep]
          exact hh.remote
    | _ =>
      have hstep : (w.step rt (.agentReceives answer)).1 = { w with
          queue := Function.update w.queue .agent rest
          agent := (w.agent.onSignal payload).2 } := by
        simp [Trickle.World.step, Trickle.World.agentReceives, hqueue, hread, haction]
      have hanswered : answered w (.agentReceives answer) = [] := by
        simp [answered, hqueue, hread, haction]
      refine hi.aside rfl hall ?_ rfl ?_ ?_ ?_ hanswered
      · rw [hstep]
      · rw [hstep]
      · rw [hstep]
        simp [incoming, back, trickled]
      · rw [hstep, offers, offers, hpipe, List.filterMap_cons, hmessage, haction]
        simp [Trickle.World.pipe]

theorem inv_viewerReceives (hi : Inv rt w h) : Keeps rt w h .viewerReceives := by
  cases hqueue : w.queue .controller with
  | nil =>
    obtain ⟨hsame, hviewed⟩ := viewerReceives_nil rt hqueue
    refine hi.stays ?_
    simp [observe, Trickle.World.step, hsame, hviewed, answered, trickled]
  | cons j rest =>
    have hall := hi.joined (.inr (.inr ⟨.controller, by rw [hqueue]; simp⟩))
    rcases viewerReceives_cons rt hqueue with ⟨hdecode, hviewed, hnext⟩ | ⟨p, hdecode, hviewed, hnext⟩
    · have hstep : (w.step rt .viewerReceives).1 =
        { w with queue := Function.update w.queue .controller rest } := hnext
      refine hi.aside rfl hall ?_ hviewed ?_ ?_ ?_ rfl
      · rw [hstep]
      · rw [hstep]
      · rw [hstep]
        simp [incoming, back, trickled, hqueue, hdecode]
      · rw [hstep]
        simp [offers, Trickle.World.pipe]
    · have hstep : (w.step rt .viewerReceives).1 = { w with
          queue := Function.update w.queue .controller rest
          viewer := (w.viewer.step (.deliver p)).1 } := hnext
      have hin : incoming rt w = p :: incoming rt (w.step rt .viewerReceives).1 := by
        rw [hstep]
        simp [incoming, back, hqueue, hdecode]
      have hcalled : (viewed rt w .viewerReceives).filterMap called = [] := by
        rw [hviewed, Viewer.World.step]
        cases candidateOf p <;> rfl
      have hadded : (viewed rt w .viewerReceives).filterMap Viewer.added = [] := by
        rw [hviewed, Viewer.World.step]
        cases candidateOf p <;> rfl
      have hreceived : (viewed rt w .viewerReceives).filterMap Viewer.received = (candidateOf p).toList := by
        rw [hviewed, Viewer.World.step]
        cases candidateOf p <;> rfl
      obtain ⟨st, hh⟩ := hi.stage
      refine hi.next rfl st ?_ ?_ ?_
      · rw [hstep]
        exact hi.opened
      · rw [hi.received, hin, hreceived]
        cases hc : candidateOf p <;> simp [hc, trickled]
      · constructor
        · rw [hstep]
          exact hh.joined
        · rw [hstep]
          exact hh.silent
        · rw [hstep]
          exact hh.running
        · have hnews := hh.news
          rw [hin] at hnews
          have hchain : (w.step rt .viewerReceives).1.viewer.chain = w.viewer.chain ++ [p] := by
            rw [hstep]
            rfl
          rw [hchain, List.append_assoc]
          exact hnews
        · have hsame : offers (w.step rt .viewerReceives).1 = offers w := by
            rw [hstep]
            simp [offers, Trickle.World.pipe]
          rw [hsame]
          exact hh.offers
        · simpa [hcalled, hadded] using hh.calls
        · simpa [answered] using hh.answers
        · rw [hstep]
          exact hh.offerSent
        · rw [hstep]
          exact hh.remote

/-! ### The viewer session goes on -/

/-- The viewer session goes from one stage to the next, or stays: `ps` has not been delivered yet, `cs` are the
candidates passed on before. -/
structure Turns (ps : List SignalPayload) (cs : List RTCIceCandidate) (st st' : Stage)
    (r : Viewer.World × List Viewer.Event) : Prop where
  opened : r.1.session.closed = false
  received : r.2.filterMap Viewer.received = []
  together : st' ≠ .apart
  running : st'.Runs r.1.running
  news : (r.1.chain ++ ps).filter isNews = st'.news
  offers : st.offers ++ ((r.2.filterMap Trickle.sentBy).map Mobile.SignalPayload.toJson).filterMap offerIn = st'.offers
  calls : st.opening ++ cs.map .addCandidate ++ r.2.filterMap called =
    st'.opening ++ (cs ++ r.2.filterMap Viewer.added).map .addCandidate
  answers : st'.answers = st.answers
  offerSent : r.1.session.offerSent = st'.offerSent
  remote : r.1.session.remoteDescriptionSet = st'.remote

/-- The loop over the buffered candidates goes on. -/
theorem turns_flush {s : Viewer.Session} {chain ps : List SignalPayload} {cs : List RTCIceCandidate}
    {offer answer : String} (st : Stage) (hopened : s.closed = false) (hsent : s.offerSent = true)
    (hset : s.remoteDescriptionSet = true) (hnews : (chain ++ ps).filter isNews = []) (hoffers : st.offers = [])
    (hopening : st.opening = (Stage.adding offer answer).opening) (hanswers : st.answers = [(offer, answer)])
    (n : Native) (next len : ℕ) :
    Turns ps cs st (.adding offer answer) (⟨(s.flush next len).session, chain, (s.flush next len).awaits⟩,
      [.completed n] ++ (s.flush next len).events) := by
  rcases Viewer.flush_cases s next len with ⟨-, hs⟩ | ⟨-, -, hs⟩ | ⟨-, c, -, hs⟩
  · rw [hs]
    exact ⟨hopened, rfl, by simp, .inl rfl, hnews, by rw [hoffers]; rfl,
      by simp [hopening, Viewer.Block.events, List.filterMap_cons, called, Viewer.added],
      hanswers.symm, hsent, hset⟩
  · rw [hs]
    exact ⟨hopened, rfl, by simp, .inl rfl, hnews, by rw [hoffers]; rfl,
      by simp [hopening, Viewer.Block.events, List.filterMap_cons, called, Viewer.added],
      hanswers.symm, hsent, hset⟩
  · rw [hs]
    exact ⟨hopened, rfl, by simp, .inr (.inr ⟨_, _, _, rfl⟩), hnews, by rw [hoffers]; rfl,
      by simp [hopening, Viewer.Block.events, Await.call, List.filterMap_cons, called, Viewer.added],
      hanswers.symm, hsent, hset⟩

/-- No candidate is passed on before the answer. -/
theorem Inv.passed_eq (hi : Inv rt w h) (hset : w.viewer.session.remoteDescriptionSet = false) : passed h = [] :=
  (hi.buffered.waiting hset).1

section Turns
variable {st : Stage} (hi : Inv rt w h) (hh : Holds rt st w h) (hne : st ≠ .apart)
include hi hh hne

theorem turns_same : Turns (incoming rt w) (passed h) st st (w.viewer, []) where
  opened := hi.opened
  received := rfl
  together := hne
  running := hh.running
  news := hh.news
  offers := List.append_nil _
  calls := by simp
  answers := rfl
  offerSent := hh.offerSent
  remote := hh.remote

/-- A candidate is buffered, or passed on. -/
theorem turns_candidate {line : String} {idx : ℤ} {mid : Option String} {chain : List SignalPayload}
    (hrun : w.viewer.running = none) (hnews : (chain ++ incoming rt w).filter isNews = st.news) :
    Turns (incoming rt w) (passed h) st st
      (⟨(w.viewer.session.handleSignal (.iceCandidate line idx mid)).session, chain,
        (w.viewer.session.handleSignal (.iceCandidate line idx mid)).awaits⟩,
        (w.viewer.session.handleSignal (.iceCandidate line idx mid)).events) := by
  have hrunning := hh.running
  rw [hrun] at hrunning
  cases hset : w.viewer.session.remoteDescriptionSet with
  | false =>
    have hblock : w.viewer.session.handleSignal (.iceCandidate line idx mid) = { session :=
        { w.viewer.session with
          pendingRemoteIce := w.viewer.session.pendingRemoteIce ++ [Viewer.nativeCandidate line idx mid] } } := by
      simp [Viewer.Session.handleSignal, hi.opened, hset]
    rw [hblock]
    exact ⟨hi.opened, rfl, hne, hrunning, hnews, List.append_nil _, by simp [Viewer.Block.events], rfl, hh.offerSent,
      hh.remote⟩
  | true =>
    have hblock : w.viewer.session.handleSignal (.iceCandidate line idx mid) = {
        session := w.viewer.session
        awaits := some (.addCandidate (Viewer.nativeCandidate line idx mid)) } := by
      simp [Viewer.Session.handleSignal, hi.opened, hset]
    rw [hblock]
    have hremote := hh.remote
    rw [hset] at hremote
    cases st with
    | adding offer answer =>
      exact ⟨hi.opened, rfl, hne, .inr (.inl ⟨_, rfl⟩), hnews, List.append_nil _,
        by simp [Viewer.Block.events, Await.call, called, Viewer.added], rfl, hh.offerSent, hh.remote⟩
    | _ => cases hremote

/-- The handling of the next message starts. -/
theorem turns_next : ∃ st', Turns (incoming rt w) (passed h) st st' (w.viewer.step .next) := by
  cases hrun : w.viewer.running with
  | some a =>
    have hstep : w.viewer.step .next = (w.viewer, []) := by simp [Viewer.World.step, hrun]
    exact ⟨st, hstep ▸ turns_same hi hh hne⟩
  | none =>
    cases hchain : w.viewer.chain with
    | nil =>
      have hstep : w.viewer.step .next = (w.viewer, []) := by simp [Viewer.World.step, hrun, hchain]
      exact ⟨st, hstep ▸ turns_same hi hh hne⟩
    | cons p chain =>
      have hstep : w.viewer.step .next = (⟨(w.viewer.session.handleSignal p).session, chain,
          (w.viewer.session.handleSignal p).awaits⟩, (w.viewer.session.handleSignal p).events) := by
        simp [Viewer.World.step, hrun, hchain]
      rw [hstep]
      have hnews := hh.news
      rw [hchain, List.cons_append, List.filter_cons] at hnews
      have hsent := hh.offerSent
      have hremote := hh.remote
      cases hc : candidateOf p with
      | some c =>
        rw [if_neg (by simp [isNews, hc])] at hnews
        cases p with
        | iceCandidate line idx mid => exact ⟨st, turns_candidate hi hh hne hrun hnews⟩
        | _ => cases hc
      | none =>
        rw [if_pos (by simp [isNews, hc])] at hnews
        cases st with
        | announced =>
          obtain ⟨rfl, hrest⟩ := List.cons.inj hnews
          have hblock : w.viewer.session.handleSignal (.peerJoined Role.agent.name) =
              { session := { w.viewer.session with offerSent := true }, awaits := some .createOffer } := by
            simp [Viewer.Session.handleSignal, hi.opened, hsent, Stage.offerSent]
          rw [hblock]
          have hnone := hi.passed_eq hremote
          exact ⟨.creating, hi.opened, rfl, by simp, rfl, hrest, rfl, by rw [hnone]; rfl, rfl, rfl, hremote⟩
        | answered offer answer =>
          obtain ⟨rfl, hrest⟩ := List.cons.inj hnews
          have hblock : w.viewer.session.handleSignal (.answer answer) =
              { session := w.viewer.session, awaits := some (.setRemoteDescription answer) } := by
            simp [Viewer.Session.handleSignal, hi.opened, hremote, Stage.remote]
          rw [hblock]
          have hnone := hi.passed_eq hremote
          exact ⟨.applying offer answer, hi.opened, rfl, by simp, rfl, hrest, rfl, by rw [hnone]; rfl, rfl, hsent,
            hremote⟩
        | _ => cases hnews

/-- The awaited call completes. -/
theorem turns_completes (sdp : String) :
    ∃ st', Turns (incoming rt w) (passed h) st st' (w.viewer.step (.completes sdp)) := by
  have hrunning := hh.running
  have hsent := hh.offerSent
  have hremote := hh.remote
  cases hrun : w.viewer.running with
  | none =>
    have hstep : w.viewer.step (.completes sdp) = (w.viewer, []) := by simp [Viewer.World.step, hrun]
    exact ⟨st, hstep ▸ turns_same hi hh hne⟩
  | some a =>
    rw [hrun] at hrunning
    have hstep : w.viewer.step (.completes sdp) = (⟨(w.viewer.session.resume sdp a).session, w.viewer.chain,
        (w.viewer.session.resume sdp a).awaits⟩,
        (a.call.map .completed).toList ++ (w.viewer.session.resume sdp a).events) := by
      simp [Viewer.World.step, hrun]
    rw [hstep]
    cases st with
    | creating =>
      obtain rfl := Option.some.inj hrunning
      have hnone := hi.passed_eq hremote
      exact ⟨.settingLocal sdp, hi.opened, rfl, by simp, rfl, hh.news, rfl, by rw [hnone]; rfl, rfl, hsent, hremote⟩
    | settingLocal offer =>
      obtain rfl := Option.some.inj hrunning
      have hnone := hi.passed_eq hremote
      refine ⟨.offered offer, hi.opened, rfl, by simp, rfl, hh.news, ?_, by rw [hnone]; rfl, rfl, hsent, hremote⟩
      simp [Viewer.Session.resume, Viewer.Block.events, Await.call, List.filterMap_cons, Trickle.sentBy,
        Stage.offers, offerIn_offer]
    | applying offer answer =>
      obtain rfl := Option.some.inj hrunning
      refine ⟨.adding offer answer, ?_⟩
      exact turns_flush (s := { w.viewer.session with remoteDescriptionSet := true }) (.applying offer answer)
        hi.opened hsent rfl hh.news rfl rfl rfl _ _ _
    | adding offer answer =>
      rcases hrunning with hrunning | ⟨c, hrunning⟩ | ⟨c, next, len, hrunning⟩
      · cases hrunning
      · obtain rfl := Option.some.inj hrunning
        exact ⟨.adding offer answer, hi.opened, rfl, by simp, .inl rfl, hh.news, rfl,
          by simp [Viewer.Session.resume, Viewer.Block.events, Await.call, List.filterMap_cons, called, Viewer.added],
          rfl, hsent, hremote⟩
      · obtain rfl := Option.some.inj hrunning
        exact ⟨_, turns_flush (.adding offer answer) hi.opened hsent hremote hh.news rfl rfl rfl _ _ _⟩
    | _ => cases hrunning

/-- The awaited call throws; it is one of a candidate. -/
theorem turns_throws (hs : smooth w (.viewer .throws) = true) :
    Turns (incoming rt w) (passed h) st st (w.viewer.step .throws) := by
  have hrunning := hh.running
  refine ⟨hi.opened, rfl, hne, ?_, hh.news, List.append_nil _, by simp [Viewer.World.step], rfl, hh.offerSent,
    hh.remote⟩
  show st.Runs none
  cases st with
  | creating | settingLocal | applying =>
    simp only [Stage.Runs] at hrunning
    simp [smooth, hrunning] at hs
  | adding => exact .inl rfl
  | _ => rfl

end Turns

/-- What the viewer session does, and sends, is done in the world. -/
theorem Inv.turns (hi : Inv rt w h) {s : Viewer.Step} (hs : smooth w (.viewer s) = true) {st st' : Stage}
    (hh : Holds rt st w h) (hne : st ≠ .apart) (hstep : w.step rt (.viewer s) = w.viewerGoesOn s)
    (hviewed : viewed rt w (.viewer s) = (w.viewer.step s).2)
    (ht : Turns (incoming rt w) (passed h) st st' (w.viewer.step s)) :
    Keeps rt w h (.viewer s) := by
  have hviewer : (w.step rt (.viewer s)).1.viewer = (w.viewer.step s).1 := by
    rw [hstep]
    rfl
  have hin : incoming rt (w.step rt (.viewer s)).1 = incoming rt w := by
    rw [hstep, Trickle.World.viewerGoesOn, incoming, back_send_controller]
    rfl
  have hall := hh.joined.2 hne
  refine hi.next hs st' ?_ ?_ ?_
  · rw [hviewer]
    exact ht.opened
  · rw [hviewed, ht.received, hin, hi.received]
    simp [trickled]
  · constructor
    · rw [hstep]
      exact ⟨fun _ => ht.together, fun _ => hall⟩
    · exact fun hapart => absurd hapart ht.together
    · rw [hviewer]
      exact ht.running
    · rw [hviewer, hin]
      exact ht.news
    · rw [hstep, ← ht.offers, ← hh.offers, offers, Trickle.World.viewerGoesOn, Trickle.pipe_send_controller,
        List.filterMap_append]
      rfl
    · rw [calls_append, calls_observe, hh.calls, passed_append, passed_observe, hviewed]
      exact ht.calls
    · rw [ht.answers, ← hh.answers]
      simp [answered]
    · rw [hviewer]
      exact ht.offerSent
    · rw [hviewer]
      exact ht.remote

theorem inv_viewer (hi : Inv rt w h) {s : Viewer.Step} (hs : smooth w (.viewer s) = true) :
    Keeps rt w h (.viewer s) := by
  obtain ⟨st, hh⟩ := hi.stage
  by_cases hapart : st = .apart
  · -- nothing has been delivered
    obtain ⟨role, hrole⟩ := not_forall.1 fun hall => hh.joined.1 hall hapart
    obtain ⟨hviewer, -, -, -⟩ := hi.wired.apart role (by simpa using hrole)
    have hidle (hdeliver : ∀ payload, s ≠ .deliver payload) (hclose : s ≠ .close) :
        w.viewer.step s = (w.viewer, []) := by
      rw [hviewer]
      exact Trickle.idle_step s hdeliver hclose
    refine hi.stays ?_
    cases s with
    | deliver payload => rfl
    | close => rfl
    | _ =>
      have hsame := hidle (by simp) (by simp)
      simp [observe, Trickle.World.step, Trickle.World.viewerGoesOn, viewed, answered, trickled, hsame,
        Trickle.World.send]
  · cases s with
    | deliver payload => exact hi.stays rfl
    | close => exact hi.stays rfl
    | next =>
      obtain ⟨st', ht⟩ := turns_next hi hh hapart
      exact hi.turns hs hh hapart rfl rfl ht
    | completes sdp =>
      obtain ⟨st', ht⟩ := turns_completes hi hh hapart sdp
      exact hi.turns hs hh hapart rfl rfl ht
    | throws => exact hi.turns hs hh hapart rfl rfl (turns_throws hi hh hapart hs)

end Steps

/-! ### The result -/

section Result
variable {rt : Mobile.Runtime} (hint : ∀ n < 2 ^ 63, rt.toInt (.int false n) = some (n : ℤ))
include hint

theorem inv_step {w : Trickle.World} {h : List Sight} (hp : Inv rt w h) {s : Trickle.Step}
    (hs : smooth w s = true) : Keeps rt w h s := by
  cases s with
  | join role => exact inv_join hp role
  | relay role => exact inv_relay hp role
  | viewerReceives => exact inv_viewerReceives hp
  | viewer s => exact inv_viewer hp hs
  | fires line sdpMLineIndex sdpMid => exact inv_fires hp line sdpMLineIndex sdpMid
  | agentReceives answer => exact inv_agentReceives hp answer
  | agentTrickles candidate sdpMLineIndex => exact inv_agentTrickles hint hp hs

end Result

/-- The offer the stage has come to. -/
def Stage.offer : Stage → String
  | settingLocal offer | offered offer | answered offer _ | applying offer _ | adding offer _ => offer
  | _ => ""

def Stage.answer : Stage → String
  | answered _ answer | applying _ answer | adding _ answer => answer
  | _ => ""

section Script
variable {rt : Mobile.Runtime} {w : Trickle.World} {h : List Sight} {st : Stage}

theorem Holds.connected (hh : Holds rt st w h) (hi : Inv rt w h) (hrest : AtRest w) :
    Connected h st.offer st.answer := by
  obtain ⟨hjoined, hsockets, hqueues, hchain, hrun⟩ := hrest
  have hin : incoming rt w = [] := by simp [incoming, back, hsockets, hqueues]
  have hpipe : w.pipe = [] := by simp [Trickle.World.pipe, hsockets, hqueues]
  have hrunning := hh.running
  have hnews := hh.news
  have hoffers := hh.offers
  rw [hrun] at hrunning
  rw [hchain, hin] at hnews
  rw [Connect.offers, hpipe] at hoffers
  cases st with
  | adding offer answer =>
    have hreceived := hi.received
    have hpassing := hi.buffered.passing hh.remote (by simp [hrun])
    rw [hchain, List.filterMap_nil, List.append_nil] at hpassing
    rw [hin, List.filterMap_nil, List.append_nil, ← hpassing] at hreceived
    have hfifo := hi.delivers.fifo
    rw [hpipe, List.filterMap_nil, List.append_nil] at hfifo
    refine ⟨?_, hh.answers, hfifo⟩
    rw [hh.calls, hreceived]
    rfl
  | apart => exact absurd rfl (hh.joined.1 hjoined)
  | announced | answered => cases hnews
  | offered => cases hoffers
  | creating | settingLocal | applying => cases hrunning

end Script

/-- A candidate of the phone and one of the agent, before the answer is applied, and another one of the agent. -/
def connects : List Trickle.Step :=
  Trickle.negotiates ++ [.viewer (.completes ""), .fires "candidate:1" none none, .relay .controller,
    .agentReceives "", .agentReceives "answer", .agentTrickles "candidate:2" 0, .relay .agent, .relay .agent,
    .viewerReceives, .viewerReceives, .viewer .next, .relay .controller, .agentReceives "", .viewer (.completes ""),
    .viewer .next, .viewer .throws]

end DeskSync.Session.Connect
