import DeskSync.Agent.Json
import DeskSync.Agent.Negotiation
import DeskSync.Mobile.Json
import DeskSync.Signaling.Protocol
import DeskSync.Viewer.Guards

/-!
# Trickled candidates, from the phone to the agent

The viewer session of the phone, the hub and the negotiation of the agent, with the documents on the way
between them: `socket` holds what a peer has sent and the hub has not dispatched yet, `queue` what the
hub has for a peer. The hub is a relay between the two that announces each peer to the other, as
`Signaling` shows it to be; nobody disconnects and nothing is rejected. The phone's peer connection may
report candidates from the start of `setLocalDescription` on, and the offer is sent after it.

No candidate gets lost, in any run: `conserved_run`. A candidate that is reported before the offer is sent
reaches the agent's peer connection before the offer does (`early_candidate`); if none is, no candidate is
added before the offer is answered (`trickled_of_offered`).
-/

namespace DeskSync.Session.Trickle

open Agent (NegotiationAction NegotiationState deserializePayload)
open Signaling (Role)

/-- A candidate line and its media line index. -/
abbrev Candidate := String × UInt16

structure World where
  viewer : Viewer.World := {}
  /-- `setLocalDescription` has been called. -/
  gathering : Bool := false
  agent : NegotiationState := .new .agent
  joined : Role → Bool := fun _ => false
  socket : Role → List Json := fun _ => []
  queue : Role → List Json := fun _ => []

inductive Step
  /-- A peer connects to the hub. -/
  | join (role : Role)
  /-- The hub dispatches the next message of a peer. -/
  | relay (role : Role)
  | viewerReceives
  /-- The viewer session goes on. -/
  | viewer (s : Viewer.Step)
  /-- The phone's `onIceCandidate`. -/
  | fires (line : String) (sdpMLineIndex : Option UInt16) (sdpMid : Option String)
  /-- The agent handles its next message; `answer` is what it answers to an offer. -/
  | agentReceives (answer : String)
  /-- The agent's `event_task` sends a local candidate. -/
  | agentTrickles (candidate : String) (sdpMLineIndex : UInt16)

inductive Event
  | offered (sdp : String)
  | fired (c : Candidate)
  | acted (a : NegotiationAction)
  deriving DecidableEq

/-- The announcement of a peer. -/
def presence (role : Role) : Json :=
  .obj [("kind", .str Signaling.kindPeerJoined), ("role", .str role.name)]

/-- What the phone sends when a candidate is reported. -/
def candidatePayload (line : String) (sdpMLineIndex : Option UInt16) (sdpMid : Option String) :
    Mobile.SignalPayload :=
  .iceCandidate line ((sdpMLineIndex.getD 0).toNat : ℤ) sdpMid

/-- The messages a viewer session sends. -/
def sentBy : Viewer.Event → Option Mobile.SignalPayload
  | .sends payload => some payload
  | _ => none

def setsLocal : Viewer.Event → Bool
  | .calls (.setLocalDescription _) => true
  | _ => false

def offered : Mobile.SignalPayload → Option Event
  | .offer sdp => some (.offered sdp)
  | _ => none

namespace World

/-- `Join`: once both peers are there, each is told of the other. -/
def join (w : World) (role : Role) : World :=
  if w.joined role then w
  else
    let joined := Function.update w.joined role true
    if w.joined role.other then { w with joined, queue := fun r => w.queue r ++ [presence r.other] }
    else { w with joined }

/-- `relay`; a message to a peer that is not there is dropped. -/
def relay (w : World) (role : Role) : World :=
  match w.socket role with
  | [] => w
  | j :: rest =>
    let socket := Function.update w.socket role rest
    if w.joined role.other then
      { w with socket, queue := Function.update w.queue role.other (w.queue role.other ++ [j]) }
    else { w with socket }

def send (w : World) (role : Role) (docs : List Json) : World :=
  { w with socket := Function.update w.socket role (w.socket role ++ docs) }

/-- What `jsonDecode` makes of a document, and the client of that. -/
def decode (rt : Mobile.Runtime) : Json → Option Mobile.SignalPayload
  | .obj ms => Mobile.SignalPayload.fromJson rt ms
  | _ => none

def viewerReceives (rt : Mobile.Runtime) (w : World) : World :=
  match w.queue .controller with
  | [] => w
  | j :: rest =>
    let w := { w with queue := Function.update w.queue .controller rest }
    match decode rt j with
    | none => w
    | some payload => { w with viewer := (w.viewer.step (.deliver payload)).1 }

def viewerGoesOn (w : World) (s : Viewer.Step) : World × List Event :=
  let (viewer, events) := w.viewer.step s
  let sent := events.filterMap sentBy
  let w := { w with viewer, gathering := w.gathering || events.any setsLocal }
  (w.send .controller (sent.map Mobile.SignalPayload.toJson), sent.filterMap offered)

/-- One turn of `signaling_loop`. A message that does not decode ends it, and with it the peer
connection. -/
def agentReceives (w : World) (answer : String) : World × List Event :=
  match w.queue .agent with
  | [] => (w, [])
  | j :: rest =>
    let w := { w with queue := Function.update w.queue .agent rest }
    match deserializePayload j with
    | none => ({ w with agent := w.agent.close.2 }, [])
    | some payload =>
      let (action, agent) := w.agent.onSignal payload
      let w := { w with agent }
      match action with
      | .createAnswer _ => (w.send .agent [(Agent.SignalPayload.answer answer).toJson], [.acted action])
      | _ => (w, [.acted action])

/-- One step. Nothing arrives but from the queues, and the session is not closed from outside. -/
def step (rt : Mobile.Runtime) (w : World) : Step → World × List Event
  | .join role => (w.join role, [])
  | .relay role => (w.relay role, [])
  | .viewerReceives => (w.viewerReceives rt, [])
  | .viewer s =>
    match s with
    | .deliver _ | .close => (w, [])
    | s => w.viewerGoesOn s
  | .fires line sdpMLineIndex sdpMid =>
    if w.gathering = false ∨ line = "" then (w, [])
    else
      (w.send .controller [(candidatePayload line sdpMLineIndex sdpMid).toJson],
        [.fired (line, sdpMLineIndex.getD 0)])
  | .agentReceives answer => w.agentReceives answer
  | .agentTrickles candidate sdpMLineIndex =>
    if w.joined .agent then
      (w.send .agent [(Agent.SignalPayload.iceCandidate candidate sdpMLineIndex).toJson], [])
    else (w, [])

end World

def run (rt : Mobile.Runtime) (l : List Step) : World × List Event :=
  Run.exec (Run.record (World.step rt)) ({}, []) l

/-! ### What the agent reads -/

theorem deserialize_candidate (line : String) (sdpMLineIndex : Option UInt16) (sdpMid : Option String) :
    deserializePayload (candidatePayload line sdpMLineIndex sdpMid).toJson =
      some (.iceCandidate line (sdpMLineIndex.getD 0)) := by
  rw [Agent.deserializePayload_iff]
  have hmid : (sdpMid.map fun mid => ("sdp_mid", Json.str mid)).toList.filter (·.1 = "kind") = [] ∧
      (sdpMid.map fun mid => ("sdp_mid", Json.str mid)).toList.filter (·.1 = "candidate") = [] ∧
      (sdpMid.map fun mid => ("sdp_mid", Json.str mid)).toList.filter (·.1 = "sdp_m_line_index") = [] := by
    cases sdpMid <;> simp
  have hneg : ¬ (((sdpMLineIndex.getD 0).toNat : ℤ) < 0) := by omega
  simp [candidatePayload, Mobile.SignalPayload.toJson, Agent.SignalPayload.Describes,
    Agent.SignalPayload.kind, Mobile.SignalPayload.kind, Agent.SignalPayload.fields, Json.Once,
    Mobile.intToJson, hmid, hneg]

theorem deserialize_offer (sdp : String) :
    deserializePayload (Mobile.SignalPayload.offer sdp).toJson = some (.offer sdp) := by
  rw [Agent.deserializePayload_iff]
  simp [Mobile.SignalPayload.toJson, Agent.SignalPayload.Describes, Agent.SignalPayload.kind,
    Mobile.SignalPayload.kind, Agent.SignalPayload.fields, Json.Once]

theorem deserialize_presence (role : Role) :
    deserializePayload (presence role) = some (.peerJoined role.name) := by
  rw [Agent.deserializePayload_iff]
  simp [presence, Agent.SignalPayload.Describes, Agent.SignalPayload.kind,
    Agent.SignalPayload.fields, Json.Once, Signaling.kindPeerJoined]

/-- What the agent acts on. -/
inductive Message
  | offer (sdp : String)
  | candidate (c : Candidate)
  deriving DecidableEq

/-- The message in a document, as the agent reads it. -/
def message (j : Json) : Option Message :=
  match deserializePayload j with
  | some (.offer sdp) => some (.offer sdp)
  | some (.iceCandidate candidate sdpMLineIndex) => some (.candidate (candidate, sdpMLineIndex))
  | _ => none

/-! ### What the viewer session sends -/

theorem sends_handleSignal (s : Viewer.Session) (payload : Mobile.SignalPayload) :
    (s.handleSignal payload).sends = none := by
  cases payload <;> simp only [Viewer.Session.handleSignal, Viewer.Session.close] <;> split_ifs <;> rfl

theorem sends_flush (s : Viewer.Session) (next len : ℕ) : (s.flush next len).sends = none := by
  rcases Viewer.flush_cases s next len with ⟨-, h⟩ | ⟨-, -, h⟩ | ⟨-, c, -, h⟩ <;> rw [h]

theorem sends_resume (s : Viewer.Session) (sdp : String) (a : Viewer.Await) :
    (s.resume sdp a).sends = none ∨ ∃ offer, (s.resume sdp a).sends = some (.offer offer) := by
  cases a with
  | setLocalDescription offer => exact .inr ⟨offer, rfl⟩
  | setRemoteDescription remote => exact .inl (sends_flush _ _ _)
  | flush c next len => exact .inl (sends_flush _ _ _)
  | _ => exact .inl rfl

theorem sentBy_events (b : Viewer.Block) : b.events.filterMap sentBy = b.sends.toList := by
  have hsends (o : Option Mobile.SignalPayload) :
      ((o.map Viewer.Event.sends).toList).filterMap sentBy = o.toList := by
    cases o <;> rfl
  have hcalls (o : Option Viewer.Native) :
      ((o.map Viewer.Event.calls).toList).filterMap sentBy = [] := by
    cases o <;> rfl
  rw [Viewer.Block.events, List.filterMap_append, hsends, hcalls, List.append_nil]

theorem sentBy_completed (a : Viewer.Await) :
    ((a.call.map Viewer.Event.completed).toList).filterMap sentBy = [] := by
  cases a.call <;> rfl

/-- A viewer session sends nothing, or its offer. -/
theorem sent_step (v : Viewer.World) (s : Viewer.Step) (hs : ∀ payload, s ≠ .deliver payload) :
    (v.step s).2.filterMap sentBy = [] ∨ ∃ sdp, (v.step s).2.filterMap sentBy = [.offer sdp] := by
  cases s with
  | deliver payload => exact absurd rfl (hs payload)
  | next =>
    left
    unfold Viewer.World.step
    dsimp only
    split
    · rw [sentBy_events, sends_handleSignal]
      rfl
    · rfl
  | completes sdp =>
    unfold Viewer.World.step
    cases v.running with
    | none => exact .inl rfl
    | some a =>
      dsimp only
      rw [List.filterMap_append, sentBy_completed, List.nil_append, sentBy_events]
      rcases sends_resume v.session sdp a with h | ⟨offer, h⟩
      · exact .inl (by rw [h]; rfl)
      · exact .inr ⟨offer, by rw [h]; rfl⟩
  | throws => exact .inl rfl
  | close => exact .inl rfl

/-- A viewer session to which nothing has been delivered does nothing. -/
theorem idle_step (s : Viewer.Step) (hs : ∀ payload, s ≠ .deliver payload) (hclose : s ≠ .close) :
    Viewer.World.step {} s = ({}, []) := by
  cases s with
  | deliver payload => exact absurd rfl (hs payload)
  | close => exact absurd rfl hclose
  | _ => rfl

/-- The handler in progress will send an offer. -/
def offering : Option Viewer.Await → ℕ
  | some .createOffer | some (.setLocalDescription _) => 1
  | _ => 0

/-- The offers a viewer session may still send. -/
def offersLeft (v : Viewer.World) : ℕ :=
  (if v.session.offerSent then 0 else 1) + offering v.running

theorem handleSignal_offers (s : Viewer.Session) (payload : Mobile.SignalPayload) :
    ((s.handleSignal payload).session.offerSent = s.offerSent ∧
      offering (s.handleSignal payload).awaits = 0) ∨
    (s.offerSent = false ∧ (s.handleSignal payload).session.offerSent = true ∧
      offering (s.handleSignal payload).awaits = 1) := by
  have hclose : s.close.session.offerSent = s.offerSent ∧ offering s.close.awaits = 0 := by
    unfold Viewer.Session.close
    split_ifs <;> exact ⟨rfl, rfl⟩
  unfold Viewer.Session.handleSignal
  by_cases hclosed : s.closed = true
  · rw [if_pos hclosed]
    exact .inl ⟨rfl, rfl⟩
  rw [if_neg hclosed]
  cases payload with
  | peerJoined role =>
    dsimp only
    by_cases hsent : s.offerSent = true
    · rw [if_pos hsent]
      exact .inl ⟨rfl, rfl⟩
    · rw [if_neg hsent]
      exact .inr ⟨by simpa using hsent, rfl, rfl⟩
  | answer sdp =>
    dsimp only
    split_ifs <;> exact .inl ⟨rfl, rfl⟩
  | iceCandidate line idx mid =>
    dsimp only
    split_ifs <;> exact .inl ⟨rfl, rfl⟩
  | peerLeft role => exact .inl hclose
  | bye => exact .inl hclose
  | _ => exact .inl ⟨rfl, rfl⟩

theorem flush_offers (s : Viewer.Session) (next len : ℕ) :
    (s.flush next len).session.offerSent = s.offerSent ∧ offering (s.flush next len).awaits = 0 := by
  rcases Viewer.flush_cases s next len with ⟨-, h⟩ | ⟨-, -, h⟩ | ⟨-, c, -, h⟩ <;>
    rw [h] <;> exact ⟨rfl, rfl⟩

theorem resume_offers (s : Viewer.Session) (sdp : String) (a : Viewer.Await) :
    (s.resume sdp a).session.offerSent = s.offerSent ∧
      offering (s.resume sdp a).awaits + (s.resume sdp a).sends.toList.length = offering (some a) := by
  have hflush (s : Viewer.Session) (next len : ℕ) : (s.flush next len).session.offerSent = s.offerSent ∧
      offering (s.flush next len).awaits + (s.flush next len).sends.toList.length = 0 := by
    obtain ⟨hsent, hoffering⟩ := flush_offers s next len
    rw [sends_flush, hoffering]
    exact ⟨hsent, rfl⟩
  cases a with
  | setRemoteDescription remote => exact hflush _ _ _
  | flush c next len => exact hflush _ _ _
  | _ => exact ⟨rfl, rfl⟩

/-- A viewer session sends one offer at most. -/
theorem offersLeft_step (v : Viewer.World) (s : Viewer.Step) :
    offersLeft (v.step s).1 + ((v.step s).2.filterMap sentBy).length ≤ offersLeft v := by
  cases s with
  | deliver payload =>
    have hsent : (((Viewer.candidateOf payload).map Viewer.Event.received).toList).filterMap sentBy = [] := by
      cases Viewer.candidateOf payload <;> rfl
    simp only [Viewer.World.step, hsent, List.length_nil]
    exact Nat.le_refl _
  | next =>
    unfold Viewer.World.step
    cases hrunning : v.running with
    | some a => simp
    | none =>
      cases v.chain with
      | nil => simp
      | cons payload chain =>
        dsimp only
        have hnone : offering none = 0 := rfl
        rw [sentBy_events, sends_handleSignal, offersLeft, offersLeft, hrunning]
        rcases handleSignal_offers v.session payload with ⟨h, h'⟩ | ⟨h, h', h''⟩
        · simp [h, h', hnone]
        · simp [h, h', h'', hnone]
  | completes sdp =>
    unfold Viewer.World.step
    cases hrunning : v.running with
    | none => simp
    | some a =>
      obtain ⟨hsent, hoffering⟩ := resume_offers v.session sdp a
      dsimp only
      rw [List.filterMap_append, sentBy_completed, List.nil_append, sentBy_events, offersLeft, offersLeft,
        hrunning, hsent]
      dsimp only
      omega
  | throws =>
    exact Nat.le_add_right _ _
  | close =>
    have hclose : v.session.close.session.offerSent = v.session.offerSent := by
      unfold Viewer.Session.close
      split_ifs <;> rfl
    rw [offersLeft, offersLeft]
    show (if v.session.close.session.offerSent then 0 else 1) + offering v.running + 0 ≤ _
    rw [hclose]
    exact Nat.le_refl _

/-! ### The way to the agent -/

/-- What is on its way from the phone to the agent, in order. -/
def World.pipe (w : World) : List Json := w.queue .agent ++ w.socket .controller

/-- The documents on the way to the agent are of these kinds. -/
inductive Honest (j : Json) : Prop
  | presence (role) (h : deserializePayload j = some (.peerJoined role))
  | offer (sdp) (h : deserializePayload j = some (.offer sdp))
  | candidate (line idx) (h : deserializePayload j = some (.iceCandidate line idx))

/-- Until both peers have joined, nothing is on the way and the viewer session is idle; from then on the
agent has the announcement of the phone before everything else. -/
structure Wired (w : World) : Prop where
  apart : ∀ role, w.joined role = false → w.viewer = {} ∧ w.gathering = false ∧
    (∀ role, w.queue role = []) ∧ w.socket .controller = []
  silent : w.joined .agent = false → w.socket .agent = []
  honest : ∀ j ∈ w.pipe, Honest j
  waits : (∀ role, w.joined role = true) → w.agent.phase = .waitingForPeer →
    ∃ rest, w.pipe = presence .controller :: rest
  role : w.agent.role = .agent
  opened : w.agent.phase ≠ .closed

/-- The message an action of the agent is about. -/
def acts : NegotiationAction → Option Message
  | .createAnswer sdp => some (.offer sdp)
  | .addIceCandidate candidate sdpMLineIndex => some (.candidate (candidate, sdpMLineIndex))
  | _ => none

/-- What a step does on the way to the agent. -/
inductive Moves (w w' : World) : List Event → Prop
  | quiet (hpipe : w'.pipe = w.pipe) : Moves w w' []
  | announces (hpipe : w'.pipe = w.pipe ++ [presence .controller]) : Moves w w' []
  | offers (sdp) (hpipe : w'.pipe = w.pipe ++ [(Mobile.SignalPayload.offer sdp).toJson]) :
      Moves w w' [.offered sdp]
  | fires (line idx mid) (hpipe : w'.pipe = w.pipe ++ [(candidatePayload line idx mid).toJson]) :
      Moves w w' [.fired (line, idx.getD 0)]
  | reads (j a) (hpipe : w.pipe = j :: w'.pipe) (ha : message j = acts a) : Moves w w' [.acted a]

section Steps
variable {w : World}

theorem pipe_send_controller (w : World) (docs : List Json) :
    (w.send .controller docs).pipe = w.pipe ++ docs := by
  simp [World.send, World.pipe]

theorem pipe_send_agent (w : World) (docs : List Json) : (w.send .agent docs).pipe = w.pipe := by
  simp [World.send, World.pipe]

/-- Where something is on its way, both peers have joined. -/
theorem Wired.joined (hw : Wired w) (h : w.gathering = true ∨ w.socket .controller ≠ [] ∨
    ∃ role, w.queue role ≠ []) (role : Role) : w.joined role = true := by
  cases hj : w.joined role with
  | true => rfl
  | false =>
    obtain ⟨-, hgathering, hqueue, hsocket⟩ := hw.apart role hj
    rcases h with h | h | ⟨r, h⟩
    · rw [hgathering] at h
      cases h
    · exact absurd hsocket h
    · exact absurd (hqueue r) h

/-- A step of joined peers that adds to the way and leaves the agent. -/
theorem Wired.extends {w' : World} (hw : Wired w) (hall : ∀ role, w.joined role = true)
    (hjoined : w'.joined = w.joined) (hagent : w'.agent = w.agent) {docs : List Json}
    (hpipe : w'.pipe = w.pipe ++ docs) (hdocs : ∀ j ∈ docs, Honest j) : Wired w' := by
  constructor
  · intro role hrole
    rw [hjoined, hall role] at hrole
    cases hrole
  · intro hrole
    rw [hjoined, hall .agent] at hrole
    cases hrole
  · intro j hj
    rw [hpipe] at hj
    rcases List.mem_append.1 hj with hj | hj
    · exact hw.honest j hj
    · exact hdocs j hj
  · intro _ hphase
    rw [hagent] at hphase
    obtain ⟨rest, hrest⟩ := hw.waits hall hphase
    exact ⟨rest ++ docs, by rw [hpipe, hrest, List.cons_append]⟩
  · rw [hagent]
    exact hw.role
  · rw [hagent]
    exact hw.opened

/-- The state and what the step does. -/
structure Keeps (w : World) (r : World × List Event) : Prop where
  wired : Wired r.1
  moves : Moves w r.1 r.2

theorem Wired.keeps (hw : Wired w) : Keeps w (w, []) := ⟨hw, .quiet rfl⟩

theorem Wired.aside {w' : World} (hw : Wired w) (hall : ∀ role, w.joined role = true)
    (hjoined : w'.joined = w.joined) (hagent : w'.agent = w.agent) (hpipe : w'.pipe = w.pipe) :
    Keeps w (w', []) := by
  have hnil : w'.pipe = w.pipe ++ [] := by rw [hpipe, List.append_nil]
  exact ⟨hw.extends hall hjoined hagent hnil (by simp), .quiet hpipe⟩

theorem joined_all {f : Role → Bool} (role : Role) (h : f role = true) (h' : f role.other = true)
    (r : Role) : f r = true := by
  by_cases hr : r = role
  · rw [hr, h]
  · rw [Role.eq_other hr, h']

theorem keeps_join (hw : Wired w) (role : Role) : Keeps w (w.join role, []) := by
  unfold World.join
  by_cases hj : w.joined role = true
  · rw [if_pos hj]
    exact hw.keeps
  rw [if_neg hj]
  obtain ⟨hviewer, hgathering, hqueue, hsocket⟩ := hw.apart role (by simpa using hj)
  have hempty : w.pipe = [] := by simp [World.pipe, hqueue, hsocket]
  dsimp only
  by_cases hother : w.joined role.other = true
  · rw [if_pos hother]
    have hboth (r : Role) : Function.update w.joined role true r = true :=
      joined_all role (Function.update_self ..)
        (by rw [Function.update_of_ne role.other_ne, hother]) r
    have hpipe : World.pipe ({ w with
        joined := Function.update w.joined role true
        queue := fun r => w.queue r ++ [presence r.other] } : World) = [presence .controller] := by
      simp [World.pipe, hqueue, hsocket, Role.other]
    constructor
    · constructor
      · intro r hr
        exact absurd hr (by simp [hboth r])
      · intro hr
        exact absurd hr (by simp [hboth .agent])
      · intro j hmem
        rw [hpipe, List.mem_singleton] at hmem
        exact .presence _ (hmem ▸ deserialize_presence _)
      · exact fun _ _ => ⟨[], hpipe⟩
      · exact hw.role
      · exact hw.opened
    · exact .announces (by rw [hpipe, hempty, List.nil_append])
  · rw [if_neg hother]
    refine ⟨⟨fun _ _ => ⟨hviewer, hgathering, hqueue, hsocket⟩, fun hagent => hw.silent ?_, hw.honest,
      fun hboth => ?_, hw.role, hw.opened⟩, .quiet rfl⟩
    · -- the agent has not joined now, so it had not before
      dsimp only at hagent
      rw [Function.update_apply] at hagent
      split_ifs at hagent
      exact hagent
    · have hjoined := hboth role.other
      dsimp only at hjoined
      rw [Function.update_of_ne role.other_ne] at hjoined
      exact absurd hjoined hother

theorem keeps_relay (hw : Wired w) (role : Role) : Keeps w (w.relay role, []) := by
  unfold World.relay
  cases hsocket : w.socket role with
  | nil => exact hw.keeps
  | cons j rest =>
    dsimp only
    cases role with
    | controller =>
      -- something was sent, so the agent is there
      have hall := hw.joined (.inr (.inl (by rw [hsocket]; simp)))
      rw [Role.other, if_pos (hall .agent)]
      have hpipe : World.pipe ({ w with
          socket := Function.update w.socket .controller rest
          queue := Function.update w.queue .agent (w.queue .agent ++ [j]) } : World) = w.pipe := by
        simp [World.pipe, hsocket]
      exact hw.aside hall rfl rfl hpipe
    | agent =>
      have hagent : w.joined .agent = true := by
        by_contra hne
        rw [hw.silent (by simpa using hne)] at hsocket
        cases hsocket
      rw [Role.other]
      by_cases hcontroller : w.joined .controller = true
      · rw [if_pos hcontroller]
        have hpipe : World.pipe ({ w with
            socket := Function.update w.socket .agent rest
            queue := Function.update w.queue .controller (w.queue .controller ++ [j]) } : World) =
            w.pipe := by
          simp [World.pipe]
        have hall (r : Role) := joined_all .agent hagent hcontroller r
        exact hw.aside hall rfl rfl hpipe
      · rw [if_neg hcontroller]
        have hpipe : World.pipe ({ w with socket := Function.update w.socket .agent rest } : World) =
            w.pipe := by
          simp [World.pipe]
        refine ⟨⟨fun r hr => ?_, fun hr => absurd (hagent.symm.trans hr) (by simp), ?_, ?_, hw.role,
          hw.opened⟩, .quiet hpipe⟩
        · simpa using hw.apart r hr
        · rw [hpipe]
          exact hw.honest
        · rw [hpipe]
          exact hw.waits

theorem keeps_viewerReceives (hw : Wired w) (rt : Mobile.Runtime) :
    Keeps w (w.viewerReceives rt, []) := by
  unfold World.viewerReceives
  cases hqueue : w.queue .controller with
  | nil => exact hw.keeps
  | cons j rest =>
    have hall := hw.joined (.inr (.inr ⟨.controller, by rw [hqueue]; simp⟩))
    dsimp only
    cases World.decode rt j with
    | none =>
      have hpipe : World.pipe ({ w with queue := Function.update w.queue .controller rest } : World) =
          w.pipe := by
        simp [World.pipe]
      exact hw.aside hall rfl rfl hpipe
    | some payload =>
      have hpipe : World.pipe ({ w with
          queue := Function.update w.queue .controller rest
          viewer := (w.viewer.step (.deliver payload)).1 } : World) = w.pipe := by
        simp [World.pipe]
      exact hw.aside hall rfl rfl hpipe

theorem keeps_viewerGoesOn (hw : Wired w) {s : Viewer.Step} (hs : ∀ payload, s ≠ .deliver payload)
    (hclose : s ≠ .close) : Keeps w (w.viewerGoesOn s) := by
  by_cases hall : ∀ role, w.joined role = true
  · unfold World.viewerGoesOn
    dsimp only
    rcases sent_step w.viewer s hs with hsent | ⟨sdp, hsent⟩
    · rw [hsent]
      refine hw.aside hall rfl rfl ?_
      rw [List.map_nil, pipe_send_controller, List.append_nil]
      rfl
    · rw [hsent]
      have hpipe := pipe_send_controller
        { w with viewer := (w.viewer.step s).1, gathering := w.gathering || (w.viewer.step s).2.any setsLocal }
        [(Mobile.SignalPayload.offer sdp).toJson]
      refine ⟨hw.extends hall rfl rfl hpipe fun j hj => ?_, .offers sdp hpipe⟩
      rw [List.mem_singleton.1 hj]
      exact .offer sdp (deserialize_offer sdp)
  · -- the viewer session is idle
    obtain ⟨role, hrole⟩ := not_forall.1 hall
    obtain ⟨hviewer, hgathering, -, -⟩ := hw.apart role (by simpa using hrole)
    have hidle : w.viewer.step s = (w.viewer, []) := by
      rw [hviewer]
      exact idle_step s hs hclose
    have hsame : w.viewerGoesOn s = (w, []) := by
      simp [World.viewerGoesOn, hidle, World.send]
    rw [hsame]
    exact hw.keeps

theorem keeps_fires (hw : Wired w) (hgathering : w.gathering = true) (line : String)
    (sdpMLineIndex : Option UInt16) (sdpMid : Option String) :
    Keeps w (w.send .controller [(candidatePayload line sdpMLineIndex sdpMid).toJson],
      [.fired (line, sdpMLineIndex.getD 0)]) := by
  have hpipe := pipe_send_controller w [(candidatePayload line sdpMLineIndex sdpMid).toJson]
  refine ⟨hw.extends (hw.joined (.inl hgathering)) rfl rfl hpipe fun j hj => ?_, .fires _ _ _ hpipe⟩
  rw [List.mem_singleton.1 hj]
  exact .candidate _ _ (deserialize_candidate line sdpMLineIndex sdpMid)

theorem keeps_agentTrickles (hw : Wired w) (hagent : w.joined .agent = true) (docs : List Json) :
    Keeps w (w.send .agent docs, []) := by
  have hpipe := pipe_send_agent w docs
  refine ⟨⟨fun role hrole => ?_, fun hr => absurd (hagent.symm.trans hr) (by simp), ?_, ?_, hw.role,
    hw.opened⟩, .quiet hpipe⟩
  · obtain ⟨hviewer, hgathering, hqueue, hsocket⟩ := hw.apart role hrole
    exact ⟨hviewer, hgathering, hqueue, by simpa [World.send] using hsocket⟩
  · rw [hpipe]
    exact hw.honest
  · rw [hpipe]
    exact hw.waits

/-- What the agent does with a message from the way: it neither closes nor drops a candidate, unless it
waits for the phone. -/
theorem onSignal_honest {s : NegotiationState} (hrole : s.role = .agent) (hopen : s.phase ≠ .closed)
    {j : Json} (hj : Honest j)
    (hwait : s.phase = .waitingForPeer → ∃ role, deserializePayload j = some (.peerJoined role)) :
    ∃ payload, deserializePayload j = some payload ∧ (s.onSignal payload).2.role = .agent ∧
      (s.onSignal payload).2.phase ≠ .closed ∧ (s.onSignal payload).2.phase ≠ .waitingForPeer ∧
      message j = acts (s.onSignal payload).1 := by
  cases hj with
  | presence role h =>
    refine ⟨_, h, ?_⟩
    simp only [NegotiationState.onSignal, NegotiationState.onPeerJoined, if_neg hopen, hrole]
    by_cases hphase : s.phase = .waitingForPeer
    · simp [hphase, Agent.NegotiationRole.isOfferer, acts, message, h]
    · simp [hphase, hopen, acts, message, h]
  | offer sdp h =>
    refine ⟨_, h, ?_⟩
    simp [NegotiationState.onSignal, NegotiationState.onOffer, hopen, hrole,
      Agent.NegotiationRole.isOfferer, acts, message, h]
  | candidate line idx h =>
    have hphase : s.phase ≠ .waitingForPeer := by
      intro hphase
      obtain ⟨role, hp⟩ := hwait hphase
      rw [h] at hp
      cases hp
    have hice : s.onIce line idx = (.addIceCandidate line idx, s) := by
      unfold NegotiationState.onIce
      cases hp : s.phase <;> first | rfl | exact absurd hp hphase | exact absurd hp hopen
    refine ⟨_, h, ?_⟩
    simp [NegotiationState.onSignal, hice, hphase, hopen, hrole, acts, message, h]

theorem keeps_agentReceives (hw : Wired w) (answer : String) : Keeps w (w.agentReceives answer) := by
  cases hqueue : w.queue .agent with
  | nil =>
    have hsame : w.agentReceives answer = (w, []) := by simp [World.agentReceives, hqueue]
    rw [hsame]
    exact hw.keeps
  | cons j rest =>
    have hall := hw.joined (.inr (.inr ⟨.agent, by rw [hqueue]; simp⟩))
    have hpipe : w.pipe = j :: (rest ++ w.socket .controller) := by
      rw [World.pipe, hqueue, List.cons_append]
    have hwait (hphase : w.agent.phase = .waitingForPeer) :
        ∃ role, deserializePayload j = some (.peerJoined role) := by
      obtain ⟨rest', hrest⟩ := hw.waits hall hphase
      rw [hpipe] at hrest
      obtain ⟨rfl, -⟩ := List.cons.inj hrest
      exact ⟨_, deserialize_presence .controller⟩
    have hj : Honest j := hw.honest j (by rw [hpipe]; simp)
    obtain ⟨payload, hread, hrole, hopen, hphase, hacts⟩ :=
      onSignal_honest hw.role hw.opened hj hwait
    have hnext : ∃ w', w.agentReceives answer = (w', [.acted (w.agent.onSignal payload).1]) ∧
        w'.joined = w.joined ∧ w'.agent = (w.agent.onSignal payload).2 ∧
        w'.pipe = rest ++ w.socket .controller := by
      unfold World.agentReceives
      rw [hqueue]
      dsimp only
      rw [hread]
      dsimp only
      split
      · refine ⟨_, rfl, rfl, rfl, ?_⟩
        rw [pipe_send_agent]
        simp [World.pipe]
      · refine ⟨_, rfl, rfl, rfl, ?_⟩
        simp [World.pipe]
    obtain ⟨w', heq, hjoined, hagent, hpipe'⟩ := hnext
    rw [heq]
    constructor
    · constructor
      · intro role hr
        rw [hjoined, hall role] at hr
        cases hr
      · intro hr
        rw [hjoined, hall .agent] at hr
        cases hr
      · intro j' hj'
        rw [hpipe'] at hj'
        exact hw.honest j' (by rw [hpipe]; exact List.mem_cons_of_mem _ hj')
      · intro _ hwaiting
        rw [hagent] at hwaiting
        exact absurd hwaiting hphase
      · rw [hagent]
        exact hrole
      · rw [hagent]
        exact hopen
    · exact .reads j _ (by rw [hpipe, hpipe']) hacts

theorem keeps_step (hw : Wired w) (rt : Mobile.Runtime) (s : Step) : Keeps w (w.step rt s) := by
  cases s with
  | join role => exact keeps_join hw role
  | relay role => exact keeps_relay hw role
  | viewerReceives => exact keeps_viewerReceives hw rt
  | viewer s =>
    cases s with
    | deliver payload => exact hw.keeps
    | close => exact hw.keeps
    | next => exact keeps_viewerGoesOn (s := .next) hw (by simp) (by simp)
    | completes sdp => exact keeps_viewerGoesOn (s := .completes sdp) hw (by simp) (by simp)
    | throws => exact keeps_viewerGoesOn (s := .throws) hw (by simp) (by simp)
  | fires line sdpMLineIndex sdpMid =>
    unfold World.step
    dsimp only
    by_cases h : w.gathering = false ∨ line = ""
    · rw [if_pos h]
      exact hw.keeps
    · rw [if_neg h]
      exact keeps_fires hw (by simpa using fun hg => h (.inl hg)) line sdpMLineIndex sdpMid
  | agentReceives answer => exact keeps_agentReceives hw answer
  | agentTrickles candidate sdpMLineIndex =>
    unfold World.step
    dsimp only
    by_cases h : w.joined .agent = true
    · rw [if_pos h]
      exact keeps_agentTrickles hw h _
    · rw [if_neg h]
      exact hw.keeps

end Steps

/-! ### Runs -/

def isOffered : Event → Bool
  | .offered _ => true
  | _ => false

def fired : Event → Option Candidate
  | .fired c => some c
  | _ => none

/-- The candidate an event hands to the agent's peer connection. -/
def added : Event → Option Candidate
  | .acted (.addIceCandidate candidate sdpMLineIndex) => some (candidate, sdpMLineIndex)
  | _ => none

def Message.candidate? : Message → Option Candidate
  | .candidate c => some c
  | .offer _ => none

/-- Every candidate sent is handed to the peer connection once, and in order, or still on its way. There
is one offer at most, and none is handed over before the offer has been answered. -/
structure Trickled (p : World × List Event) : Prop where
  conserved : p.2.filterMap fired =
    p.2.filterMap added ++ p.1.pipe.filterMap fun j => (message j).bind Message.candidate?
  offersOnce : p.2.countP isOffered ≤ 1
  answersFirst : Run.Follows (fun h e => added e ≠ none →
    ∃ sdp, .offered sdp ∈ h ∧ .acted (.createAnswer sdp) ∈ h) p.2

/-- A candidate is reported after the offer has been sent. -/
def OfferedFirst (p : World × List Event) : Step → Prop
  | .fires line _ _ => p.1.gathering = true → line ≠ "" → ∃ sdp, .offered sdp ∈ p.2
  | _ => True

/-- What an event sends to the agent. -/
def sent : Event → Option Message
  | .offered sdp => some (.offer sdp)
  | .fired c => some (.candidate c)
  | .acted _ => none

/-- What the agent has read by an event. -/
def read : Event → Option Message
  | .acted a => acts a
  | _ => none

structure Delivers (p : World × List Event) : Prop where
  wired : Wired p.1
  fifo : p.2.filterMap sent = p.2.filterMap read ++ p.1.pipe.filterMap message
  once : offersLeft p.1.viewer + p.2.countP isOffered ≤ 1

theorem Moves.fifo {w w' : World} {evs : List Event} (hm : Moves w w' evs) :
    w.pipe.filterMap message ++ evs.filterMap sent =
      evs.filterMap read ++ w'.pipe.filterMap message := by
  cases hm with
  | quiet hpipe => simp [hpipe]
  | announces hpipe => simp [hpipe, message, deserialize_presence]
  | offers sdp hpipe => simp [hpipe, message, deserialize_offer, sent, read]
  | fires line idx mid hpipe => simp [hpipe, message, deserialize_candidate, sent, read]
  | reads j a hpipe ha =>
    rw [hpipe, List.filterMap_cons, ha]
    cases hacts : acts a <;> simp [sent, read, hacts]

theorem viewer_join (w : World) (role : Role) : (w.join role).viewer = w.viewer := by
  unfold World.join
  split_ifs <;> rfl

theorem viewer_relay (w : World) (role : Role) : (w.relay role).viewer = w.viewer := by
  unfold World.relay
  cases w.socket role with
  | nil => rfl
  | cons j rest =>
    dsimp only
    split_ifs <;> rfl

theorem offersLeft_world (rt : Mobile.Runtime) (w : World) (s : Step) :
    offersLeft (w.step rt s).1.viewer + (w.step rt s).2.countP isOffered ≤ offersLeft w.viewer := by
  have hgoesOn (s : Viewer.Step) : offersLeft (w.viewerGoesOn s).1.viewer +
      (w.viewerGoesOn s).2.countP isOffered ≤ offersLeft w.viewer := by
    have hleft := offersLeft_step w.viewer s
    have hcount : (w.viewerGoesOn s).2.countP isOffered ≤ ((w.viewer.step s).2.filterMap sentBy).length :=
      List.countP_le_length.trans (List.length_filterMap_le _ _)
    show offersLeft (w.viewer.step s).1 + _ ≤ _
    omega
  cases s with
  | join role => exact Nat.le_of_eq (congrArg offersLeft (viewer_join w role))
  | relay role => exact Nat.le_of_eq (congrArg offersLeft (viewer_relay w role))
  | viewerReceives =>
    show offersLeft (w.viewerReceives rt).viewer ≤ _
    unfold World.viewerReceives
    cases w.queue .controller with
    | nil => exact Nat.le_refl _
    | cons j rest =>
      dsimp only
      cases World.decode rt j with
      | none => exact Nat.le_refl _
      | some payload => exact (Nat.le_add_right _ _).trans (offersLeft_step w.viewer (.deliver payload))
  | viewer s =>
    cases s with
    | deliver payload => exact Nat.le_refl _
    | close => exact Nat.le_refl _
    | next => exact hgoesOn .next
    | completes sdp => exact hgoesOn (.completes sdp)
    | throws => exact hgoesOn .throws
  | fires line sdpMLineIndex sdpMid =>
    unfold World.step
    dsimp only
    split_ifs <;> exact Nat.le_refl _
  | agentReceives answer =>
    show offersLeft (w.agentReceives answer).1.viewer + (w.agentReceives answer).2.countP isOffered ≤ _
    unfold World.agentReceives
    cases w.queue .agent with
    | nil => exact Nat.le_refl _
    | cons j rest =>
      dsimp only
      cases deserializePayload j with
      | none => exact Nat.le_refl _
      | some payload =>
        dsimp only
        split <;> exact Nat.le_refl _
  | agentTrickles candidate sdpMLineIndex =>
    unfold World.step
    dsimp only
    split_ifs <;> exact Nat.le_refl _

theorem delivers_step (rt : Mobile.Runtime) {p : World × List Event} (hp : Delivers p) (s : Step) :
    Delivers (Run.record (World.step rt) p s) := by
  obtain ⟨w, h⟩ := p
  obtain ⟨hwired, hmoves⟩ := keeps_step hp.wired rt s
  constructor
  · exact hwired
  · show (h ++ (w.step rt s).2).filterMap sent = _
    rw [List.filterMap_append, hp.fifo, List.append_assoc, hmoves.fifo, ← List.append_assoc,
      ← List.filterMap_append]
    rfl
  · have hleft := offersLeft_world rt w s
    have honce := hp.once
    show offersLeft (w.step rt s).1.viewer + (h ++ (w.step rt s).2).countP isOffered ≤ 1
    rw [List.countP_append]
    dsimp only at honce
    omega

theorem delivers_init : Delivers ({}, []) where
  wired := by
    constructor
    · exact fun _ _ => ⟨rfl, rfl, fun _ => rfl, rfl⟩
    · exact fun _ => rfl
    · simp [World.pipe]
    · exact fun hall => absurd (hall .agent) (by simp)
    · rfl
    · simp [NegotiationState.new]
  fifo := rfl
  once := Nat.le_refl _

/-- No candidate gets lost, in any run. -/
theorem delivers_run (rt : Mobile.Runtime) (l : List Step) : Delivers (run rt l) :=
  Run.invariant (I := Delivers) (fun _ s hp => delivers_step rt hp s) delivers_init l

/-- Where something has been sent to the agent, the offer is the first. -/
def Led (h : List Event) : Prop := ∀ m ms, h.filterMap sent = m :: ms → ∃ sdp, m = .offer sdp

theorem Led.concat {h : List Event} (hh : Led h) {e : Event}
    (he : ∀ c, e = .fired c → ∃ sdp, .offered sdp ∈ h) : Led (h ++ [e]) := by
  intro m ms heq
  rw [List.filterMap_append] at heq
  cases hsent : h.filterMap sent with
  | cons m' ms' =>
    rw [hsent, List.cons_append] at heq
    obtain ⟨rfl, -⟩ := List.cons.inj heq
    exact hh _ _ hsent
  | nil =>
    rw [hsent, List.nil_append] at heq
    cases e with
    | offered sdp =>
      obtain ⟨rfl, -⟩ := List.cons.inj heq
      exact ⟨sdp, rfl⟩
    | fired c =>
      -- the offer was sent before, so this is not the first
      obtain ⟨sdp, hmem⟩ := he c rfl
      have hfirst : Message.offer sdp ∈ h.filterMap sent := List.mem_filterMap.2 ⟨_, hmem, rfl⟩
      rw [hsent] at hfirst
      cases hfirst
    | acted a => cases heq

/-- Where the offer leads, what the agent reads after something it acted on follows the answer. -/
theorem Led.answered {p : World × List Event} (hp : Delivers p) (hled : Led p.2) {j : Json}
    {rest : List Json} (hpipe : p.1.pipe = j :: rest) {c : Candidate}
    (hj : message j = some (.candidate c)) :
    ∃ sdp, .offered sdp ∈ p.2 ∧ .acted (.createAnswer sdp) ∈ p.2 := by
  have hfifo := hp.fifo
  rw [hpipe, List.filterMap_cons, hj] at hfifo
  dsimp only at hfifo
  cases hread : p.2.filterMap read with
  | nil =>
    rw [hread, List.nil_append] at hfifo
    obtain ⟨sdp, heq⟩ := hled _ _ hfifo
    cases heq
  | cons m ms =>
    rw [hread, List.cons_append] at hfifo
    obtain ⟨sdp, rfl⟩ := hled _ _ hfifo
    refine ⟨sdp, ?_, ?_⟩
    · have hmem : Message.offer sdp ∈ p.2.filterMap sent := by rw [hfifo]; simp
      obtain ⟨e, he, hsent⟩ := List.mem_filterMap.1 hmem
      cases e with
      | offered sdp' =>
        obtain rfl := Message.offer.inj (Option.some.inj hsent)
        exact he
      | fired c => cases hsent
      | acted a => cases hsent
    · have hmem : Message.offer sdp ∈ p.2.filterMap read := by rw [hread]; simp
      obtain ⟨e, he, hacts⟩ := List.mem_filterMap.1 hmem
      cases e with
      | acted a =>
        cases a with
        | createAnswer sdp' =>
          obtain rfl := Message.offer.inj (Option.some.inj hacts)
          exact he
        | _ => cases hacts
      | offered sdp' => cases hacts
      | fired c => cases hacts

theorem fired_step {rt : Mobile.Runtime} {w : World} {s : Step} {c : Candidate}
    (h : .fired c ∈ (w.step rt s).2) :
    ∃ line idx mid, s = .fires line idx mid ∧ w.gathering = true ∧ line ≠ "" := by
  cases s with
  | fires line sdpMLineIndex sdpMid =>
    refine ⟨_, _, _, rfl, ?_⟩
    unfold World.step at h
    dsimp only at h
    by_cases hno : w.gathering = false ∨ line = ""
    · rw [if_pos hno] at h
      cases h
    · simpa using hno
  | viewer s =>
    have hgoesOn (s : Viewer.Step) : .fired c ∉ (w.viewerGoesOn s).2 := by
      intro hmem
      obtain ⟨payload, -, hoffered⟩ := List.mem_filterMap.1 hmem
      cases payload <;> cases hoffered
    cases s with
    | deliver payload => cases h
    | close => cases h
    | next => exact absurd h (hgoesOn .next)
    | completes sdp => exact absurd h (hgoesOn (.completes sdp))
    | throws => exact absurd h (hgoesOn .throws)
  | agentReceives answer =>
    have hreads : .fired c ∉ (w.agentReceives answer).2 := by
      unfold World.agentReceives
      cases w.queue .agent with
      | nil => simp
      | cons j rest =>
        dsimp only
        cases deserializePayload j with
        | none => simp
        | some payload =>
          dsimp only
          split <;> simp
    exact absurd h hreads
  | agentTrickles candidate sdpMLineIndex =>
    unfold World.step at h
    dsimp only at h
    split_ifs at h <;> cases h
  | _ => cases h

/-! ### The result -/

structure Ordered (p : World × List Event) : Prop where
  delivers : Delivers p
  led : Led p.2
  answersFirst : Run.Follows (fun h e => added e ≠ none →
    ∃ sdp, .offered sdp ∈ h ∧ .acted (.createAnswer sdp) ∈ h) p.2

theorem ordered_step (rt : Mobile.Runtime) {p : World × List Event} (hp : Ordered p) (s : Step)
    (hs : OfferedFirst p s) : Ordered (Run.record (World.step rt) p s) := by
  obtain ⟨w, h⟩ := p
  have hfired (c : Candidate) (hmem : .fired c ∈ (w.step rt s).2) : ∃ sdp, .offered sdp ∈ h := by
    obtain ⟨line, idx, mid, rfl, hgathering, hline⟩ := fired_step hmem
    exact hs hgathering hline
  have hmoves := (keeps_step hp.delivers.wired rt s).moves
  refine ⟨delivers_step rt hp.delivers s, ?_, ?_⟩
  · show Led (h ++ (w.step rt s).2)
    generalize (w.step rt s).1 = w', (w.step rt s).2 = evs at hmoves hfired
    cases hmoves with
    | quiet => simpa using hp.led
    | announces => simpa using hp.led
    | offers sdp => exact hp.led.concat (by simp)
    | fires line idx mid =>
      refine hp.led.concat fun c hc => ?_
      exact hfired c (by rw [hc]; simp)
    | reads j a => exact hp.led.concat (by simp)
  · show Run.Follows _ (h ++ (w.step rt s).2)
    generalize (w.step rt s).1 = w', (w.step rt s).2 = evs at hmoves
    cases hmoves with
    | quiet => simpa using hp.answersFirst
    | announces => simpa using hp.answersFirst
    | offers sdp => exact hp.answersFirst.concat (by simp [added])
    | fires line idx mid => exact hp.answersFirst.concat (by simp [added])
    | reads j a hpipe ha =>
      refine hp.answersFirst.concat fun hadd => ?_
      cases a with
      | addIceCandidate candidate idx => exact hp.led.answered hp.delivers hpipe ha
      | _ => exact absurd rfl hadd

theorem candidates_sent (h : List Event) :
    (h.filterMap sent).filterMap Message.candidate? = h.filterMap fired := by
  rw [List.filterMap_filterMap]
  refine List.filterMap_congr fun e _ => ?_
  cases e <;> rfl

theorem candidates_read (h : List Event) :
    (h.filterMap read).filterMap Message.candidate? = h.filterMap added := by
  rw [List.filterMap_filterMap]
  refine List.filterMap_congr fun e _ => ?_
  cases e with
  | acted a => cases a <;> rfl
  | _ => rfl

/-- No candidate gets lost, in any run: each is handed over once, in order, or still on its way. -/
theorem conserved_run (rt : Mobile.Runtime) (l : List Step) :
    (run rt l).2.filterMap fired = (run rt l).2.filterMap added ++
      (run rt l).1.pipe.filterMap fun j => (message j).bind Message.candidate? := by
  have hfifo := congrArg (List.filterMap Message.candidate?) (delivers_run rt l).fifo
  rw [List.filterMap_append, candidates_sent, candidates_read, List.filterMap_filterMap] at hfifo
  exact hfifo

/-- Where candidates are reported after the offer has been sent, none is added too early. -/
theorem trickled_of_offered (rt : Mobile.Runtime) {l : List Step}
    (h : Run.Guarded (Run.record (World.step rt)) OfferedFirst ({}, []) l) : Trickled (run rt l) := by
  have hordered : Ordered (run rt l) :=
    h.invariant (I := Ordered) (fun _ s hp hs => ordered_step rt hp s hs)
      ⟨delivers_init, fun _ _ heq => (by cases heq), Run.follows_nil⟩
  have honce := hordered.delivers.once
  exact ⟨conserved_run rt l, by omega, hordered.answersFirst⟩

/-- Both peers join and the phone makes its offer. -/
def negotiates : List Step :=
  [.join .agent, .join .controller, .viewerReceives, .viewer .next, .viewer (.completes "sdp")]

def dart : Mobile.Runtime where
  toInt
    | .int neg n => some (if neg then -n else n)
    | .dec .. => none
  toStr _ := ""

def trickles : List Step :=
  negotiates ++ [.viewer (.completes ""), .fires "candidate:1" none none, .relay .controller,
    .relay .controller, .agentReceives "answer", .agentReceives "answer", .agentReceives "answer"]

theorem trickled_trickles : Trickled (run dart trickles) := by
  refine trickled_of_offered dart ⟨trivial, trivial, trivial, trivial, trivial, trivial, ?_, trivial,
    trivial, trivial, trivial, trivial, trivial⟩
  intro _ _
  exact ⟨"sdp", List.mem_of_getElem? (i := 0) (by rfl)⟩

/-- A candidate is reported before `setLocalDescription` completes. -/
def early : List Step :=
  negotiates ++ [.fires "candidate:1" none none, .relay .controller, .agentReceives "answer",
    .agentReceives "answer"]

theorem early_candidate : ¬ Trickled (run dart early) := by
  intro h
  have hhistory : (run dart early).2 = [.fired ("candidate:1", 0), .acted .none,
      .acted (.addIceCandidate "candidate:1" 0)] := by rfl
  have hlast := h.answersFirst [.fired ("candidate:1", 0), .acted .none]
    (.acted (.addIceCandidate "candidate:1" 0)) [] hhistory
  obtain ⟨sdp, hoffered, -⟩ := hlast (by simp [added])
  simp at hoffered

end DeskSync.Session.Trickle
