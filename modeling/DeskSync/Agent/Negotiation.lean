import DeskSync.Agent.Signal
import DeskSync.Lib.Run

/-!
# The negotiation state machine of the agent

`NegotiationState` is fed signaling payloads, `on_connected` and `close`, and answers each with the
action the runtime is to perform. `Move` lists what an event can do, one constructor a branch; every
event does one of these (`move`).

A run is a list of events on a fresh machine. Its history keeps, for every event, the action and the
states before and after it, and `Safe` states about it what the negotiation relies on:
`negotiation_safe`.
-/

namespace DeskSync.Agent

inductive NegotiationRole
  | controller
  | agent
  deriving DecidableEq

def NegotiationRole.isOfferer : NegotiationRole → Bool
  | .controller => true
  | .agent => false

inductive Phase
  | waitingForPeer
  | readyToNegotiate
  | offered
  | connecting
  | connected
  | closed
  deriving DecidableEq

inductive NegotiationAction
  | none
  | createOffer
  | createAnswer (sdp : String)
  | applyAnswer (sdp : String)
  | addIceCandidate (candidate : String) (sdpMLineIndex : UInt16)
  | close
  deriving DecidableEq

structure NegotiationState where
  role : NegotiationRole
  phase : Phase
  peerPresent : Bool
  deriving DecidableEq

namespace NegotiationState

def new (role : NegotiationRole) : NegotiationState where
  role
  phase := .waitingForPeer
  peerPresent := false

def close (s : NegotiationState) : NegotiationAction × NegotiationState :=
  if s.phase = .closed then (.none, s)
  else (.close, { s with phase := .closed, peerPresent := false })

def onConnected (s : NegotiationState) : NegotiationState :=
  if s.phase ≠ .closed then { s with phase := .connected } else s

def onPeerJoined (s : NegotiationState) : NegotiationAction × NegotiationState :=
  if s.phase = .closed then (.none, s)
  else
    let s := { s with peerPresent := true }
    if s.phase = .waitingForPeer then
      let s := { s with phase := .readyToNegotiate }
      if s.role.isOfferer then (.createOffer, { s with phase := .offered }) else (.none, s)
    else (.none, s)

def onOffer (s : NegotiationState) (sdp : String) : NegotiationAction × NegotiationState :=
  if s.role.isOfferer ∨ s.phase = .closed then (.none, s)
  else (.createAnswer sdp, { s with phase := .connecting })

def onAnswer (s : NegotiationState) (sdp : String) : NegotiationAction × NegotiationState :=
  if ¬ s.role.isOfferer ∨ s.phase ≠ .offered then (.none, s)
  else (.applyAnswer sdp, { s with phase := .connecting })

def onIce (s : NegotiationState) (candidate : String) (idx : UInt16) :
    NegotiationAction × NegotiationState :=
  match s.phase with
  | .closed | .waitingForPeer => (.none, s)
  | _ => (.addIceCandidate candidate idx, s)

def onSignal (s : NegotiationState) : SignalPayload → NegotiationAction × NegotiationState
  | .peerJoined _ => s.onPeerJoined
  | .peerLeft _ | .bye => s.close
  | .offer sdp => s.onOffer sdp
  | .answer sdp => s.onAnswer sdp
  | .iceCandidate candidate sdpMLineIndex => s.onIce candidate sdpMLineIndex
  | .heartbeat => (.none, s)

end NegotiationState

/-! ### Events -/

/-- What the runtime feeds the machine. -/
inductive NegotiationEvent
  | signal (payload : SignalPayload)
  | connected
  | close
  deriving DecidableEq

/-- The action and the next state; `on_connected` returns no action. -/
def NegotiationState.on (s : NegotiationState) :
    NegotiationEvent → NegotiationAction × NegotiationState
  | .signal payload => s.onSignal payload
  | .connected => (.none, s.onConnected)
  | .close => s.close

/-- What an event does to the machine. -/
inductive Move : NegotiationState → NegotiationEvent → NegotiationAction → NegotiationState → Prop
  | ignores (s e) : Move s e .none s
  | readies (s role) (h : s.phase = .waitingForPeer) (hr : s.role = .agent) :
      Move s (.signal (.peerJoined role)) .none
        { s with peerPresent := true, phase := .readyToNegotiate }
  | offers (s role) (h : s.phase = .waitingForPeer) (hr : s.role = .controller) :
      Move s (.signal (.peerJoined role)) .createOffer
        { s with peerPresent := true, phase := .offered }
  | sees (s role) (h : s.phase ≠ .waitingForPeer) (hc : s.phase ≠ .closed) :
      Move s (.signal (.peerJoined role)) .none { s with peerPresent := true }
  | answers (s sdp) (hr : s.role = .agent) (hc : s.phase ≠ .closed) :
      Move s (.signal (.offer sdp)) (.createAnswer sdp) { s with phase := .connecting }
  | applies (s sdp) (hr : s.role = .controller) (h : s.phase = .offered) :
      Move s (.signal (.answer sdp)) (.applyAnswer sdp) { s with phase := .connecting }
  | adds (s candidate idx) (h : s.phase ≠ .waitingForPeer) (hc : s.phase ≠ .closed) :
      Move s (.signal (.iceCandidate candidate idx)) (.addIceCandidate candidate idx) s
  | connects (s) (hc : s.phase ≠ .closed) : Move s .connected .none { s with phase := .connected }
  | closes (s e) (hc : s.phase ≠ .closed) :
      Move s e .close { s with phase := .closed, peerPresent := false }

theorem move_close (s : NegotiationState) (e : NegotiationEvent) : Move s e s.close.1 s.close.2 := by
  unfold NegotiationState.close
  split_ifs with hc
  · exact .ignores s e
  · exact .closes s e hc

theorem move_onPeerJoined (s : NegotiationState) (role : String) :
    Move s (.signal (.peerJoined role)) s.onPeerJoined.1 s.onPeerJoined.2 := by
  unfold NegotiationState.onPeerJoined
  dsimp only
  by_cases hc : s.phase = .closed
  · rw [if_pos hc]
    exact .ignores s _
  rw [if_neg hc]
  by_cases hw : s.phase = .waitingForPeer
  · rw [if_pos hw]
    cases hr : s.role with
    | controller => simpa [NegotiationRole.isOfferer, hr] using Move.offers s role hw hr
    | agent => simpa [NegotiationRole.isOfferer, hr] using Move.readies s role hw hr
  · rw [if_neg hw]
    exact .sees s role hw hc

theorem move_onOffer (s : NegotiationState) (sdp : String) :
    Move s (.signal (.offer sdp)) (s.onOffer sdp).1 (s.onOffer sdp).2 := by
  unfold NegotiationState.onOffer
  split_ifs with h
  · exact .ignores s _
  · rw [not_or] at h
    refine .answers s sdp ?_ h.2
    cases hr : s.role with
    | agent => rfl
    | controller => simp [NegotiationRole.isOfferer, hr] at h

theorem move_onAnswer (s : NegotiationState) (sdp : String) :
    Move s (.signal (.answer sdp)) (s.onAnswer sdp).1 (s.onAnswer sdp).2 := by
  unfold NegotiationState.onAnswer
  split_ifs with h
  · exact .ignores s _
  · rw [not_or, not_not, not_not] at h
    refine .applies s sdp ?_ h.2
    cases hr : s.role with
    | controller => rfl
    | agent => simp [NegotiationRole.isOfferer, hr] at h

theorem move_onIce (s : NegotiationState) (candidate : String) (idx : UInt16) :
    Move s (.signal (.iceCandidate candidate idx)) (s.onIce candidate idx).1
      (s.onIce candidate idx).2 := by
  unfold NegotiationState.onIce
  split
  · exact .ignores s _
  · exact .ignores s _
  · rename_i hc hw
    exact .adds s candidate idx hw hc

/-- Every event does what one of the branches of `Move` says. -/
theorem move (s : NegotiationState) (e : NegotiationEvent) : Move s e (s.on e).1 (s.on e).2 := by
  cases e with
  | connected =>
    show Move s .connected .none s.onConnected
    unfold NegotiationState.onConnected
    split_ifs with hc
    · exact .connects s hc
    · exact .ignores s _
  | close => exact move_close s _
  | signal payload =>
    cases payload with
    | offer sdp => exact move_onOffer s sdp
    | answer sdp => exact move_onAnswer s sdp
    | iceCandidate candidate idx => exact move_onIce s candidate idx
    | heartbeat => exact .ignores s _
    | bye => exact move_close s _
    | peerJoined role => exact move_onPeerJoined s role
    | peerLeft role => exact move_close s _

/-! ### Histories -/

/-- One event with the states around it. -/
structure Transition where
  src : NegotiationState
  event : NegotiationEvent
  action : NegotiationAction
  dst : NegotiationState
  deriving DecidableEq

def transition (s : NegotiationState) (e : NegotiationEvent) : Option Transition :=
  some ⟨s, e, (s.on e).1, (s.on e).2⟩

def negotiate (s : NegotiationState) (e : NegotiationEvent) : NegotiationState := (s.on e).2

/-- The machine and its history after the events `l`. -/
def negotiation (role : NegotiationRole) (l : List NegotiationEvent) :
    NegotiationState × List Transition :=
  Run.exec (Run.observe negotiate transition) (.new role, []) l

def NegotiationAction.isApplyAnswer : NegotiationAction → Bool
  | .applyAnswer _ => true
  | _ => false

def NegotiationAction.isCreateAnswer : NegotiationAction → Bool
  | .createAnswer _ => true
  | _ => false

def NegotiationAction.isAddIceCandidate : NegotiationAction → Bool
  | .addIceCandidate .. => true
  | _ => false

/-- A presence, an offer or `on_connected` took the machine out of its initial phase. -/
def Transition.Starts (t : Transition) : Prop :=
  t.src.phase = .waitingForPeer ∧ t.dst.phase ≠ .waitingForPeer ∧
    ((∃ role, t.event = .signal (.peerJoined role)) ∨ (∃ sdp, t.event = .signal (.offer sdp)) ∨
      t.event = .connected)

structure Safe (role : NegotiationRole) (h : List Transition) : Prop where
  offersOnce : role = .controller → h.countP (fun t => t.action = .createOffer) ≤ 1
  appliesOnce : role = .controller → h.countP (fun t => t.action.isApplyAnswer) ≤ 1
  appliesAfterOffer : role = .controller → Run.Follows (fun h t =>
    t.action.isApplyAnswer = true → ∃ t' ∈ h, t'.action = .createOffer) h
  controllerNeverAnswers : role = .controller → ∀ t ∈ h, t.action.isCreateAnswer = false
  agentNeverOffers : role = .agent → ∀ t ∈ h, t.action ≠ .createOffer ∧ t.action.isApplyAnswer = false
  answersTheOffer : ∀ t ∈ h, ∀ sdp, t.action = .createAnswer sdp → t.event = .signal (.offer sdp)
  addsTheCandidate : ∀ t ∈ h, ∀ candidate idx, t.action = .addIceCandidate candidate idx →
    t.event = .signal (.iceCandidate candidate idx)
  addsAfterStart : Run.Follows (fun h t =>
    t.action.isAddIceCandidate = true → ∃ t' ∈ h, t'.Starts) h
  closesOnce : h.countP (fun t => t.action = .close) ≤ 1
  closesTheMachine : ∀ t ∈ h, t.action = .close → t.dst.phase = .closed
  staysClosed : Run.Follows (fun h t =>
    (∃ t' ∈ h, t'.action = .close) → t.action = .none ∧ t.dst.phase = .closed) h

/-! ### The invariant -/

/-- What the phase says about the history. -/
structure Tracked (role : NegotiationRole) (p : NegotiationState × List Transition) : Prop where
  role : p.1.role = role
  offered : ∀ t ∈ p.2, t.action = .createOffer → p.1.phase ≠ .waitingForPeer
  offering : p.1.phase = .offered → ∃ t ∈ p.2, t.action = .createOffer
  applied : ∀ t ∈ p.2, t.action.isApplyAnswer = true →
    p.1.phase ≠ .waitingForPeer ∧ p.1.phase ≠ .offered
  started : p.1.phase ≠ .waitingForPeer → p.1.phase ≠ .closed → ∃ t ∈ p.2, t.Starts
  closed : ∀ t ∈ p.2, t.action = .close → p.1.phase = .closed

/-- What a transition may be, after the given history. -/
structure Permitted (role : NegotiationRole) (h : List Transition) (t : Transition) : Prop where
  move : Move t.src t.event t.action t.dst
  before : Tracked role (t.src, h)

variable {role : NegotiationRole}

theorem tracked_new (role : NegotiationRole) : Tracked role (.new role, []) where
  role := rfl
  offered := by simp
  offering := by simp [NegotiationState.new]
  applied := by simp
  started := fun h => absurd rfl h
  closed := by simp

/-! What a move does to the phase. -/

section Move
variable {s s' : NegotiationState} {e : NegotiationEvent} {a : NegotiationAction}

theorem Move.role_eq (h : Move s e a s') : s'.role = s.role := by
  cases h <;> rfl

theorem Move.closed (h : Move s e a s') (hs : s.phase = .closed) : a = .none ∧ s'.phase = .closed := by
  cases h <;> simp_all

theorem Move.close (h : Move s e a s') (ha : a = .close) : s.phase ≠ .closed ∧ s'.phase = .closed := by
  cases h <;> simp_all

theorem Move.createOffer (h : Move s e a s') (ha : a = .createOffer) :
    s.role = .controller ∧ s.phase = .waitingForPeer ∧ s'.phase = .offered := by
  cases h <;> simp_all

theorem Move.applyAnswer (h : Move s e a s') (ha : a.isApplyAnswer = true) :
    s.role = .controller ∧ s.phase = .offered ∧ s'.phase = .connecting := by
  cases h <;> simp_all [NegotiationAction.isApplyAnswer]

theorem Move.createAnswer (h : Move s e a s') {sdp : String} (ha : a = .createAnswer sdp) :
    s.role = .agent ∧ e = .signal (.offer sdp) := by
  cases h <;> simp_all

theorem Move.addIceCandidate (h : Move s e a s') {candidate : String} {idx : UInt16}
    (ha : a = .addIceCandidate candidate idx) :
    e = .signal (.iceCandidate candidate idx) ∧ s.phase ≠ .waitingForPeer ∧ s.phase ≠ .closed := by
  cases h <;> simp_all

/-- The initial phase is never entered again. -/
theorem Move.waiting (h : Move s e a s') (hs : s'.phase = .waitingForPeer) :
    s.phase = .waitingForPeer := by
  cases h <;> simp_all

/-- The machine is offering because it was, or has just created the offer. -/
theorem Move.offering (h : Move s e a s') (hs : s'.phase = .offered) :
    s.phase = .offered ∨ a = .createOffer := by
  cases h <;> simp_all

/-- What takes the machine out of its initial phase, other than a close. -/
theorem Move.starts (h : Move s e a s') (hs : s.phase = .waitingForPeer)
    (hw : s'.phase ≠ .waitingForPeer) (hc : s'.phase ≠ .closed) :
    Transition.Starts ⟨s, e, a, s'⟩ := by
  refine ⟨hs, hw, ?_⟩
  cases h <;> simp_all

end Move

/-- The history grows by the transition of the event. -/
theorem Tracked.concat {s s' : NegotiationState} {e : NegotiationEvent} {a : NegotiationAction}
    {h : List Transition} (hp : Tracked role (s, h)) (hm : Move s e a s') :
    Tracked role (s', h ++ [⟨s, e, a, s'⟩]) where
  role := hm.role_eq.trans hp.role
  offered := by
    intro t ht ha
    rcases List.mem_append.1 ht with ht | ht
    · exact fun hw => hp.offered t ht ha (hm.waiting hw)
    · obtain rfl := List.mem_singleton.1 ht
      rw [(hm.createOffer ha).2.2]
      simp
  offering := by
    intro hs
    rcases hm.offering hs with hs | ha
    · obtain ⟨t, ht, ha⟩ := hp.offering hs
      exact ⟨t, List.mem_append_left _ ht, ha⟩
    · exact ⟨_, List.mem_append_right _ (List.mem_singleton_self _), ha⟩
  applied := by
    intro t ht ha
    rcases List.mem_append.1 ht with ht | ht
    · obtain ⟨hw, ho⟩ := hp.applied t ht ha
      refine ⟨fun hw' => hw (hm.waiting hw'), fun ho' => ?_⟩
      rcases hm.offering ho' with ho' | ha'
      · exact ho ho'
      · exact hw (hm.createOffer ha').2.1
    · obtain rfl := List.mem_singleton.1 ht
      rw [(hm.applyAnswer ha).2.2]
      simp
  started := by
    intro hw hc
    by_cases hs : s.phase = .waitingForPeer
    · exact ⟨_, List.mem_append_right _ (List.mem_singleton_self _), hm.starts hs hw hc⟩
    · have hsc : s.phase ≠ .closed := fun hsc => hc (hm.closed hsc).2
      obtain ⟨t, ht, hst⟩ := hp.started hs hsc
      exact ⟨t, List.mem_append_left _ ht, hst⟩
  closed := by
    intro t ht ha
    rcases List.mem_append.1 ht with ht | ht
    · exact (hm.closed (hp.closed t ht ha)).2
    · obtain rfl := List.mem_singleton.1 ht
      exact (hm.close ha).2

theorem tracked_step (p : NegotiationState × List Transition) (e : NegotiationEvent)
    (hp : Tracked role p) : Tracked role (Run.observe negotiate transition p e) :=
  hp.concat (move p.1 e)

theorem permitted_negotiation (role : NegotiationRole) (l : List NegotiationEvent) :
    Run.Follows (Permitted role) (negotiation role l).2 := by
  refine Run.follows_observe tracked_step (fun p e hp t ht => ?_) (tracked_new role) l
  obtain rfl := Option.some.inj ht
  exact ⟨move p.1 e, hp⟩

/-! ### Safety -/

variable {h : List Transition} {t : Transition}

theorem Permitted.createOffer (hp : Permitted role h t) (ha : t.action = .createOffer) :
    role = .controller ∧ ∀ t' ∈ h, t'.action ≠ .createOffer := by
  obtain ⟨hr, hw, -⟩ := hp.move.createOffer ha
  exact ⟨hp.before.role.symm.trans hr, fun t' ht' ha' => hp.before.offered t' ht' ha' hw⟩

theorem Permitted.applyAnswer (hp : Permitted role h t) (ha : t.action.isApplyAnswer = true) :
    role = .controller ∧ (∃ t' ∈ h, t'.action = .createOffer) ∧
      ∀ t' ∈ h, t'.action.isApplyAnswer ≠ true := by
  obtain ⟨hr, ho, -⟩ := hp.move.applyAnswer ha
  exact ⟨hp.before.role.symm.trans hr, hp.before.offering ho,
    fun t' ht' ha' => (hp.before.applied t' ht' ha').2 ho⟩

theorem Permitted.close (hp : Permitted role h t) (ha : t.action = .close) :
    ∀ t' ∈ h, t'.action ≠ .close :=
  fun t' ht' ha' => (hp.move.close ha).1 (hp.before.closed t' ht' ha')

/-- An entry of a history is permitted by what precedes it. -/
theorem permitted_of_mem (hh : Run.Follows (Permitted role) h) (ht : t ∈ h) :
    ∃ h₁, Permitted role h₁ t := by
  obtain ⟨h₁, h₂, heq⟩ := List.append_of_mem ht
  exact ⟨h₁, hh h₁ t h₂ heq⟩

/-- Whatever it is fed, and in whatever order, a fresh machine is safe. -/
theorem negotiation_safe (role : NegotiationRole) (l : List NegotiationEvent) :
    Safe role (negotiation role l).2 := by
  have hh := permitted_negotiation role l
  generalize (negotiation role l).2 = h at hh
  constructor
  case offersOnce =>
    intro _
    refine Run.Follows.countP_le_one (hh.mono fun h t hp ha t' ht' ha' => ?_)
    exact (hp.createOffer (of_decide_eq_true ha)).2 t' ht' (of_decide_eq_true ha')
  case appliesOnce =>
    intro _
    exact Run.Follows.countP_le_one (hh.mono fun h t hp ha => (hp.applyAnswer ha).2.2)
  case appliesAfterOffer =>
    intro _
    exact hh.mono fun h t hp ha => (hp.applyAnswer ha).2.1
  case controllerNeverAnswers =>
    rintro rfl t ht
    obtain ⟨h₁, hp⟩ := permitted_of_mem hh ht
    cases ha : t.action with
    | createAnswer sdp =>
      have hr := (hp.move.createAnswer ha).1
      rw [hp.before.role] at hr
      cases hr
    | _ => rfl
  case agentNeverOffers =>
    rintro rfl t ht
    obtain ⟨h₁, hp⟩ := permitted_of_mem hh ht
    constructor
    · intro ha
      cases (hp.createOffer ha).1
    · by_contra ha
      cases (hp.applyAnswer (by simpa using ha)).1
  case answersTheOffer =>
    intro t ht sdp ha
    obtain ⟨h₁, hp⟩ := permitted_of_mem hh ht
    exact (hp.move.createAnswer ha).2
  case addsTheCandidate =>
    intro t ht candidate idx ha
    obtain ⟨h₁, hp⟩ := permitted_of_mem hh ht
    exact (hp.move.addIceCandidate ha).1
  case addsAfterStart =>
    refine hh.mono fun h t hp ha => ?_
    cases hact : t.action with
    | addIceCandidate candidate idx =>
      obtain ⟨-, hw, hc⟩ := hp.move.addIceCandidate hact
      exact hp.before.started hw hc
    | _ => rw [hact] at ha; cases ha
  case closesOnce =>
    refine Run.Follows.countP_le_one (hh.mono fun h t hp ha t' ht' ha' => ?_)
    exact hp.close (of_decide_eq_true ha) t' ht' (of_decide_eq_true ha')
  case closesTheMachine =>
    intro t ht ha
    obtain ⟨h₁, hp⟩ := permitted_of_mem hh ht
    exact (hp.move.close ha).2
  case staysClosed =>
    rintro h₁ t h₂ heq ⟨t', ht', ha'⟩
    have hp := hh h₁ t h₂ heq
    exact hp.move.closed (hp.before.closed t' ht' ha')

end DeskSync.Agent
