import DeskSync.Lib.Run
import DeskSync.Mobile.Signal

/-!
# The signaling of a viewer session

`WebRtcSession` of the mobile client handles the envelopes it receives one after the other
(`_signalChain`). A handler runs without interruption to its next `await` of the native peer connection,
is suspended there (`Await`) and goes on when the call completes, or ends when it throws: the `catch` of
`_handleSignal` takes every error. Meanwhile envelopes arrive and the session may be closed. `_pc` is set
before the first envelope can arrive.

`close` sets its fields before its first `await`; what it does after that (unsubscribing, saying bye,
closing the channels) is one `Await`.
-/

namespace DeskSync.Viewer

open Mobile (SignalPayload)

structure RTCIceCandidate where
  candidate : String
  sdpMid : String
  sdpMLineIndex : ℤ
  deriving DecidableEq

/-- The negotiation guards. -/
structure Session where
  offerSent : Bool := false
  remoteDescriptionSet : Bool := false
  closed : Bool := false
  pendingRemoteIce : List RTCIceCandidate := []
  deriving DecidableEq

/-- The calls on the native peer connection. -/
inductive Native
  | createOffer
  | setLocalDescription (sdp : String)
  | setRemoteDescription (sdp : String)
  | addCandidate (c : RTCIceCandidate)
  deriving DecidableEq

/-- Where a handler is suspended. -/
inductive Await
  | createOffer
  | setLocalDescription (sdp : String)
  | setRemoteDescription (sdp : String)
  /-- In the loop over `_pendingRemoteIce`, which had `len` elements at its start; the iterator has
  handed out `next` of them, the last one being `c`. -/
  | flush (c : RTCIceCandidate) (next len : ℕ)
  | addCandidate (c : RTCIceCandidate)
  | close
  deriving DecidableEq

/-- The native call that is awaited. -/
def Await.call : Await → Option Native
  | .createOffer => some .createOffer
  | .setLocalDescription sdp => some (.setLocalDescription sdp)
  | .setRemoteDescription sdp => some (.setRemoteDescription sdp)
  | .flush c _ _ => some (.addCandidate c)
  | .addCandidate c => some (.addCandidate c)
  | .close => none

/-- What a handler does up to its next `await`: the fields it leaves, the message it sends and the
`await` it is suspended at, if it has not ended. -/
structure Block where
  session : Session
  sends : Option SignalPayload := none
  awaits : Option Await := none
  deriving DecidableEq

/-- The native candidate of a payload; a missing mid is replaced by the index. -/
def nativeCandidate (candidate : String) (sdpMLineIndex : ℤ) (sdpMid : Option String) :
    RTCIceCandidate where
  candidate
  sdpMid := match sdpMid with
    | some mid => if mid ≠ "" then mid else toString sdpMLineIndex
    | none => toString sdpMLineIndex
  sdpMLineIndex

def Session.close (s : Session) : Block :=
  if s.closed then { session := s }
  else { session := { s with closed := true, pendingRemoteIce := [] }, awaits := some .close }

/-- The loop over `_pendingRemoteIce`, from its `next`-th element on, and the `clear` after it. Its
iterator throws when the length of the list has changed. -/
def Session.flush (s : Session) (next len : ℕ) : Block :=
  if s.pendingRemoteIce.length ≠ len then { session := s }
  else
    match s.pendingRemoteIce[next]? with
    | none => { session := { s with pendingRemoteIce := [] } }
    | some c => { session := s, awaits := some (.flush c (next + 1) len) }

/-- `_handleSignal`, up to its first `await`. -/
def Session.handleSignal (s : Session) (payload : SignalPayload) : Block :=
  if s.closed then { session := s }
  else
    match payload with
    | .peerJoined _ =>
      if s.offerSent then { session := s }
      else { session := { s with offerSent := true }, awaits := some .createOffer }
    | .answer sdp =>
      if s.remoteDescriptionSet then { session := s }
      else { session := s, awaits := some (.setRemoteDescription sdp) }
    | .iceCandidate candidate sdpMLineIndex sdpMid =>
      let c := nativeCandidate candidate sdpMLineIndex sdpMid
      if s.remoteDescriptionSet then { session := s, awaits := some (.addCandidate c) }
      else { session := { s with pendingRemoteIce := s.pendingRemoteIce ++ [c] } }
    | .peerLeft _ | .bye => s.close
    | .offer _ | .heartbeat | .unknown _ => { session := s }

/-- The handler goes on after an `await` that completed; `sdp` is the result of `createOffer`. -/
def Session.resume (s : Session) (sdp : String) : Await → Block
  | .createOffer => { session := s, awaits := some (.setLocalDescription sdp) }
  | .setLocalDescription sdp => { session := s, sends := some (.offer sdp) }
  | .setRemoteDescription _ =>
    let s := { s with remoteDescriptionSet := true }
    s.flush 0 s.pendingRemoteIce.length
  | .flush _ next len => s.flush next len
  | .addCandidate _ | .close => { session := s }

/-! ### Runs -/

/-- The fields, the envelopes whose handling has not started, and the handler in progress. -/
structure World where
  session : Session := {}
  chain : List SignalPayload := []
  running : Option Await := none
  deriving DecidableEq

inductive Step
  /-- An envelope arrives. -/
  | deliver (payload : SignalPayload)
  /-- The handling of the next envelope starts. -/
  | next
  /-- The awaited call completes; `sdp` is the result of `createOffer`. -/
  | completes (sdp : String)
  /-- The awaited call throws. -/
  | throws
  /-- The session is closed from outside. -/
  | close

inductive Event
  | received (c : RTCIceCandidate)
  | calls (n : Native)
  | completed (n : Native)
  | sends (payload : SignalPayload)
  deriving DecidableEq

/-- The candidate an envelope brings. -/
def candidateOf : SignalPayload → Option RTCIceCandidate
  | .iceCandidate candidate sdpMLineIndex sdpMid =>
    some (nativeCandidate candidate sdpMLineIndex sdpMid)
  | _ => none

def Block.events (b : Block) : List Event :=
  (b.sends.map .sends).toList ++ ((b.awaits.bind Await.call).map .calls).toList

def World.step (w : World) : Step → World × List Event
  | .deliver payload =>
    ({ w with chain := w.chain ++ [payload] }, ((candidateOf payload).map .received).toList)
  | .next =>
    match w.running, w.chain with
    | none, payload :: chain =>
      let b := w.session.handleSignal payload
      (⟨b.session, chain, b.awaits⟩, b.events)
    | _, _ => (w, [])
  | .completes sdp =>
    match w.running with
    | none => (w, [])
    | some a =>
      let b := w.session.resume sdp a
      (⟨b.session, w.chain, b.awaits⟩, (a.call.map .completed).toList ++ b.events)
  | .throws => ({ w with running := none }, [])
  | .close => ({ w with session := w.session.close.session }, [])

/-- A session and its history after the steps `l`. -/
def run (l : List Step) : World × List Event := Run.exec (Run.record World.step) ({}, []) l

end DeskSync.Viewer
