import DeskSync.Agent.Signal
import Mathlib.Logic.Function.Basic

/-!
# The sending half of the agent's signaling transport

`WebSocketSignaling` gives out nonces from a counter, without a lock, and writes one envelope at a time
under the write lock. Two tasks of a session use it: `event_task` trickles the local candidates, and
`signaling_loop` sends the answers. Each takes a nonce, makes its envelope and then sends it, so that
between two steps a task may hold an envelope that is not written yet.
-/

namespace DeskSync.Agent

inductive Task
  | event
  | signalingLoop
  deriving DecidableEq

/-- The nonce counter, and the envelope each task is about to write. -/
structure WebSocketSignaling where
  sessionID : String
  nonce : UInt64 := 0
  held : Task → Option SignalEnvelope := fun _ => none

namespace WebSocketSignaling

/-- `fetch_add(1) + 1`. -/
def nextNonce (s : WebSocketSignaling) : UInt64 × WebSocketSignaling :=
  (s.nonce + 1, { s with nonce := s.nonce + 1 })

/-- A task takes a nonce and makes the envelope, unless it is still sending. -/
def begins (s : WebSocketSignaling) (task : Task) (payload : SignalPayload) (nowMs : UInt64) :
    WebSocketSignaling :=
  match s.held task with
  | some _ => s
  | none =>
    let (nonce, s) := s.nextNonce
    let envelope := SignalEnvelope.new s.sessionID nonce nowMs payload
    { s with held := Function.update s.held task (some envelope) }

/-- A task is done with its envelope. -/
def done (s : WebSocketSignaling) (task : Task) : WebSocketSignaling :=
  { s with held := Function.update s.held task none }

end WebSocketSignaling

end DeskSync.Agent
