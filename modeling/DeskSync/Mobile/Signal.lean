import Mathlib.Data.Int.Notation

/-!
# The signaling messages of the mobile client

`SignalPayload` and `SignalEnvelope` as the Dart client declares them. A payload of a kind the client does
not know is kept as `unknown`, with its kind.
-/

namespace DeskSync.Mobile

inductive SignalPayload
  | offer (sdp : String)
  | answer (sdp : String)
  | iceCandidate (candidate : String) (sdpMLineIndex : ℤ) (sdpMid : Option String)
  | heartbeat
  | bye
  | peerJoined (role : String)
  | peerLeft (role : String)
  | unknown (kind : String)
  deriving DecidableEq

def SignalPayload.kind : SignalPayload → String
  | .offer _ => "offer"
  | .answer _ => "answer"
  | .iceCandidate .. => "ice_candidate"
  | .heartbeat => "heartbeat"
  | .bye => "bye"
  | .peerJoined _ => "peer_joined"
  | .peerLeft _ => "peer_left"
  | .unknown kind => kind

structure SignalEnvelope where
  version : ℤ
  nonce : ℤ
  tsMs : ℤ
  sessionID : String
  payload : SignalPayload
  deriving DecidableEq

end DeskSync.Mobile
