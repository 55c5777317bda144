import Mathlib.Data.Nat.Notation

/-!
# The signaling messages of the agent

`SignalPayload` and `SignalEnvelope` as the agent's transport crate declares them. `kind` is the tag the
serialized payload carries.
-/

namespace DeskSync.Agent

inductive SignalPayload
  | offer (sdp : String)
  | answer (sdp : String)
  | iceCandidate (candidate : String) (sdpMLineIndex : UInt16)
  | heartbeat
  | bye
  | peerJoined (role : String)
  | peerLeft (role : String)
  deriving DecidableEq

/-- `#[serde(tag = "kind", rename_all = "snake_case")]`. -/
def SignalPayload.kind : SignalPayload → String
  | .offer _ => "offer"
  | .answer _ => "answer"
  | .iceCandidate .. => "ice_candidate"
  | .heartbeat => "heartbeat"
  | .bye => "bye"
  | .peerJoined _ => "peer_joined"
  | .peerLeft _ => "peer_left"

structure SignalEnvelope where
  v : UInt8
  nonce : UInt64
  tsMs : UInt64
  sessionID : String
  payload : SignalPayload
  deriving DecidableEq

/-- `SignalEnvelope::new`; `nowMs` is the clock. -/
def SignalEnvelope.new (sessionID : String) (nonce nowMs : UInt64) (payload : SignalPayload) :
    SignalEnvelope where
  v := 1
  nonce
  tsMs := nowMs
  sessionID
  payload

/-! ### The replay guard -/

structure ReplayGuard where
  lastNonce : Option UInt64 := none

def ReplayGuard.accept (g : ReplayGuard) (nonce : UInt64) : Bool × ReplayGuard :=
  match g.lastNonce with
  | some last => if nonce ≤ last then (false, g) else (true, { lastNonce := some nonce })
  | none => (true, { lastNonce := some nonce })

/-- A nonce is accepted, and kept, if it is above the last one. -/
theorem ReplayGuard.accept_iff {g : ReplayGuard} {nonce : UInt64} :
    (g.accept nonce).1 = true ↔ ∀ last ∈ g.lastNonce, last < nonce := by
  unfold accept
  cases g.lastNonce with
  | none => simp
  | some last => by_cases h : nonce ≤ last <;> simp [h, UInt64.not_le.1, UInt64.not_lt]

theorem ReplayGuard.accept_true {g : ReplayGuard} {nonce : UInt64} (h : (g.accept nonce).1 = true) :
    (g.accept nonce).2.lastNonce = some nonce := by
  unfold accept at h ⊢
  cases hlast : g.lastNonce with
  | none => rfl
  | some last =>
    by_cases hle : nonce ≤ last
    · simp [hlast, hle] at h
    · simp [hle]

/-- The guard accepts every one of the nonces, in this order. -/
def ReplayGuard.acceptsAll : ReplayGuard → List UInt64 → Bool
  | _, [] => true
  | g, nonce :: nonces => (g.accept nonce).1 && (g.accept nonce).2.acceptsAll nonces

/-- What is accepted in full increases strictly, from above the last nonce. -/
theorem ReplayGuard.acceptsAll_iff {g : ReplayGuard} {nonces : List UInt64} :
    g.acceptsAll nonces = true ↔
      (∀ last ∈ g.lastNonce, ∀ n ∈ nonces, last < n) ∧ nonces.Pairwise (· < ·) := by
  induction nonces generalizing g with
  | nil => simp [acceptsAll]
  | cons nonce nonces ih =>
    rw [acceptsAll, Bool.and_eq_true, ih, List.pairwise_cons]
    constructor
    · rintro ⟨hfirst, hrest, hpairwise⟩
      rw [accept_true hfirst] at hrest
      have habove := hrest nonce rfl
      rw [accept_iff] at hfirst
      refine ⟨fun last hlast n hn => ?_, habove, hpairwise⟩
      rcases List.mem_cons.1 hn with rfl | hn
      · exact hfirst last hlast
      · exact UInt64.lt_trans (hfirst last hlast) (habove n hn)
    · rintro ⟨hlast, habove, hpairwise⟩
      have hfirst : (g.accept nonce).1 = true := accept_iff.2 fun last hl => hlast last hl nonce List.mem_cons_self
      refine ⟨hfirst, ?_, hpairwise⟩
      rw [accept_true hfirst]
      rintro _ ⟨⟩ n hn
      exact habove n hn

end DeskSync.Agent
