import Mathlib.Tactic.SplitIfs

/-!
# The signaling protocol of the backend

The envelope the hub looks into, and the nonce guard of a connection. The hub relays messages as they
are, so the model is over any type `Raw` of messages; `Codec` is what `encoding/json` does with them.
-/

namespace DeskSync.Signaling

/-! ### Roles -/

/-- `signalticket.Role`; a ticket with any other role does not verify. -/
inductive Role
  | controller
  | agent
  deriving DecidableEq

def Role.name : Role → String
  | .controller => "controller"
  | .agent => "agent"

def Role.other : Role → Role
  | .controller => .agent
  | .agent => .controller

theorem Role.eq_other {r r' : Role} (h : r ≠ r') : r = r'.other := by
  cases r <;> cases r' <;> first | rfl | exact absurd rfl h

@[simp] theorem Role.other_ne (r : Role) : r.other ≠ r := by
  cases r <;> simp [Role.other]

@[simp] theorem Role.other_other (r : Role) : r.other.other = r := by
  cases r <;> rfl

/-! ### Envelopes -/

def version : UInt8 := 1

def kindOffer := "offer"
def kindAnswer := "answer"
def kindICECandidate := "ice_candidate"
def kindHeartbeat := "heartbeat"
def kindBye := "bye"
def kindPeerJoined := "peer_joined"
def kindPeerLeft := "peer_left"

/-- The wire envelope; the payload is `none` when it is absent. -/
structure Envelope (Raw : Type) where
  v : UInt8 := 0
  nonce : UInt64 := 0
  tsMs : UInt64 := 0
  sessionID : String := ""
  payload : Option Raw := none

/-- `encoding/json` on the types of this package. -/
structure Codec (Raw : Type) where
  unmarshalEnvelope : Raw → Option (Envelope Raw)
  /-- Into `struct { Kind string }`. -/
  unmarshalKind : Raw → Option String
  marshalEnvelope : Envelope Raw → Raw
  /-- Of a `map[string]string` with the keys `kind` and `role`. -/
  marshalControl : (kind role : String) → Raw

variable {Raw : Type}

def parse (c : Codec Raw) (raw : Raw) : Option (Envelope Raw) :=
  match c.unmarshalEnvelope raw with
  | none => none
  | some e => if e.v ≠ version ∨ e.sessionID = "" ∨ e.payload.isNone then none else some e

def Envelope.kind (c : Codec Raw) (e : Envelope Raw) : String :=
  match e.payload with
  | none => ""
  | some payload => (c.unmarshalKind payload).getD ""

def control (c : Codec Raw) (sessionID kind role : String) : Raw :=
  c.marshalEnvelope { v := version, sessionID, payload := some (c.marshalControl kind role) }

/-! ### The nonce guard -/

structure NonceGuard where
  last : UInt64 := 0
  hasLast : Bool := false
  deriving DecidableEq

def NonceGuard.accept (g : NonceGuard) (nonce : UInt64) : Bool × NonceGuard :=
  if g.hasLast ∧ nonce ≤ g.last then (false, g) else (true, { last := nonce, hasLast := true })

/-- The guard has accepted a nonce no smaller than the given one. -/
def NonceGuard.Reached (g : NonceGuard) (nonce : UInt64) : Prop := g.hasLast = true ∧ nonce ≤ g.last

/-- An accepted nonce is above every nonce accepted before. -/
theorem NonceGuard.accept_true {g : NonceGuard} {nonce : UInt64} (h : (g.accept nonce).1 = true) :
    (g.accept nonce).2 = ⟨nonce, true⟩ ∧ ∀ n, g.Reached n → n < nonce := by
  unfold accept at h ⊢
  split_ifs at h ⊢ with hlast
  refine ⟨rfl, fun n hn => ?_⟩
  have hgt : ¬ nonce ≤ g.last := fun hle => hlast ⟨hn.1, hle⟩
  exact UInt64.lt_of_le_of_lt hn.2 (UInt64.not_le.1 hgt)

theorem NonceGuard.accept_false {g : NonceGuard} {nonce : UInt64} (h : (g.accept nonce).1 = false) :
    (g.accept nonce).2 = g := by
  unfold accept at h ⊢
  split_ifs at h ⊢ with hlast
  rfl

end DeskSync.Signaling
