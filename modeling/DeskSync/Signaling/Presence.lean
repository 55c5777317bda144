import DeskSync.Signaling.Relay
import DeskSync.Signaling.Json
import DeskSync.Agent.Json
import DeskSync.Mobile.Json

/-!
# Presence messages come from the hub

The hub looks at the kind of a message to decide whether to relay it, and does not relay presence
messages. The receiver decodes the same bytes with a library of its own: serde in the agent, `jsonDecode`
in the mobile client. `unforged_iff` says for which of the relayed messages the two agree on the kind:
those whose exactly spelled kind, where the receiver looks, is the one the hub read. `forged_presence` is
a message for which they do not.
-/

namespace DeskSync.Signaling

open Json (Members)

variable {Raw : Type}

/-- The JSON libraries of the hub and the two clients. -/
structure Libraries (Raw : Type) where
  go : Json.Library Raw
  serde : Raw → Option Json
  jsonDecode : Raw → Option Json
  dart : Mobile.Runtime

variable (L : Libraries Raw)

/-- The kind of the payload a peer of this role decodes. -/
def received : Role → Raw → Option String
  | .agent, raw => (L.serde raw).bind fun j => (Agent.deserializeEnvelope j).map (·.payload.kind)
  | .controller, raw => (L.jsonDecode raw).bind fun
    | .obj ms => (Mobile.SignalEnvelope.fromJson L.dart ms).map (·.payload.kind)
    | _ => none

/-- The peer fails to decode the message, or decodes a payload of the kind the hub has seen, which is
not one of presence. -/
def Unforged (role : Role) (raw : Raw) : Prop :=
  ∀ kind, received L role raw = some kind →
    (∃ env, parse (codec L.go) raw = some env ∧ kind = env.kind (codec L.go)) ∧
      kind ≠ kindPeerJoined ∧ kind ≠ kindPeerLeft

/-- The text is an envelope in the form the peer reads, and this is its kind. -/
def Carries : Role → Raw → String → Prop
  | .agent, raw, kind => ∃ j e, L.serde raw = some j ∧ Agent.SignalEnvelope.Describes e j ∧
      e.payload.kind = kind
  | .controller, raw, kind => ∃ ms payload, L.jsonDecode raw = some (.obj ms) ∧
      Mobile.HeaderReadable L.dart ms ∧ Mobile.asPayload (Mobile.get "payload" ms) = some payload ∧
      Mobile.Readable L.dart payload ∧ Mobile.tag L.dart payload = kind

/-- If the text is an envelope for the peer, the hub reads its kind from it too. -/
def SpelledAlike (role : Role) (raw : Raw) : Prop :=
  ∀ kind, Carries L role raw kind → HubReads L.go raw kind

theorem received_iff {role : Role} {raw : Raw} {kind : String} :
    received L role raw = some kind ↔ Carries L role raw kind := by
  cases role with
  | agent =>
    simp only [received, Carries, Option.bind_eq_some_iff, Option.map_eq_some_iff,
      Agent.deserializeEnvelope_iff]
    constructor
    · rintro ⟨j, hj, e, he, hkind⟩
      exact ⟨j, e, hj, he, hkind⟩
    · rintro ⟨j, e, hj, he, hkind⟩
      exact ⟨j, hj, e, he, hkind⟩
  | controller =>
    simp only [received, Carries, Option.bind_eq_some_iff]
    constructor
    · rintro ⟨j, hj, he⟩
      cases j with
      | obj ms =>
        obtain ⟨hheader, payload, hpayload⟩ :=
          Mobile.fromJson_iff.1 (Option.map_eq_some_iff.1 he)
        exact ⟨ms, payload, hj, hheader, hpayload⟩
      | _ => cases he
    · rintro ⟨ms, payload, hj, hheader, hpayload⟩
      exact ⟨_, hj, Option.map_eq_some_iff.2 (Mobile.fromJson_iff.2 ⟨hheader, payload, hpayload⟩)⟩

theorem relayable_ne {kind : String} (h : relayable kind) :
    kind ≠ "" ∧ kind ≠ kindPeerJoined ∧ kind ≠ kindPeerLeft := by
  rcases h with rfl | rfl | rfl | rfl <;> decide

/-- A message that Dispatch relays. -/
theorem unforged_of_relayed {role : Role} {raw : Raw} {env : Envelope Raw}
    (hparse : parse (codec L.go) raw = some env) (hkind : relayable (env.kind (codec L.go))) :
    Unforged L role raw ↔ SpelledAlike L role raw := by
  obtain ⟨hne, hjoined, hleft⟩ := relayable_ne hkind
  have hreads := hubReads_of_parse hparse hne
  constructor
  · intro h kind hcarries
    obtain ⟨⟨env', hparse', rfl⟩, -⟩ := h kind ((received_iff L).2 hcarries)
    obtain rfl := Option.some.inj (hparse.symm.trans hparse')
    exact hreads
  · intro h kind hreceived
    obtain rfl := hubReads_unique (h kind ((received_iff L).1 hreceived)) hreads
    exact ⟨⟨env, hparse, rfl⟩, hjoined, hleft⟩

/-- Of the messages on a peer's queue that another peer has sent, exactly those spelled alike for the hub
and the peer are not forged. -/
theorem unforged_iff (l : List (Step Raw)) {i : ℕ} {q sender : Peer} {raw : Raw}
    (h : .put i q raw (some sender) ∈ (run (codec L.go) l).2) :
    Unforged L q.role raw ↔ SpelledAlike L q.role raw := by
  obtain ⟨X, hp⟩ := relaying_run (codec L.go) l
  rcases hp.entries i q raw _ h with ⟨hnone, -⟩ | ⟨-, req, prog, -, hmay⟩
  · cases hnone
  · obtain ⟨env, hparse, -, hkind⟩ := hmay.accepted
    exact unforged_of_relayed L hparse hkind

/-! ### A forged presence message -/

/-- All three on documents; the integers of a document are those of Dart. -/
def onDocuments : Libraries Json where
  go := Json.documents
  serde := some
  jsonDecode := some
  dart := {
    toInt := fun
      | .int neg n => some (if neg then -n else n)
      | .dec .. => none
    toStr := fun _ => "" }

/-- The agent joins, and then a controller that sends the message. -/
def sends (msg : Json) : List (Step Json) :=
  [.spawn (.serve "s1" .agent []) (), .advance 0 (),
    .spawn (.serve "s1" .controller [.text msg]) ()] ++
    List.replicate 7 (.advance 1 ())

def anOffer : Json := message 1 [("kind", .str "offer"), ("sdp", .str "sdp")]

theorem unforged_anOffer :
    (.put 1 ⟨0, "s1", .agent⟩ anOffer (some ⟨1, "s1", .controller⟩) ∈
        (run (codec Json.documents) (sends anOffer)).2) ∧
      (Unforged onDocuments .agent anOffer ↔ SpelledAlike onDocuments .agent anOffer) := by
  have hput : .put 1 ⟨0, "s1", .agent⟩ anOffer (some ⟨1, "s1", .controller⟩) ∈
      (run (codec Json.documents) (sends anOffer)).2 := List.mem_of_getElem? (i := 5) (by rfl)
  exact ⟨hput, unforged_iff onDocuments (sends anOffer) hput⟩

/-- The hub reads the last `kind` up to case, the agent the one that is spelled exactly. -/
def anOfferThatLeaves : Json :=
  message 1 [("kind", .str "peer_left"), ("role", .str "controller"), ("KIND", .str "offer")]

theorem forged_presence :
    (.put 1 ⟨0, "s1", .agent⟩ anOfferThatLeaves (some ⟨1, "s1", .controller⟩) ∈
        (run (codec Json.documents) (sends anOfferThatLeaves)).2) ∧
      received onDocuments .agent anOfferThatLeaves = some kindPeerLeft ∧
      ¬ Unforged onDocuments .agent anOfferThatLeaves := by
  have hreceived : received onDocuments .agent anOfferThatLeaves = some kindPeerLeft := by rfl
  refine ⟨List.mem_of_getElem? (i := 5) (by rfl), hreceived, fun h => ?_⟩
  exact (h _ hreceived).2.2 rfl

end DeskSync.Signaling
