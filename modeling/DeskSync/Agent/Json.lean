import DeskSync.Lib.Json
import DeskSync.Agent.Signal

/-!
# The envelopes of the agent as JSON

What serde derives for `SignalPayload`, which is tagged by `kind`, and for `SignalEnvelope`. Both read an
object, with every field exactly once and members of other names ignored, or an array with the fields in
order; they are written as objects.

`Describes` says which documents are read as a value (`deserializePayload_iff`, `deserializeEnvelope_iff`).
-/

namespace DeskSync.Agent

open Json (only Once Members)

/-! ### Payloads -/

/-- A variant with one field, a string. -/
def stringField (name : String) (variant : String → SignalPayload)
    (values : List String → Option (List Json)) : Option SignalPayload :=
  match values [name] with
  | some [v] => v.string.map variant
  | _ => none

/-- A variant without fields. -/
def noFields (variant : SignalPayload) (values : List String → Option (List Json)) :
    Option SignalPayload :=
  match values [] with
  | some [] => some variant
  | _ => none

/-- A variant, from the values of its fields in order. -/
def deserializeVariant (kind : String) (values : List String → Option (List Json)) :
    Option SignalPayload :=
  match kind with
  | "offer" => stringField "sdp" .offer values
  | "answer" => stringField "sdp" .answer values
  | "ice_candidate" =>
    match values ["candidate", "sdp_m_line_index"] with
    | some [candidate, index] => do
      let candidate ← candidate.string
      (index.uint UInt16.size).map fun index => .iceCandidate candidate (.ofNat index)
    | _ => none
  | "heartbeat" => noFields .heartbeat values
  | "bye" => noFields .bye values
  | "peer_joined" => stringField "role" .peerJoined values
  | "peer_left" => stringField "role" .peerLeft values
  | _ => none

def deserializePayload : Json → Option SignalPayload
  | .obj ms => do
    let kind ← (← only "kind" ms).string
    deserializeVariant kind fun names => names.mapM (only · ms)
  | .arr (kind :: rest) => do
    let kind ← kind.string
    deserializeVariant kind fun names => if rest.length = names.length then some rest else none
  | _ => none

/-- The fields of a payload besides its kind. -/
def SignalPayload.fields : SignalPayload → List (String × Json)
  | .offer sdp => [("sdp", .str sdp)]
  | .answer sdp => [("sdp", .str sdp)]
  | .iceCandidate candidate index =>
    [("candidate", .str candidate), ("sdp_m_line_index", .num (.int false index.toNat))]
  | .heartbeat => []
  | .bye => []
  | .peerJoined role => [("role", .str role)]
  | .peerLeft role => [("role", .str role)]

/-- The document is one of this payload. -/
def SignalPayload.Describes (p : SignalPayload) : Json → Prop
  | .obj ms => Once "kind" (.str p.kind) ms ∧ ∀ f ∈ p.fields, Once f.1 f.2 ms
  | .arr items => items = .str p.kind :: p.fields.map Prod.snd
  | _ => False

section Variants
variable {values : List String → Option (List Json)} {p : SignalPayload}

theorem stringField_iff {name : String} {variant : String → SignalPayload} :
    stringField name variant values = some p ↔ ∃ s, values [name] = some [.str s] ∧ variant s = p := by
  unfold stringField
  constructor
  · intro h
    split at h
    · rename_i v hv
      obtain ⟨s, hs, rfl⟩ := Option.map_eq_some_iff.1 h
      rw [Json.string_eq_some] at hs
      exact ⟨s, by rw [hv, hs], rfl⟩
    · cases h
  · rintro ⟨s, hv, rfl⟩
    rw [hv]
    rfl

theorem noFields_iff {variant : SignalPayload} :
    noFields variant values = some p ↔ values [] = some [] ∧ variant = p := by
  unfold noFields
  constructor
  · intro h
    split at h
    · exact ⟨‹_›, Option.some.inj h⟩
    · cases h
  · rintro ⟨hv, rfl⟩
    rw [hv]

theorem deserializeVariant_iff {kind : String} : deserializeVariant kind values = some p ↔
    kind = p.kind ∧ values (p.fields.map Prod.fst) = some (p.fields.map Prod.snd) := by
  constructor
  · intro h
    unfold deserializeVariant at h
    split at h
    · obtain ⟨s, hv, rfl⟩ := stringField_iff.1 h
      exact ⟨rfl, hv⟩
    · obtain ⟨s, hv, rfl⟩ := stringField_iff.1 h
      exact ⟨rfl, hv⟩
    · split at h
      · rename_i candidate index hv
        obtain ⟨s, hs, h⟩ := Option.bind_eq_some_iff.1 h
        obtain ⟨n, hn, rfl⟩ := Option.map_eq_some_iff.1 h
        rw [Json.string_eq_some] at hs
        obtain ⟨rfl, hlt⟩ := Json.uint_eq_some.1 hn
        refine ⟨rfl, ?_⟩
        simp only [SignalPayload.fields, List.map_cons, List.map_nil, UInt16.toNat_ofNat_of_lt' hlt]
        rw [hv, hs]
      · cases h
    · obtain ⟨hv, rfl⟩ := noFields_iff.1 h
      exact ⟨rfl, hv⟩
    · obtain ⟨hv, rfl⟩ := noFields_iff.1 h
      exact ⟨rfl, hv⟩
    · obtain ⟨s, hv, rfl⟩ := stringField_iff.1 h
      exact ⟨rfl, hv⟩
    · obtain ⟨s, hv, rfl⟩ := stringField_iff.1 h
      exact ⟨rfl, hv⟩
    · cases h
  · rintro ⟨rfl, hv⟩
    cases p with
    | offer sdp => exact stringField_iff.2 ⟨sdp, hv, rfl⟩
    | answer sdp => exact stringField_iff.2 ⟨sdp, hv, rfl⟩
    | iceCandidate candidate index =>
      have hv : values ["candidate", "sdp_m_line_index"] =
        some [.str candidate, .num (.int false index.toNat)] := hv
      have hindex := Json.uint_num index.toNat_lt_size
      simp [deserializeVariant, SignalPayload.kind, hv, Json.string, hindex]
    | heartbeat => exact noFields_iff.2 ⟨hv, rfl⟩
    | bye => exact noFields_iff.2 ⟨hv, rfl⟩
    | peerJoined role => exact stringField_iff.2 ⟨role, hv, rfl⟩
    | peerLeft role => exact stringField_iff.2 ⟨role, hv, rfl⟩

end Variants

/-- Every field is a member of its own. -/
theorem mapM_only {ms : Members} {fields : List (String × Json)} :
    (fields.map Prod.fst).mapM (only · ms) = some (fields.map Prod.snd) ↔
      ∀ f ∈ fields, Once f.1 f.2 ms := by
  induction fields with
  | nil => simp
  | cons f fields ih =>
    rw [List.forall_mem_cons, ← ih, ← Json.only_eq_some]
    simp only [List.map_cons, List.mapM_cons]
    cases only f.1 ms with
    | none => simp
    | some v => cases (fields.map Prod.fst).mapM (only · ms) <;> simp

theorem deserializePayload_iff {j : Json} {p : SignalPayload} :
    deserializePayload j = some p ↔ p.Describes j := by
  cases j with
  | obj ms =>
    simp only [deserializePayload, SignalPayload.Describes, Option.bind_eq_bind,
      Option.bind_eq_some_iff, deserializeVariant_iff, mapM_only, Json.only_eq_some,
      Json.string_eq_some]
    constructor
    · rintro ⟨tag, htag, kind, rfl, rfl, hfields⟩
      exact ⟨htag, hfields⟩
    · rintro ⟨htag, hfields⟩
      exact ⟨_, htag, p.kind, rfl, rfl, hfields⟩
  | arr items =>
    cases items with
    | nil => simp [deserializePayload, SignalPayload.Describes]
    | cons tag rest =>
      simp only [deserializePayload, SignalPayload.Describes, Option.bind_eq_bind,
        Option.bind_eq_some_iff, deserializeVariant_iff, Json.string_eq_some, List.cons.injEq]
      constructor
      · rintro ⟨kind, rfl, rfl, hrest⟩
        split_ifs at hrest
        exact ⟨rfl, Option.some.inj hrest⟩
      · rintro ⟨rfl, rfl⟩
        exact ⟨p.kind, rfl, rfl, if_pos (by simp)⟩
  | _ => simp [deserializePayload, SignalPayload.Describes]

/-! ### Envelopes -/

def deserializeFields (v nonce tsMs sessionID payload : Json) : Option SignalEnvelope := do
  let v ← v.uint UInt8.size
  let nonce ← nonce.uint UInt64.size
  let tsMs ← tsMs.uint UInt64.size
  let sessionID ← sessionID.string
  let payload ← deserializePayload payload
  some { v := .ofNat v, nonce := .ofNat nonce, tsMs := .ofNat tsMs, sessionID, payload }

def deserializeEnvelope : Json → Option SignalEnvelope
  | .obj ms => do
    deserializeFields (← only "v" ms) (← only "nonce" ms) (← only "ts_ms" ms)
      (← only "session_id" ms) (← only "payload" ms)
  | .arr [v, nonce, tsMs, sessionID, payload] => deserializeFields v nonce tsMs sessionID payload
  | _ => none

/-- The fields of an envelope besides its payload. -/
def SignalEnvelope.header (e : SignalEnvelope) : List (String × Json) :=
  [("v", .num (.int false e.v.toNat)), ("nonce", .num (.int false e.nonce.toNat)),
    ("ts_ms", .num (.int false e.tsMs.toNat)), ("session_id", .str e.sessionID)]

/-- The document is one of this envelope. -/
def SignalEnvelope.Describes (e : SignalEnvelope) (j : Json) : Prop :=
  ∃ payload, e.payload.Describes payload ∧
    match j with
    | .obj ms => (∀ f ∈ e.header, Once f.1 f.2 ms) ∧ Once "payload" payload ms
    | .arr items => items = e.header.map Prod.snd ++ [payload]
    | _ => False

theorem deserializeFields_iff {v nonce tsMs sessionID payload : Json} {e : SignalEnvelope} :
    deserializeFields v nonce tsMs sessionID payload = some e ↔
      [v, nonce, tsMs, sessionID] = e.header.map Prod.snd ∧ e.payload.Describes payload := by
  simp only [deserializeFields, Option.bind_eq_bind, Option.bind_eq_some_iff, Json.uint_eq_some,
    Json.string_eq_some, deserializePayload_iff, SignalEnvelope.header, List.map_cons, List.map_nil,
    List.cons.injEq, and_true]
  constructor
  · rintro ⟨v, ⟨rfl, hv⟩, nonce, ⟨rfl, hnonce⟩, tsMs, ⟨rfl, hts⟩, sessionID, rfl, payload, hp, he⟩
    obtain rfl := Option.some.inj he
    refine ⟨⟨?_, ?_, ?_, rfl⟩, hp⟩
    · rw [UInt8.toNat_ofNat_of_lt' hv]
    · rw [UInt64.toNat_ofNat_of_lt' hnonce]
    · rw [UInt64.toNat_ofNat_of_lt' hts]
  · rintro ⟨⟨rfl, rfl, rfl, rfl⟩, hp⟩
    refine ⟨_, ⟨rfl, e.v.toNat_lt_size⟩, _, ⟨rfl, e.nonce.toNat_lt_size⟩, _,
      ⟨rfl, e.tsMs.toNat_lt_size⟩, _, rfl, _, hp, ?_⟩
    simp

theorem deserializeEnvelope_iff {j : Json} {e : SignalEnvelope} :
    deserializeEnvelope j = some e ↔ e.Describes j := by
  unfold deserializeEnvelope SignalEnvelope.Describes
  split
  · rename_i ms
    simp only [Option.bind_eq_bind, Option.bind_eq_some_iff, deserializeFields_iff,
      Json.only_eq_some]
    constructor
    · rintro ⟨v, hv, nonce, hnonce, tsMs, hts, sessionID, hs, payload, hpayload, hheader, hp⟩
      refine ⟨payload, hp, ?_, hpayload⟩
      simp only [SignalEnvelope.header, List.map_cons, List.map_nil, List.cons.injEq, and_true]
        at hheader
      obtain ⟨rfl, rfl, rfl, rfl⟩ := hheader
      simp [SignalEnvelope.header, hv, hnonce, hts, hs]
    · rintro ⟨payload, hp, hheader, hpayload⟩
      simp only [SignalEnvelope.header, List.forall_mem_cons, List.not_mem_nil, IsEmpty.forall_iff,
        implies_true, and_true] at hheader
      obtain ⟨hv, hnonce, hts, hs⟩ := hheader
      exact ⟨_, hv, _, hnonce, _, hts, _, hs, _, hpayload, rfl, hp⟩
  · rename_i v nonce tsMs sessionID payload
    rw [deserializeFields_iff]
    constructor
    · rintro ⟨hheader, hp⟩
      refine ⟨payload, hp, ?_⟩
      rw [← hheader]
      rfl
    · rintro ⟨payload', hp, hitems⟩
      simp only [SignalEnvelope.header, List.map_cons, List.map_nil, List.cons_append,
        List.nil_append, List.cons.injEq, and_true] at hitems ⊢
      obtain ⟨rfl, rfl, rfl, rfl, rfl⟩ := hitems
      exact ⟨⟨rfl, rfl, rfl, rfl⟩, hp⟩
  · rename_i hobj harr
    constructor
    · intro h
      cases h
    · rintro ⟨payload, hp, h⟩
      cases j with
      | obj ms => exact absurd rfl (hobj ms)
      | arr items => exact absurd (congrArg Json.arr h) (harr _ _ _ _ _)
      | _ => exact h.elim

/-! ### Writing -/

def SignalPayload.toJson (p : SignalPayload) : Json := .obj (("kind", .str p.kind) :: p.fields)

def SignalEnvelope.toJson (e : SignalEnvelope) : Json :=
  .obj (e.header ++ [("payload", e.payload.toJson)])

end DeskSync.Agent
