import DeskSync.Lib.Json
import DeskSync.Signaling.Protocol

/-!
# The envelopes of the backend as JSON

`encoding/json` on the types of the protocol package, as a codec of the hub. It matches the names of an
object with those of a struct up to case, sets the fields in the order of the members, so that the last
one counts, leaves a field as it is for `null`, and fails for a value of another type.

`HubReads` says which kind a text carries for the hub: that of the last member that matches.
-/

namespace DeskSync.Signaling

open Json (agrees last)

variable {Raw : Type} (go : Json.Library Raw)

/-- A member on a field of the envelope. -/
def unmarshalField (e : Envelope Raw) (m : String × Json) : Option (Envelope Raw) :=
  if agrees "v" m.1 then
    if m.2.isNull then some e else (m.2.uint UInt8.size).map fun n => { e with v := .ofNat n }
  else if agrees "nonce" m.1 then
    if m.2.isNull then some e else (m.2.uint UInt64.size).map fun n => { e with nonce := .ofNat n }
  else if agrees "ts_ms" m.1 then
    if m.2.isNull then some e else (m.2.uint UInt64.size).map fun n => { e with tsMs := .ofNat n }
  else if agrees "session_id" m.1 then
    if m.2.isNull then some e else m.2.string.map fun s => { e with sessionID := s }
  else if agrees "payload" m.1 then some { e with payload := some (go.text m.2) }
  else some e

def unmarshalEnvelope (raw : Raw) : Option (Envelope Raw) :=
  match go.parse raw with
  | some .null => some {}
  | some (.obj ms) => ms.foldlM (unmarshalField go) {}
  | _ => none

/-- A member on the only field of `struct { Kind string }`. -/
def unmarshalKindField (kind : String) (m : String × Json) : Option String :=
  if agrees "kind" m.1 then
    if m.2.isNull then some kind else m.2.string
  else some kind

def unmarshalKind (raw : Raw) : Option String :=
  match go.parse raw with
  | some .null => some ""
  | some (.obj ms) => ms.foldlM unmarshalKindField ""
  | _ => none

def codec : Codec Raw where
  unmarshalEnvelope := unmarshalEnvelope go
  unmarshalKind := unmarshalKind go
  marshalEnvelope e := go.text <| .obj [
    ("v", .num (.int false e.v.toNat)),
    ("nonce", .num (.int false e.nonce.toNat)),
    ("ts_ms", .num (.int false e.tsMs.toNat)),
    ("session_id", .str e.sessionID),
    ("payload", (e.payload.bind go.parse).getD .null)]
  marshalControl kind role := go.text <| .obj [("kind", .str kind), ("role", .str role)]

/-- An envelope of version 1 with the payload of the given kind. -/
def written (nonce tsMs : ℕ) (sessionID kind : String) (fields : Json.Members) : Json :=
  .obj [("v", .num (.int false 1)), ("nonce", .num (.int false nonce)),
    ("ts_ms", .num (.int false tsMs)), ("session_id", .str sessionID),
    ("payload", .obj (("kind", .str kind) :: fields))]

/-- A message of the session `s1`, as a document. -/
def message (nonce : ℕ) (payload : List (String × Json)) : Json :=
  .obj [("v", .num (.int false 1)), ("nonce", .num (.int false nonce)), ("ts_ms", .num (.int false 0)),
    ("session_id", .str "s1"), ("payload", .obj payload)]

/-! ### What the hub reads -/

/-- The hub reads the kind from the last member that matches, in the last payload that matches. -/
def HubReads (raw : Raw) (kind : String) : Prop :=
  ∃ ms payload, go.parse raw = some (.obj ms) ∧
    last (fun m => agrees "payload" m.1) ms = some (.obj payload) ∧
    last (fun m => agrees "kind" m.1 && !m.2.isNull) payload = some (.str kind)

variable {go}

theorem hubReads_unique {raw : Raw} {kind kind' : String} (h : HubReads go raw kind)
    (h' : HubReads go raw kind') : kind = kind' := by
  obtain ⟨ms, payload, hraw, hpayload, hkind⟩ := h
  obtain ⟨ms', payload', hraw', hpayload', hkind'⟩ := h'
  obtain rfl := Json.obj.inj (Option.some.inj (hraw.symm.trans hraw'))
  obtain rfl := Json.obj.inj (Option.some.inj (hpayload.symm.trans hpayload'))
  exact Json.str.inj (Option.some.inj (hkind.symm.trans hkind'))

theorem unmarshalEnvelope_written {raw : Raw} {nonce tsMs : ℕ}
    {sessionID kind : String} {fields : Json.Members}
    (hraw : go.parse raw = some (written nonce tsMs sessionID kind fields))
    (hnonce : nonce < UInt64.size) (hts : tsMs < UInt64.size) :
    unmarshalEnvelope go raw = some ⟨1, .ofNat nonce, .ofNat tsMs, sessionID,
      some (go.text (.obj (("kind", .str kind) :: fields)))⟩ := by
  rw [unmarshalEnvelope, hraw]
  have hone : (Json.num (.int false 1)).uint UInt8.size = some 1 := Json.uint_num (by decide)
  simp [written, unmarshalField, Json.isNull, Json.string, hone, Json.uint_num hnonce,
    Json.uint_num hts, show Json.agrees "v" "v" = true by decide,
    show Json.agrees "v" "nonce" = false by decide, show Json.agrees "nonce" "nonce" = true by decide,
    show Json.agrees "v" "ts_ms" = false by decide, show Json.agrees "nonce" "ts_ms" = false by decide,
    show Json.agrees "ts_ms" "ts_ms" = true by decide,
    show Json.agrees "v" "session_id" = false by decide,
    show Json.agrees "nonce" "session_id" = false by decide,
    show Json.agrees "ts_ms" "session_id" = false by decide,
    show Json.agrees "session_id" "session_id" = true by decide,
    show Json.agrees "v" "payload" = false by decide,
    show Json.agrees "nonce" "payload" = false by decide,
    show Json.agrees "ts_ms" "payload" = false by decide,
    show Json.agrees "session_id" "payload" = false by decide,
    show Json.agrees "payload" "payload" = true by decide]

/-- What the hub makes itself reads as an envelope with the nonce 0. -/
theorem unmarshalEnvelope_control (sessionID kind role : String) :
    ∃ payload, unmarshalEnvelope go (control (codec go) sessionID kind role) =
      some ⟨1, 0, 0, sessionID, payload⟩ := by
  have hparse : go.parse (control (codec go) sessionID kind role) =
      some (written 0 0 sessionID kind [("role", .str role)]) := by
    simp [control, codec, go.parse_text, written, version]
  exact ⟨_, unmarshalEnvelope_written hparse (by decide) (by decide)⟩

/-- Only a member that matches `payload` sets the payload. -/
theorem unmarshalField_payload {e e' : Envelope Raw} {m : String × Json}
    (h : unmarshalField go e m = some e') :
    e'.payload = if agrees "payload" m.1 then some (go.text m.2) else e.payload := by
  have hother {name : String} (hname : agrees name m.1 = true) (hne : name ≠ "payload") :
      agrees "payload" m.1 = false := by
    rw [Bool.eq_false_iff]
    exact fun hp => hne (Json.agrees_unique hname hp)
  unfold unmarshalField at h
  split_ifs at h with h₁ hnull h₂ hnull h₃ hnull h₄ hnull h₅ <;>
    simp only [Option.map_eq_some_iff, Option.some.injEq] at h
  · rw [hother h₁ (by decide), ← h]
    rfl
  · obtain ⟨n, -, rfl⟩ := h
    rw [hother h₁ (by decide)]
    rfl
  · rw [hother h₂ (by decide), ← h]
    rfl
  · obtain ⟨n, -, rfl⟩ := h
    rw [hother h₂ (by decide)]
    rfl
  · rw [hother h₃ (by decide), ← h]
    rfl
  · obtain ⟨n, -, rfl⟩ := h
    rw [hother h₃ (by decide)]
    rfl
  · rw [hother h₄ (by decide), ← h]
    rfl
  · obtain ⟨s, -, rfl⟩ := h
    rw [hother h₄ (by decide)]
    rfl
  · rw [if_pos h₅, ← h]
  · rw [if_neg h₅, ← h]

theorem foldlM_payload {ms : Json.Members} {e e' : Envelope Raw}
    (h : ms.foldlM (unmarshalField go) e = some e') :
    e'.payload = ((last (fun m => agrees "payload" m.1) ms).map go.text).or e.payload := by
  induction ms generalizing e with
  | nil =>
    obtain rfl := Option.some.inj h
    rfl
  | cons m ms ih =>
    obtain ⟨e₁, he₁, he'⟩ := Option.bind_eq_some_iff.1 h
    rw [ih he', unmarshalField_payload he₁, last]
    cases last (fun m => agrees "payload" m.1) ms with
    | some j => rfl
    | none =>
      dsimp only [Option.none_or, Option.map]
      split_ifs <;> rfl

theorem foldlM_kind {ms : Json.Members} {kind kind' : String}
    (h : ms.foldlM unmarshalKindField kind = some kind') :
    (last (fun m => agrees "kind" m.1 && !m.2.isNull) ms = none ∧ kind' = kind) ∨
      last (fun m => agrees "kind" m.1 && !m.2.isNull) ms = some (.str kind') := by
  induction ms generalizing kind with
  | nil =>
    obtain rfl := Option.some.inj h
    exact .inl ⟨rfl, rfl⟩
  | cons m ms ih =>
    obtain ⟨kind₁, h₁, h'⟩ := Option.bind_eq_some_iff.1 h
    rcases ih h' with ⟨hnone, rfl⟩ | hsome
    · rw [last, hnone, Option.none_or]
      unfold unmarshalKindField at h₁
      split_ifs at h₁ with hkind hnull
      · obtain rfl := Option.some.inj h₁
        exact .inl ⟨by simp [hnull], rfl⟩
      · right
        rw [Json.string_eq_some.1 h₁]
        simp [hkind, Json.isNull]
      · obtain rfl := Option.some.inj h₁
        exact .inl ⟨by simp [hkind], rfl⟩
    · rw [last, hsome]
      exact .inr rfl

/-- What the hub reads from a message it relays. -/
theorem hubReads_of_parse {raw : Raw} {env : Envelope Raw} (hparse : parse (codec go) raw = some env)
    (hkind : env.kind (codec go) ≠ "") : HubReads go raw (env.kind (codec go)) := by
  unfold parse at hparse
  split at hparse
  · cases hparse
  rename_i e he
  split_ifs at hparse with hbad
  obtain rfl := Option.some.inj hparse
  have hpayload : e.payload ≠ none := by
    intro hnone
    exact hbad (.inr (.inr (by simp [hnone])))
  have he : unmarshalEnvelope go raw = some e := he
  unfold unmarshalEnvelope at he
  split at he
  · obtain rfl := Option.some.inj he
    exact absurd rfl hpayload
  · rename_i ms hms
    have hlast := foldlM_payload he
    rw [Option.or_none] at hlast
    obtain ⟨j, hj⟩ := Option.ne_none_iff_exists'.1 (hlast ▸ hpayload)
    obtain ⟨payload, hpl, rfl⟩ := Option.map_eq_some_iff.1 hj
    rw [hj] at hlast
    unfold Envelope.kind at hkind ⊢
    rw [hlast] at hkind ⊢
    dsimp only [codec] at hkind ⊢
    unfold unmarshalKind at hkind ⊢
    rw [go.parse_text] at hkind ⊢
    split at hkind
    · exact absurd rfl hkind
    · rename_i ms' hms'
      obtain rfl := Option.some.inj hms'
      cases hfold : ms'.foldlM unmarshalKindField "" with
      | none =>
        rw [hfold] at hkind
        exact absurd rfl hkind
      | some kind =>
        rcases foldlM_kind hfold with ⟨-, rfl⟩ | hsome
        · rw [hfold] at hkind
          exact absurd rfl hkind
        · exact ⟨ms, ms', hms, hpl, hsome⟩
    · exact absurd rfl hkind
  · cases he

end DeskSync.Signaling
