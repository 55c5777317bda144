import DeskSync.Lib.Json
import DeskSync.Mobile.Signal

/-!
# The envelopes of the mobile client as JSON

`SignalPayload.toJson`, and `SignalPayload.fromJson` and `SignalEnvelope.fromJson` on what `jsonDecode` returns, a map
with the last of several members of one name. A cast that throws fails the decoding; a member that is absent or
`null` has a default.

`Readable` says when a payload is decoded, and `tag` as which kind: `payload_fromJson_iff`,
`fromJson_iff`.
-/

namespace DeskSync.Mobile

open Json (last Members)

/-! ### Writing -/

def intToJson (i : ℤ) : Json := .num (.int (decide (i < 0)) i.natAbs)

def SignalPayload.toJson (p : SignalPayload) : Json :=
  .obj <| ("kind", .str p.kind) :: match p with
    | .offer sdp => [("sdp", .str sdp)]
    | .answer sdp => [("sdp", .str sdp)]
    | .iceCandidate candidate sdpMLineIndex sdpMid =>
      [("candidate", .str candidate), ("sdp_m_line_index", intToJson sdpMLineIndex)] ++
        (sdpMid.map fun mid => ("sdp_mid", .str mid)).toList
    | .heartbeat => []
    | .bye => []
    | .peerJoined role => [("role", .str role)]
    | .peerLeft role => [("role", .str role)]
    | .unknown _ => []

def SignalEnvelope.toJson (e : SignalEnvelope) : Json :=
  .obj [("v", intToJson e.version), ("nonce", intToJson e.nonce), ("ts_ms", intToJson e.tsMs),
    ("session_id", .str e.sessionID), ("payload", e.payload.toJson)]

/-! ### Reading -/

/-- The Dart runtime on values of the decoder. -/
structure Runtime where
  /-- `toInt` of a number, unless it throws. -/
  toInt : Number → Option ℤ
  /-- `toString` of a value that is not a string. -/
  toStr : Json → String

/-- `json[name]`, which is `null` for a member that is absent. -/
def get (name : String) (ms : Members) : Json := (last (·.1 = name) ms).getD .null

/-- `j as String?`. -/
def asString? : Json → Option (Option String)
  | .null => some none
  | .str s => some (some s)
  | _ => none

/-- `j as String? ?? orElse`. -/
def asString (orElse : String) (j : Json) : Option String := (asString? j).map (·.getD orElse)

variable (rt : Runtime)

/-- `(j as num?)?.toInt() ?? orElse`. -/
def asInt (orElse : ℤ) : Json → Option ℤ
  | .null => some orElse
  | .num n => rt.toInt n
  | _ => none

def SignalPayload.fromJson (ms : Members) : Option SignalPayload :=
  match get "kind" ms with
  | .str kind =>
    match kind with
    | "offer" => (asString "" (get "sdp" ms)).map .offer
    | "answer" => (asString "" (get "sdp" ms)).map .answer
    | "ice_candidate" => do
      let candidate ← asString "" (get "candidate" ms)
      let index ← asInt rt 0 (get "sdp_m_line_index" ms)
      (asString? (get "sdp_mid" ms)).map (.iceCandidate candidate index)
    | "heartbeat" => some .heartbeat
    | "bye" => some .bye
    | "peer_joined" => (asString "" (get "role" ms)).map .peerJoined
    | "peer_left" => (asString "" (get "role" ms)).map .peerLeft
    | _ => some (.unknown kind)
  | .null => some (.unknown "")
  | j => some (.unknown (rt.toStr j))

/-- `j as Map<String, dynamic>? ?? const {'kind': ''}`. -/
def asPayload : Json → Option Members
  | .null => some [("kind", .str "")]
  | .obj payload => some payload
  | _ => none

def SignalEnvelope.fromJson (ms : Members) : Option SignalEnvelope := do
  let version ← asInt rt 1 (get "v" ms)
  let nonce ← asInt rt 0 (get "nonce" ms)
  let tsMs ← asInt rt 0 (get "ts_ms" ms)
  let sessionID ← asString "" (get "session_id" ms)
  let payload ← SignalPayload.fromJson rt (← asPayload (get "payload" ms))
  some { version, nonce, tsMs, sessionID, payload }

/-! ### What the client reads -/

/-- A string, or nothing. -/
def IsString (j : Json) : Prop := j = .null ∨ ∃ s, j = .str s

/-- A number that has an integer part, or nothing. -/
def IsInt (j : Json) : Prop := j = .null ∨ ∃ n i, j = .num n ∧ rt.toInt n = some i

/-- The members the client looks at for a kind, besides the kind. -/
def fieldTypes (kind : String) : List (String × (Json → Prop)) :=
  if kind = "offer" ∨ kind = "answer" then [("sdp", IsString)]
  else if kind = "ice_candidate" then
    [("candidate", IsString), ("sdp_m_line_index", IsInt rt), ("sdp_mid", IsString)]
  else if kind = "peer_joined" ∨ kind = "peer_left" then [("role", IsString)]
  else []

/-- The members of the payload have the types their kind asks for. -/
def Readable (ms : Members) : Prop :=
  ∀ kind, get "kind" ms = .str kind → ∀ f ∈ fieldTypes rt kind, f.2 (get f.1 ms)

/-- The kind the payload is read as. -/
def tag (ms : Members) : String :=
  match get "kind" ms with
  | .str kind => kind
  | .null => ""
  | j => rt.toStr j

variable {rt} {ms : Members}

theorem isSome_asString? {j : Json} : (∃ s, asString? j = some s) ↔ IsString j := by
  cases j <;> simp [asString?, IsString]

theorem isSome_asString {d : String} {j : Json} :
    (∃ s, asString d j = some s) ↔ IsString j := by
  cases j <;> simp [asString, asString?, IsString]

theorem isSome_asInt {d : ℤ} {j : Json} : (∃ i, asInt rt d j = some i) ↔ IsInt rt j := by
  cases j <;> simp [asInt, IsInt]

/-- A payload with one string. -/
theorem map_asString_iff (variant : String → SignalPayload) {j : Json} {k kind : String}
    (hk : ∀ s, (variant s).kind = k) :
    (∃ p, (asString "" j).map variant = some p ∧ p.kind = kind) ↔ IsString j ∧ k = kind := by
  rw [← isSome_asString (d := "")]
  constructor
  · rintro ⟨p, hp, rfl⟩
    obtain ⟨s, hs, rfl⟩ := Option.map_eq_some_iff.1 hp
    exact ⟨⟨s, hs⟩, (hk s).symm⟩
  · rintro ⟨⟨s, hs⟩, rfl⟩
    exact ⟨variant s, by rw [hs]; rfl, hk s⟩

/-- A payload is decoded if its members have the types its kind asks for, and as that kind. -/
theorem payload_fromJson_iff {kind : String} :
    (∃ p, SignalPayload.fromJson rt ms = some p ∧ p.kind = kind) ↔
      Readable rt ms ∧ tag rt ms = kind := by
  unfold SignalPayload.fromJson Readable tag
  cases hget : get "kind" ms with
  | str k =>
    simp only [Json.str.injEq, forall_eq']
    split
    · rw [map_asString_iff .offer fun _ => rfl]
      simp [fieldTypes]
    · rw [map_asString_iff .answer fun _ => rfl]
      simp [fieldTypes]
    · have hfields : (∀ f ∈ fieldTypes rt "ice_candidate", f.2 (get f.1 ms)) ↔
          IsString (get "candidate" ms) ∧ IsInt rt (get "sdp_m_line_index" ms) ∧
            IsString (get "sdp_mid" ms) := by
        simp [fieldTypes]
      rw [hfields, ← isSome_asString (d := ""), ← isSome_asInt (d := 0), ← isSome_asString?]
      constructor
      · rintro ⟨p, hp, rfl⟩
        obtain ⟨candidate, hc, hp⟩ := Option.bind_eq_some_iff.1 hp
        obtain ⟨index, hi, hp⟩ := Option.bind_eq_some_iff.1 hp
        obtain ⟨mid, hm, rfl⟩ := Option.map_eq_some_iff.1 hp
        exact ⟨⟨⟨candidate, hc⟩, ⟨index, hi⟩, ⟨mid, hm⟩⟩, rfl⟩
      · rintro ⟨⟨⟨candidate, hc⟩, ⟨index, hi⟩, ⟨mid, hm⟩⟩, rfl⟩
        exact ⟨.iceCandidate candidate index mid, by simp [hc, hi, hm], rfl⟩
    · simp [fieldTypes, SignalPayload.kind]
    · simp [fieldTypes, SignalPayload.kind]
    · rw [map_asString_iff .peerJoined fun _ => rfl]
      simp [fieldTypes]
    · rw [map_asString_iff .peerLeft fun _ => rfl]
      simp [fieldTypes]
    · simp_all [fieldTypes, SignalPayload.kind]
  | _ => simp [SignalPayload.kind]

/-- The members of an envelope besides the payload have the right types. -/
def HeaderReadable (rt : Runtime) (ms : Members) : Prop :=
  IsInt rt (get "v" ms) ∧ IsInt rt (get "nonce" ms) ∧ IsInt rt (get "ts_ms" ms) ∧
    IsString (get "session_id" ms)

theorem fromJson_iff {kind : String} :
    (∃ e, SignalEnvelope.fromJson rt ms = some e ∧ e.payload.kind = kind) ↔
      HeaderReadable rt ms ∧ ∃ payload, asPayload (get "payload" ms) = some payload ∧
        Readable rt payload ∧ tag rt payload = kind := by
  simp only [← payload_fromJson_iff]
  rw [HeaderReadable, ← isSome_asInt (d := 1), ← isSome_asInt (d := 0),
    ← isSome_asInt (d := 0), ← isSome_asString (d := "")]
  unfold SignalEnvelope.fromJson
  constructor
  · rintro ⟨e, he, rfl⟩
    obtain ⟨version, hv, he⟩ := Option.bind_eq_some_iff.1 he
    obtain ⟨nonce, hn, he⟩ := Option.bind_eq_some_iff.1 he
    obtain ⟨tsMs, ht, he⟩ := Option.bind_eq_some_iff.1 he
    obtain ⟨sessionID, hs, he⟩ := Option.bind_eq_some_iff.1 he
    obtain ⟨payload, hpayload, he⟩ := Option.bind_eq_some_iff.1 he
    obtain ⟨p, hp, he⟩ := Option.bind_eq_some_iff.1 he
    obtain rfl := Option.some.inj he
    exact ⟨⟨⟨version, hv⟩, ⟨nonce, hn⟩, ⟨tsMs, ht⟩, ⟨sessionID, hs⟩⟩, payload, hpayload, p, hp, rfl⟩
  · rintro ⟨⟨⟨version, hv⟩, ⟨nonce, hn⟩, ⟨tsMs, ht⟩, ⟨sessionID, hs⟩⟩, payload, hpayload, p, hp, rfl⟩
    exact ⟨⟨version, nonce, tsMs, sessionID, p⟩, by simp [hv, hn, ht, hs, hpayload, hp], rfl⟩

end DeskSync.Mobile
