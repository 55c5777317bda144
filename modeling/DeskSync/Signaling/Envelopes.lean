import DeskSync.Signaling.Presence

/-!
# Envelopes from one client to the other

An envelope that a client sends passes three libraries: the client's own writes it, that of the hub reads
its header and its kind, and that of the other client decodes it. `crosses` says that nothing is lost on
the way but `sdp_mid`, which the agent does not know: the hub accepts the envelope, under the kind, nonce
and session of the sender, and the other client decodes the payload that was sent.

Of the three libraries it is assumed that they agree on texts whose objects have distinct names, and of
Dart that it reads an integer below `2 ^ 63` as it is written (`Texts`).
-/

namespace DeskSync.Signaling

open Json (Distinct Members)

variable {Raw : Type}

/-- What the clients write, and how the libraries read it. -/
structure Texts (L : Libraries Raw) where
  /-- `serde_json::to_string`. -/
  serdeText : Json → Raw
  /-- `jsonEncode`. -/
  jsonEncode : Json → Raw
  go_serdeText : ∀ j, Distinct j → L.go.parse (serdeText j) = some j
  go_jsonEncode : ∀ j, Distinct j → L.go.parse (jsonEncode j) = some j
  serde_jsonEncode : ∀ j, Distinct j → L.serde (jsonEncode j) = some j
  jsonDecode_serdeText : ∀ j, Distinct j → L.jsonDecode (serdeText j) = some j
  toInt_int : ∀ n < 2 ^ 63, L.dart.toInt (.int false n) = some (n : ℤ)

/-! ### Payloads -/

/-- The two clients mean the same by the two payloads, which a client sends itself. -/
inductive SamePayload : Agent.SignalPayload → Mobile.SignalPayload → Prop
  | offer (sdp : String) : SamePayload (.offer sdp) (.offer sdp)
  | answer (sdp : String) : SamePayload (.answer sdp) (.answer sdp)
  | iceCandidate (candidate : String) (index : UInt16) (mid : Option String) :
    SamePayload (.iceCandidate candidate index) (.iceCandidate candidate index.toNat mid)
  | heartbeat : SamePayload .heartbeat .heartbeat
  | bye : SamePayload .bye .bye

/-- The payloads that the agent sends. -/
def agentSends : Agent.SignalPayload → Prop
  | .peerJoined _ | .peerLeft _ => False
  | _ => True

/-- The payloads that the mobile client sends, with the index of a candidate in range. -/
def mobileSends : Mobile.SignalPayload → Prop
  | .iceCandidate _ index _ => 0 ≤ index ∧ index < 65536
  | .peerJoined _ | .peerLeft _ | .unknown _ => False
  | _ => True

/-- The mobile client decodes no `sdp_mid` where none was written. -/
def withoutMid : Mobile.SignalPayload → Prop
  | .iceCandidate _ _ mid => mid = none
  | _ => True

theorem SamePayload.kind {p : Agent.SignalPayload} {q : Mobile.SignalPayload} (h : SamePayload p q) :
    p.kind = q.kind := by
  cases h <;> rfl

theorem samePayload_agent {p : Agent.SignalPayload} (hp : agentSends p) :
    ∃ q, SamePayload p q ∧ withoutMid q := by
  cases p with
  | offer sdp => exact ⟨_, .offer sdp, trivial⟩
  | answer sdp => exact ⟨_, .answer sdp, trivial⟩
  | iceCandidate candidate index => exact ⟨_, .iceCandidate candidate index none, rfl⟩
  | heartbeat => exact ⟨_, .heartbeat, trivial⟩
  | bye => exact ⟨_, .bye, trivial⟩
  | peerJoined role => exact hp.elim
  | peerLeft role => exact hp.elim

theorem samePayload_mobile {q : Mobile.SignalPayload} (hq : mobileSends q) : ∃ p, SamePayload p q := by
  cases q with
  | offer sdp => exact ⟨_, .offer sdp⟩
  | answer sdp => exact ⟨_, .answer sdp⟩
  | iceCandidate candidate index mid =>
    obtain ⟨hlow, hhigh⟩ := hq
    obtain ⟨n, rfl⟩ := Int.eq_ofNat_of_zero_le hlow
    have hn : n < 2 ^ 16 := by omega
    have hindex : (UInt16.ofNat n).toNat = n := UInt16.toNat_ofNat_of_lt' hn
    have hsame := SamePayload.iceCandidate candidate (.ofNat n) mid
    rw [hindex] at hsame
    exact ⟨_, hsame⟩
  | heartbeat => exact ⟨_, .heartbeat⟩
  | bye => exact ⟨_, .bye⟩
  | peerJoined role => exact hq.elim
  | peerLeft role => exact hq.elim
  | unknown kind => exact hq.elim

/-! ### What is written -/

/-- The names of the members besides the kind, for a payload that a client sends. -/
def sentNames : List (List String) :=
  [[], ["sdp"], ["candidate", "sdp_m_line_index"], ["candidate", "sdp_m_line_index", "sdp_mid"]]

theorem distinct_written {nonce tsMs : ℕ} {sessionID kind : String} {fields : Members}
    (hnames : fields.map Prod.fst ∈ sentNames) (hfields : ∀ f ∈ fields, Distinct f.2) :
    Distinct (written nonce tsMs sessionID kind fields) := by
  have hkind : (("kind" :: fields.map Prod.fst)).Nodup := by
    revert hnames
    generalize fields.map Prod.fst = names
    revert names
    decide
  have hpayload : Distinct (.obj (("kind", .str kind) :: fields)) := by
    refine .obj _ hkind fun m hm => ?_
    rcases List.mem_cons.1 hm with rfl | hm
    · exact .str kind
    · exact hfields m hm
  refine .obj _ (show ["v", "nonce", "ts_ms", "session_id", "payload"].Nodup by decide) ?_
  simp only [List.forall_mem_cons, List.not_mem_nil, IsEmpty.forall_iff, implies_true, and_true]
  exact ⟨.num _, .num _, .num _, .str sessionID, hpayload⟩

theorem intToJson_natCast (n : ℕ) : Mobile.intToJson n = .num (.int false n) := by
  simp [Mobile.intToJson]

theorem agent_toJson (sessionID : String) (nonce tsMs : UInt64) (p : Agent.SignalPayload) :
    (Agent.SignalEnvelope.new sessionID nonce tsMs p).toJson =
      written nonce.toNat tsMs.toNat sessionID p.kind p.fields := rfl

/-- The fields of a payload of the mobile client. -/
def mobileFields : Mobile.SignalPayload → Members
  | .offer sdp | .answer sdp => [("sdp", .str sdp)]
  | .iceCandidate candidate index mid =>
    [("candidate", .str candidate), ("sdp_m_line_index", Mobile.intToJson index)] ++
      (mid.map fun mid => ("sdp_mid", Json.str mid)).toList
  | .peerJoined role | .peerLeft role => [("role", .str role)]
  | .heartbeat | .bye | .unknown _ => []

theorem mobile_toJson (sessionID : String) (nonce tsMs : ℕ) (q : Mobile.SignalPayload) :
    Mobile.SignalEnvelope.toJson ⟨1, nonce, tsMs, sessionID, q⟩ =
      written nonce tsMs sessionID q.kind (mobileFields q) := by
  simp only [Mobile.SignalEnvelope.toJson, written, intToJson_natCast]
  cases q <;> rfl

/-! ### The hub -/

/-- The hub accepts an envelope with this header and kind. -/
def HubAccepts (L : Libraries Raw) (raw : Raw) (nonce tsMs : ℕ) (sessionID kind : String) : Prop :=
  ∃ env, parse (codec L.go) raw = some env ∧ env.kind (codec L.go) = kind ∧ env.nonce.toNat = nonce ∧
    env.tsMs.toNat = tsMs ∧ env.sessionID = sessionID

theorem foldlM_noKind {fields : Members} {kind : String}
    (h : ∀ f ∈ fields, Json.agrees "kind" f.1 = false) :
    fields.foldlM unmarshalKindField kind = some kind := by
  induction fields with
  | nil => rfl
  | cons f fields ih =>
    rw [List.forall_mem_cons] at h
    rw [List.foldlM_cons, unmarshalKindField, h.1]
    exact ih h.2

theorem hubAccepts_written {L : Libraries Raw} {raw : Raw} {nonce tsMs : ℕ} {sessionID kind : String}
    {fields : Members} (hraw : L.go.parse raw = some (written nonce tsMs sessionID kind fields))
    (hnonce : nonce < UInt64.size) (hts : tsMs < UInt64.size) (hsession : sessionID ≠ "")
    (hnames : fields.map Prod.fst ∈ sentNames) :
    HubAccepts L raw nonce tsMs sessionID kind := by
  have hfields : ∀ f ∈ fields, Json.agrees "kind" f.1 = false := by
    have hall : ∀ name ∈ fields.map Prod.fst, Json.agrees "kind" name = false := by
      revert hnames
      generalize fields.map Prod.fst = names
      revert names
      decide
    exact fun f hf => hall f.1 (List.mem_map_of_mem hf)
  refine ⟨⟨1, .ofNat nonce, .ofNat tsMs, sessionID,
    some (L.go.text (.obj (("kind", .str kind) :: fields)))⟩, ?_, ?_,
    UInt64.toNat_ofNat_of_lt' hnonce, UInt64.toNat_ofNat_of_lt' hts, rfl⟩
  · have henv : (codec L.go).unmarshalEnvelope raw = _ := unmarshalEnvelope_written hraw hnonce hts
    rw [parse, henv]
    simp [version, hsession]
  · show ((codec L.go).unmarshalKind _).getD "" = kind
    have hkind : (codec L.go).unmarshalKind (L.go.text (.obj (("kind", .str kind) :: fields))) =
        some kind := by
      show unmarshalKind L.go _ = _
      rw [unmarshalKind, L.go.parse_text]
      simp only [List.foldlM_cons, unmarshalKindField, show Json.agrees "kind" "kind" = true by decide,
        Json.isNull, Json.string]
      exact foldlM_noKind hfields
    rw [hkind]
    rfl

/-! ### The other client -/

/-- `serde_json::from_str`. -/
def agentReads (L : Libraries Raw) (raw : Raw) : Option Agent.SignalEnvelope :=
  (L.serde raw).bind Agent.deserializeEnvelope

/-- `SignalEnvelope.fromJson(j as Map<String, dynamic>)`. -/
def fromMap (rt : Mobile.Runtime) : Json → Option Mobile.SignalEnvelope
  | .obj ms => Mobile.SignalEnvelope.fromJson rt ms
  | _ => none

/-- The mobile client on a text. -/
def mobileReads (L : Libraries Raw) (raw : Raw) : Option Mobile.SignalEnvelope :=
  (L.jsonDecode raw).bind (fromMap L.dart)

theorem describes_payload {p : Agent.SignalPayload} {q : Mobile.SignalPayload} (h : SamePayload p q) :
    p.Describes (.obj (("kind", .str q.kind) :: mobileFields q)) := by
  cases h with
  | iceCandidate candidate index mid =>
    cases mid <;>
      simp [Agent.SignalPayload.Describes, Agent.SignalPayload.kind, Agent.SignalPayload.fields,
        mobileFields, Mobile.SignalPayload.kind, Json.Once, intToJson_natCast]
  | _ =>
    simp [Agent.SignalPayload.Describes, Agent.SignalPayload.kind, Agent.SignalPayload.fields,
      mobileFields, Mobile.SignalPayload.kind, Json.Once]

theorem agent_written {p : Agent.SignalPayload} {q : Mobile.SignalPayload} (h : SamePayload p q)
    (sessionID : String) (nonce tsMs : UInt64) :
    Agent.deserializeEnvelope
        (written nonce.toNat tsMs.toNat sessionID q.kind (mobileFields q)) =
      some (.new sessionID nonce tsMs p) := by
  refine Agent.deserializeEnvelope_iff.2 ⟨_, describes_payload h, ?_⟩
  simp [written, Agent.SignalEnvelope.new, Agent.SignalEnvelope.header, Json.Once]

theorem mobile_payload {rt : Mobile.Runtime} (hint : ∀ n < 2 ^ 63, rt.toInt (.int false n) = some (n : ℤ))
    {p : Agent.SignalPayload} {q : Mobile.SignalPayload} (h : SamePayload p q) (hq : withoutMid q) :
    Mobile.SignalPayload.fromJson rt (("kind", .str p.kind) :: p.fields) = some q := by
  cases h with
  | iceCandidate candidate index mid =>
    obtain rfl := hq
    have hindex : rt.toInt (.int false index.toNat) = some (index.toNat : ℤ) :=
      hint _ (lt_of_lt_of_le index.toNat_lt_size (by decide))
    simp [Mobile.SignalPayload.fromJson, Mobile.get, Json.last, Agent.SignalPayload.kind,
      Agent.SignalPayload.fields, Mobile.asString, Mobile.asString?, Mobile.asInt, hindex]
  | _ =>
    simp [Mobile.SignalPayload.fromJson, Mobile.get, Json.last, Agent.SignalPayload.kind,
      Agent.SignalPayload.fields, Mobile.asString, Mobile.asString?]

theorem mobile_written {rt : Mobile.Runtime} (hint : ∀ n < 2 ^ 63, rt.toInt (.int false n) = some (n : ℤ))
    {p : Agent.SignalPayload} {q : Mobile.SignalPayload} (h : SamePayload p q) (hq : withoutMid q)
    {nonce tsMs : ℕ} (hnonce : nonce < 2 ^ 63) (hts : tsMs < 2 ^ 63) (sessionID : String) :
    fromMap rt (written nonce tsMs sessionID p.kind p.fields) =
      some ⟨1, nonce, tsMs, sessionID, q⟩ := by
  have hpayload := mobile_payload hint h hq
  simp [fromMap, written, Mobile.SignalEnvelope.fromJson, Mobile.get, Json.last, Mobile.asInt, Mobile.asString,
    Mobile.asString?, Mobile.asPayload, hint 1 (by decide), hint _ hnonce, hint _ hts, hpayload]

/-! ### The result -/

/-- What the agent writes. -/
theorem distinct_agent {p : Agent.SignalPayload} (hp : agentSends p) (sessionID : String)
    (nonce tsMs : ℕ) :
    p.fields.map Prod.fst ∈ sentNames ∧ Distinct (written nonce tsMs sessionID p.kind p.fields) := by
  have hnames : p.fields.map Prod.fst ∈ sentNames := by
    cases p <;> first | exact hp.elim | simp [Agent.SignalPayload.fields, sentNames]
  refine ⟨hnames, distinct_written hnames ?_⟩
  cases p <;> simp [Agent.SignalPayload.fields, Distinct.str, Distinct.num]

/-- What the mobile client writes. -/
theorem distinct_mobile {q : Mobile.SignalPayload} (hq : mobileSends q) (sessionID : String)
    (nonce tsMs : ℕ) :
    (mobileFields q).map Prod.fst ∈ sentNames ∧
      Distinct (written nonce tsMs sessionID q.kind (mobileFields q)) := by
  have hnames : (mobileFields q).map Prod.fst ∈ sentNames := by
    cases q with
    | iceCandidate candidate index mid => cases mid <;> simp [mobileFields, sentNames]
    | peerJoined role => exact hq.elim
    | peerLeft role => exact hq.elim
    | _ => simp [mobileFields, sentNames]
  refine ⟨hnames, distinct_written hnames ?_⟩
  cases q with
  | iceCandidate candidate index mid =>
    cases mid <;> simp [mobileFields, Mobile.intToJson, Distinct.str, Distinct.num]
  | _ => simp [mobileFields, Distinct.str]

/-- The envelopes of the two clients cross the hub. -/
theorem crosses {L : Libraries Raw} (T : Texts L) (sessionID : String) (hsession : sessionID ≠ "") :
    (∀ (p : Agent.SignalPayload) (nonce tsMs : UInt64), agentSends p →
      nonce.toNat < 2 ^ 63 → tsMs.toNat < 2 ^ 63 →
      HubAccepts L (T.serdeText (Agent.SignalEnvelope.new sessionID nonce tsMs p).toJson)
        nonce.toNat tsMs.toNat sessionID p.kind ∧
      ∃ q, mobileReads L (T.serdeText (Agent.SignalEnvelope.new sessionID nonce tsMs p).toJson) =
        some ⟨1, nonce.toNat, tsMs.toNat, sessionID, q⟩ ∧ SamePayload p q ∧ withoutMid q) ∧
    (∀ (q : Mobile.SignalPayload) (nonce tsMs : ℕ), mobileSends q → nonce < 2 ^ 63 → tsMs < 2 ^ 63 →
      HubAccepts L (T.jsonEncode (Mobile.SignalEnvelope.toJson ⟨1, nonce, tsMs, sessionID, q⟩))
        nonce tsMs sessionID q.kind ∧
      ∃ p, agentReads L (T.jsonEncode (Mobile.SignalEnvelope.toJson ⟨1, nonce, tsMs, sessionID, q⟩)) =
        some (.new sessionID (.ofNat nonce) (.ofNat tsMs) p) ∧ SamePayload p q) := by
  constructor
  · intro p nonce tsMs hp hnonce hts
    obtain ⟨hnames, hdistinct⟩ := distinct_agent hp sessionID nonce.toNat tsMs.toNat
    rw [agent_toJson]
    refine ⟨hubAccepts_written (T.go_serdeText _ hdistinct) nonce.toNat_lt_size tsMs.toNat_lt_size
      hsession hnames, ?_⟩
    obtain ⟨q, hsame, hmid⟩ := samePayload_agent hp
    refine ⟨q, ?_, hsame, hmid⟩
    rw [mobileReads, T.jsonDecode_serdeText _ hdistinct]
    exact mobile_written T.toInt_int hsame hmid hnonce hts sessionID
  · intro q nonce tsMs hq hnonce hts
    obtain ⟨hnames, hdistinct⟩ := distinct_mobile hq sessionID nonce tsMs
    have hsize : (2 : ℕ) ^ 63 < UInt64.size := by decide
    have hnonce := lt_trans hnonce hsize
    have hts := lt_trans hts hsize
    rw [mobile_toJson]
    refine ⟨hubAccepts_written (T.go_jsonEncode _ hdistinct) hnonce hts hsession hnames, ?_⟩
    obtain ⟨p, hsame⟩ := samePayload_mobile hq
    refine ⟨p, ?_, hsame⟩
    rw [agentReads, T.serde_jsonEncode _ hdistinct]
    have hread := agent_written hsame sessionID (.ofNat nonce) (.ofNat tsMs)
    rwa [UInt64.toNat_ofNat_of_lt' hnonce, UInt64.toNat_ofNat_of_lt' hts] at hread

/-- Both clients write documents. -/
def documentTexts : Texts onDocuments where
  serdeText := id
  jsonEncode := id
  go_serdeText := fun _ _ => rfl
  go_jsonEncode := fun _ _ => rfl
  serde_jsonEncode := fun _ _ => rfl
  jsonDecode_serdeText := fun _ _ => rfl
  toInt_int := fun _ _ => rfl

/-- A candidate of the phone, at its seventh message. -/
theorem candidate_crosses :
    HubAccepts onDocuments
        (Mobile.SignalEnvelope.toJson ⟨1, 7, 1700000000000, "s1", .iceCandidate "candidate:1" 2 (some "0")⟩)
        7 1700000000000 "s1" kindICECandidate ∧
      ∃ p, agentReads onDocuments
          (Mobile.SignalEnvelope.toJson ⟨1, 7, 1700000000000, "s1", .iceCandidate "candidate:1" 2 (some "0")⟩) =
        some (.new "s1" 7 1700000000000 p) ∧ SamePayload p (.iceCandidate "candidate:1" 2 (some "0")) :=
  (crosses documentTexts "s1" (by decide)).2 (.iceCandidate "candidate:1" 2 (some "0")) 7 1700000000000
    ⟨by decide, by decide⟩ (by decide) (by decide)

end DeskSync.Signaling
