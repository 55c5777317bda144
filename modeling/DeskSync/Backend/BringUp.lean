import DeskSync.Backend.Rooms
import DeskSync.Lib.Query
import DeskSync.Session.Wire

/-!
# From a session to its room

The way from the answers of the session service to the room: both clients read the answer (`Wire`), append ticket,
session and role to the signaling URL, and the endpoint compares what it is asked for with the ticket
(`authenticate`). The phone escapes what it appends, the agent does not; the tickets and the ids have nothing to
escape.

What the libraries do in between is assumed of them (`Transport`). `bring_up`: in every run, the URL that the
creator of a session connects to joins its room as the controller, and the URLs that the agent connects to for its
pending sessions join theirs as the agent, until the tickets expire.
-/

namespace DeskSync.Backend

open Proc Query
open Signaling (TicketJson Secret IssueCall Read)

/-! ### The URLs -/

/-- `Uri.encodeQueryComponent`. -/
def encodeQueryComponent (s : String) : List Char := Percent.queryEscape (bytes s)

def withParameters (base ticket session role : List Char) : List Char :=
  base ++ (if base.contains '?' then '&' else '?') ::
    ("ticket=".toList ++ ticket ++ "&session=".toList ++ session ++ "&role=".toList ++ role)

/-- The URL of `SignalingClient.connect`. -/
def connectUrl (url ticket sessionID role : String) : List Char :=
  withParameters url.toList (encodeQueryComponent ticket) (encodeQueryComponent sessionID) (encodeQueryComponent role)

/-- The URL of `WebSocketSignaling::new`. -/
def signalingUrl (baseURL sessionID ticket role : String) : List Char :=
  withParameters baseURL.toList ticket.toList sessionID.toList role.toList

/-- The WebSocket libraries of the clients and the framework of the endpoint, which send and read the query of a
URL. -/
structure Transport where
  /-- `c.Query`, of the request for the URL. -/
  query : (url : List Char) → (key : String) → Bytes
  query_render : ∀ head ps, (∀ c ∈ head, c ≠ '?' ∧ c ≠ '#') → ps ≠ [] → (∀ p ∈ ps, Plain p) → ∀ key,
    query (head ++ '?' :: render ps) key = find (bytes key) ps

/-- The upgrade request for the URL. -/
def Transport.upgrade (t : Transport) (url : List Char) : Signaling.Upgrade where
  isUpgrade := true
  ticket := t.query url "ticket"
  session := t.query url "session"
  role := t.query url "role"

/-- The configured URL has no fragment, and no parameters of the names that are appended. -/
def BaseUrl (url : String) : Prop :=
  ∃ head own, (∀ c ∈ head, c ≠ '?' ∧ c ≠ '#') ∧ url.toList = head ++ (if own = [] then [] else '?' :: render own) ∧
    ∀ p ∈ own, Plain p ∧ ∀ key ∈ ["ticket", "session", "role"], Percent.queryUnescape p.1 ≠ some (bytes key)

/-- Nothing to escape. -/
def Unreserved (cs : List Char) : Prop := ∀ c ∈ cs, c.toNat < 0x80 ∧ Percent.unreserved (UInt8.ofNat c.toNat) = true

section Urls
variable {t : Transport} {url : String} {ticket session role : List Char}

theorem withParameters_eq {head : List Char} {own : List Pair} (hhead : ∀ c ∈ head, c ≠ '?' ∧ c ≠ '#')
    (hurl : url.toList = head ++ (if own = [] then [] else '?' :: render own)) :
    withParameters url.toList ticket session role =
      head ++ '?' :: render (own ++ [("ticket".toList, ticket), ("session".toList, session), ("role".toList, role)]) := by
  have hthree : "ticket=".toList ++ ticket ++ "&session=".toList ++ session ++ "&role=".toList ++ role =
      render [("ticket".toList, ticket), ("session".toList, session), ("role".toList, role)] := by
    simp [render, renderPair, List.intercalate]
  have hnot : '?' ∉ head := fun h => (hhead _ h).1 rfl
  rw [withParameters, hthree, hurl]
  by_cases hown : own = []
  · subst hown
    simp [hnot]
  · rw [if_neg hown, render_append hown (List.cons_ne_nil _ _)]
    simp

theorem queryChar_name {name : String} (h : name.toList.all Percent.queryChar = true) :
    ∀ c ∈ name.toList, Percent.queryChar c = true := List.all_eq_true.1 h

/-- What is appended is what the endpoint reads. -/
theorem upgrade_eq (hurl : BaseUrl url) (hticket : ∀ c ∈ ticket, Percent.queryChar c = true)
    (hsession : ∀ c ∈ session, Percent.queryChar c = true) (hrole : ∀ c ∈ role, Percent.queryChar c = true) :
    t.upgrade (withParameters url.toList ticket session role) =
      ⟨true, (Percent.queryUnescape ticket).getD [], (Percent.queryUnescape session).getD [],
        (Percent.queryUnescape role).getD []⟩ := by
  obtain ⟨head, own, hhead, htext, hown⟩ := hurl
  have hplain : ∀ p ∈ own ++ [("ticket".toList, ticket), ("session".toList, session), ("role".toList, role)],
      Plain p := by
    intro p hp
    rcases List.mem_append.1 hp with hp | hp
    · exact (hown p hp).1
    · simp only [List.mem_cons, List.not_mem_nil, or_false] at hp
      obtain rfl | rfl | rfl := hp
      · exact ⟨queryChar_name (by decide), hticket⟩
      · exact ⟨queryChar_name (by decide), hsession⟩
      · exact ⟨queryChar_name (by decide), hrole⟩
  have hread (key : String) (hkey : key ∈ ["ticket", "session", "role"]) :
      t.query (withParameters url.toList ticket session role) key =
        find (bytes key) [("ticket".toList, ticket), ("session".toList, session), ("role".toList, role)] := by
    rw [withParameters_eq hhead htext, t.query_render head _ hhead (by simp) hplain]
    exact find_append fun p hp => (hown p hp).2 key hkey
  unfold Transport.upgrade
  rw [hread "ticket" (by simp), hread "session" (by simp), hread "role" (by simp), find_cons_self (by decide +kernel),
    find_cons_ne (by decide +kernel), find_cons_ne (by decide +kernel), find_nil, find_cons_ne (by decide +kernel),
    find_cons_self (by decide +kernel), find_cons_ne (by decide +kernel), find_nil, find_cons_ne (by decide +kernel),
    find_cons_ne (by decide +kernel), find_cons_self (by decide +kernel), find_nil]

theorem queryChar_of_unreserved (h : Unreserved ticket) : ∀ c ∈ ticket, Percent.queryChar c = true := by
  intro c hc
  obtain ⟨hascii, hun⟩ := h c hc
  simp [Percent.queryChar, hascii, hun]

theorem unreserved_of_all {s : String}
    (h : s.toList.all (fun c => decide (c.toNat < 0x80) && Percent.unreserved (UInt8.ofNat c.toNat)) = true) :
    Unreserved s.toList := by
  intro c hc
  have hboth := List.all_eq_true.1 h c hc
  rw [Bool.and_eq_true, decide_eq_true_eq] at hboth
  exact hboth

/-- What has nothing to escape is read as it is. -/
theorem queryUnescape_unreserved {s : String} (h : Unreserved s.toList) :
    Percent.queryUnescape s.toList = some (bytes s) := by
  have hread (cs : List Char) (hcs : Unreserved cs) :
      Percent.queryUnescape cs = some (cs.map fun c => UInt8.ofNat c.toNat) := by
    induction cs with
    | nil => rfl
    | cons c cs ih =>
      obtain ⟨hascii, hun⟩ := hcs c List.mem_cons_self
      have hpercent : c ≠ '%' := by
        rintro rfl
        exact absurd hun (by decide)
      have hplus : c ≠ '+' := by
        rintro rfl
        exact absurd hun (by decide)
      rw [Percent.queryUnescape_cons hpercent, if_neg (by omega), ih fun c hc => hcs c (List.mem_cons_of_mem _ hc),
        if_neg hplus]
      rfl
  have hbytes : ∀ b ∈ s.toList.map (fun c => UInt8.ofNat c.toNat), b.toNat < 128 := by
    intro b hb
    obtain ⟨c, hc, rfl⟩ := List.mem_map.1 hb
    have hascii := (h c hc).1
    rw [UInt8.toNat_ofNat']
    omega
  have hchars : (s.toList.map fun c => UInt8.ofNat c.toNat).map (fun b => Char.ofNat b.toNat) = s.toList := by
    rw [List.map_map]
    refine (List.map_congr_left fun c hc => ?_).trans (List.map_id s.toList)
    have hascii := (h c hc).1
    have hnat : (UInt8.ofNat c.toNat).toNat = c.toNat := by
      rw [UInt8.toNat_ofNat']
      omega
    rw [Function.comp_apply, hnat, Char.ofNat_toNat]
    rfl
  have htext : ascii (s.toList.map fun c => UInt8.ofNat c.toNat) = s := by
    rw [ascii, hchars, String.ofList_toList]
  have heq := bytes_ascii hbytes
  rw [htext] at heq
  rw [hread _ h, heq]

end Urls

/-! ### Tickets -/

section Tickets
variable {M : Mac Bytes} {json : TicketJson} {secret : Secret}

/-- A ticket has nothing to escape. -/
theorem unreserved_ticketString (tk : Signaling.Ticket) :
    Unreserved (ascii (ticketString M json secret tk)).toList := by
  have hdigit : ∀ b : UInt8, (Base64.url.value b).isSome = true → Percent.unreserved b = true := by decide +kernel
  have hencoded {bs : Bytes} : ∀ b ∈ Signaling.b64Encode bs, Percent.unreserved b = true := by
    intro b hb
    rcases List.mem_append.1 hb with hb | hb
    · exact hdigit b (Base64.isSome_value_digits hb)
    · exact absurd hb List.not_mem_nil
  have hversion : ∀ b ∈ Signaling.ticketVersion, Percent.unreserved b = true := by decide +kernel
  have hdot : ∀ b ∈ [Signaling.dot], Percent.unreserved b = true := by decide +kernel
  have hall : ∀ b ∈ ticketString M json secret tk, Percent.unreserved b = true := by
    unfold ticketString
    simp only [List.forall_mem_append]
    exact ⟨⟨⟨⟨hversion, hdot⟩, hencoded⟩, hdot⟩, hencoded⟩
  have hchar : ∀ b : UInt8, Percent.unreserved b = true →
      (Char.ofNat b.toNat).toNat < 0x80 ∧ UInt8.ofNat (Char.ofNat b.toNat).toNat = b := by decide +kernel
  intro c hc
  rw [ascii, String.toList_ofList] at hc
  obtain ⟨b, hb, rfl⟩ := List.mem_map.1 hc
  obtain ⟨hascii, hbyte⟩ := hchar b (hall b hb)
  exact ⟨hascii, by rw [hbyte]; exact hall b hb⟩

theorem unreserved_role (role : Fleet.Role) : Unreserved (roleOf role).name.toList := by
  refine unreserved_of_all ?_
  cases role <;> decide +kernel

/-- The endpoint lets the issued ticket through, with its session and its role. -/
theorem connect_issued {Raw : Type} (hM : M.Unforgeable) {issued : List IssueCall} {ttl : {t : Time // 0 < t}}
    {at' : Time} {sessionID userID : String} {role : Fleet.Role} (hcall : issueCall ttl at' sessionID userID role ∈ issued)
    {now : ℤ} (hnow : Signaling.unix now ≤ Signaling.unix (nanoseconds at' + nanoseconds ttl))
    (reads : List (Read Raw)) :
    Signaling.connect M json secret issued now
      ⟨true, ticketString M json secret ((issueCall ttl at' sessionID userID role).ticket secret), bytes sessionID,
        bytes (roleOf role).name⟩ reads = some (.serve sessionID (roleOf role) reads) := by
  have hverify := Signaling.verify_issue hM hcall (issueCall_run M json secret ttl at' sessionID userID role) hnow
  have hne : ticketString M json secret ((issueCall ttl at' sessionID userID role).ticket secret) ≠ [] := by
    simp [ticketString, Signaling.ticketVersion]
  have hauth : Signaling.authenticate M json (Signaling.signed json secret issued) secret now
      ⟨true, ticketString M json secret ((issueCall ttl at' sessionID userID role).ticket secret), bytes sessionID,
        bytes (roleOf role).name⟩ = .ok ((issueCall ttl at' sessionID userID role).ticket secret) := by
    unfold Signaling.authenticate
    rw [if_neg (by simp), if_neg hne, hverify]
    exact (if_neg fun h => h.2 rfl).trans (if_neg fun h => h.2 rfl)
  have hrole : Signaling.Role.ofName (roleOf role).name = some (roleOf role) := by
    cases role <;> decide +kernel
  unfold Signaling.connect
  rw [hauth]
  show (Signaling.Role.ofName (roleOf role).name).map _ = _
  rw [hrole]
  rfl

end Tickets

/-! ### Both clients join -/

section Clients
variable (Raw : Type) (M : Mac Bytes) (json : TicketJson) (secret : Secret) (t : Transport) (ttl : {t : Time // 0 < t})

/-- A ticket was signed for the session, the user and the role, and until it expires the URL joins the room. -/
def Joins (issued : List IssueCall) (url : List Char) (sessionID userID : String) (role : Fleet.Role) : Prop :=
  ∃ at', issueCall ttl at' sessionID userID role ∈ issued ∧
    ∀ now (reads : List (Read Raw)), Signaling.unix now ≤ Signaling.unix (nanoseconds at' + nanoseconds ttl) →
      Signaling.connect M json secret issued now (t.upgrade url) reads = some (.serve sessionID (roleOf role) reads)

/-- The phone reads the session it has created, and joins as the controller. -/
def PhoneJoins {DateTime : Type} (tryParse : String → Option DateTime) (rfc3339 : Time → String)
    (issued : List IssueCall) (userID : String) (c : Fleet.Created) : Prop :=
  ∃ created, Wire.Phone.SessionCreated.fromJson tryParse (Wire.createdMembers rfc3339 c) = some created ∧
    created.session.id = c.session.id ∧
    Joins Raw M json secret t ttl issued
      (connectUrl created.signalingURL created.signalingTicket created.session.id "controller") c.session.id userID
      .controller

/-- The agent reads its pending sessions, and joins them as the agent. -/
def AgentJoins (rfc3339 : Time → String) (issued : List IssueCall) (userID : String) (cs : List Fleet.Created) :
    Prop :=
  ∃ pending, Wire.Agent.deserializePending (Wire.pendingResponse rfc3339 cs) = some pending ∧
    pending.map (·.session.id) = cs.map (·.session.id) ∧
    ∀ p ∈ pending, Unreserved p.session.id.toList →
      Joins Raw M json secret t ttl issued (signalingUrl p.signalingURL p.session.id p.signalingTicket "agent")
        p.session.id userID .agent

end Clients

section Join
variable (Raw : Type) {M : Mac Bytes} {json : TicketJson} {secret : Secret} {s : Fleet.Services} (t : Transport)
  {ttl : {t : Time // 0 < t}} {issued : List IssueCall} {q : Fleet.Request} {c : Fleet.Created}

theorem getD_queryEscape (s : String) : (Percent.queryUnescape (encodeQueryComponent s)).getD [] = bytes s := by
  rw [encodeQueryComponent, Percent.queryUnescape_queryEscape, Option.getD_some]

/-- The phone's URL, which is escaped. -/
theorem joins_connectUrl (hM : M.Unforgeable) (hurl : BaseUrl s.session.signalingURL)
    (h : TicketOf M json secret s ttl issued q c) :
    Joins Raw M json secret t ttl issued
      (connectUrl c.signalingURL c.signalingTicket c.session.id (roleOf (ticketRole q)).name) c.session.id q.userID
      (ticketRole q) := by
  obtain ⟨at', hcall, hticket, hbase, -⟩ := h
  have hescaped (text : String) : ∀ c ∈ encodeQueryComponent text, Percent.queryChar c = true :=
    fun c hc => Percent.queryChar_of_mem hc
  refine ⟨at', hcall, fun now reads hnow => ?_⟩
  rw [connectUrl, hbase, upgrade_eq hurl (hescaped _) (hescaped _) (hescaped _), getD_queryEscape, getD_queryEscape,
    getD_queryEscape, hticket, bytes_ticketString]
  exact connect_issued hM hcall hnow reads

/-- The agent's URL, which is not. -/
theorem joins_signalingUrl (hM : M.Unforgeable) (hurl : BaseUrl s.session.signalingURL)
    (h : TicketOf M json secret s ttl issued q c) (hid : Unreserved c.session.id.toList) :
    Joins Raw M json secret t ttl issued
      (signalingUrl c.signalingURL c.session.id c.signalingTicket (roleOf (ticketRole q)).name) c.session.id q.userID
      (ticketRole q) := by
  obtain ⟨at', hcall, hticket, hbase, -⟩ := h
  have hname := unreserved_role (ticketRole q)
  have htext : Unreserved c.signalingTicket.toList := hticket ▸ unreserved_ticketString _
  have hread {text : String} (h : Unreserved text.toList) : (Percent.queryUnescape text.toList).getD [] = bytes text := by
    rw [queryUnescape_unreserved h, Option.getD_some]
  refine ⟨at', hcall, fun now reads hnow => ?_⟩
  rw [signalingUrl, hbase, upgrade_eq hurl (queryChar_of_unreserved htext) (queryChar_of_unreserved hid)
    (queryChar_of_unreserved hname), hread htext, hread hid, hread hname, hticket, bytes_ticketString]
  exact connect_issued hM hcall hnow reads

section Answers
variable {DateTime : Type} {tryParse : String → Option DateTime} {rfc3339 : Time → String} {userID : String}

theorem phoneJoins_of_ticketOf (hM : M.Unforgeable) (hurl : BaseUrl s.session.signalingURL) {pairingID : String}
    (h : TicketOf M json secret s ttl issued (.createSession userID pairingID) c) :
    PhoneJoins Raw M json secret t ttl tryParse rfc3339 issued userID c :=
  ⟨_, Wire.Phone.fromJson_created tryParse rfc3339 c, rfl, joins_connectUrl Raw t hM hurl h⟩

theorem agentJoins_of_ticketOf (hM : M.Unforgeable) (hurl : BaseUrl s.session.signalingURL) {desktop : String}
    {cs : List Fleet.Created}
    (h : ∀ c ∈ cs, TicketOf M json secret s ttl issued (.pendingForDevice userID desktop) c) :
    AgentJoins Raw M json secret t ttl rfc3339 issued userID cs := by
  refine ⟨_, Wire.Agent.deserialize_pendingResponse rfc3339 cs, ?_, fun p hp hid => ?_⟩
  · rw [List.map_map]
    rfl
  · obtain ⟨c, hc, rfl⟩ := List.mem_map.1 hp
    have hticket := h c hc
    have hjoin := joins_signalingUrl Raw t hM hurl hticket hid
    exact hjoin

end Answers

end Join

/-- Every session that is created or pending is joined by its client. -/
structure BringsUp {Raw DateTime : Type} (M : Mac Bytes) (json : TicketJson) (secret : Secret)
    (ttl : {t : Time // 0 < t}) (t : Transport) (tryParse : String → Option DateTime) (rfc3339 : Time → String)
    (b : Cluster Raw) : Prop where
  phone : ∀ (i : ℕ) userID pairingID c,
    b.services.threads[i]? = some ⟨.createSession userID pairingID, .ret (.created (.ok c))⟩ →
    PhoneJoins Raw M json secret t ttl tryParse rfc3339 b.endpoint.issued userID c
  agent : ∀ (i : ℕ) userID desktop cs,
    b.services.threads[i]? = some ⟨.pendingForDevice userID desktop, .ret (.pending (.ok cs))⟩ →
    AgentJoins Raw M json secret t ttl rfc3339 b.endpoint.issued userID cs

theorem AnswersSigned.bringsUp {Raw DateTime : Type} {M : Mac Bytes} {json : TicketJson} {secret : Secret}
    {s : Fleet.Services} {ttl : {t : Time // 0 < t}} {b : Cluster Raw} (h : AnswersSigned M json secret s ttl b)
    (hM : M.Unforgeable) (hurl : BaseUrl s.session.signalingURL) (t : Transport)
    (tryParse : String → Option DateTime) (rfc3339 : Time → String) :
    BringsUp M json secret ttl t tryParse rfc3339 b where
  phone := fun i _ _ c hi =>
    phoneJoins_of_ticketOf Raw t hM hurl (h i _ _ hi c (List.mem_singleton_self c)).1
  agent := fun i _ _ _ hi => agentJoins_of_ticketOf Raw t hM hurl fun c hc => (h i _ _ hi c hc).1

/-- **In every run of the services and the hub, a created session read by the phone and the pending sessions read by
the agent each give a URL that joins the room of the session, as the controller and as the agent, until the ticket
expires.** -/
theorem bring_up {Raw DateTime : Type} {M : Mac Bytes} (hM : M.Unforgeable) (json : TicketJson) (secret : Secret)
    (codec : Signaling.Codec Raw) (s : Fleet.Services) (ttl : {t : Time // 0 < t})
    (hs : s.session.tickets = packageIssuer M json secret ttl) (hurl : BaseUrl s.session.signalingURL) (t : Transport)
    (tryParse : String → Option DateTime) (rfc3339 : Time → String) (w : Fleet.Cloud) (hw : Fleet.Books w)
    (l : List (ClusterStep Raw)) :
    BringsUp M json secret ttl t tryParse rfc3339
      (Run.exec (Cluster.step M json secret codec s ttl) (.init w) l) := by
  have h : Joint M json secret s ttl (Run.exec (Cluster.step M json secret codec s ttl) (.init w) l) :=
    joint_run hM hs hw l
  exact h.answers.bringsUp hM hurl t tryParse rfc3339

/-- The first value of the text behind the `?`. -/
def sampleTransport : Transport where
  query url key := Query.read ((url.dropWhile (· != '?')).drop 1) (bytes key)
  query_render := by
    intro head ps hhead hps hplain key
    have hne : ∀ c ∈ head, (c != '?') = true := fun c hc => bne_iff_ne.2 (hhead c hc).1
    rw [List.dropWhile_append_of_pos hne, List.dropWhile_cons_of_neg (by decide), List.drop_one, List.tail_cons]
    exact read_render hps hplain

theorem baseUrl_sample : BaseUrl "wss://signal" := by
  have hplain : "wss://signal".toList.all (fun c => c != '?' && c != '#') = true := by decide
  refine ⟨"wss://signal".toList, [], fun c hc => ?_, (List.append_nil _).symm, fun _ hp => absurd hp List.not_mem_nil⟩
  simpa using List.all_eq_true.1 hplain c hc

/-- After the first session has been created, the agent of the desktop asks for the pending ones. -/
def polledSession : List (ClusterStep Json) :=
  firstSession ++ [.service (.spawn (.pendingForDevice "u1" "d1") (Fleet.goes "")),
    .service (.advance 1 (Fleet.goes ""))]

/-- Both sides of the first session have its answer. -/
theorem polledSession_joins :
    ((Run.exec (Cluster.step Signaling.sampleMac Signaling.sampleTicketJson Signaling.sampleSecret
        (Signaling.codec Json.documents) sampleServices ⟨60000, sampleTtl_pos⟩) (.init (.init pairedDb 0))
        polledSession).services.threads.map fun th => th.prog.result.map fun r => (createds r).map (·.session.id)) =
      [some ["s1"], some ["s1"]] ∧
    BringsUp Signaling.sampleMac Signaling.sampleTicketJson Signaling.sampleSecret ⟨60000, sampleTtl_pos⟩
      sampleTransport some (fun _ => "")
      (Run.exec (Cluster.step Signaling.sampleMac Signaling.sampleTicketJson Signaling.sampleSecret
        (Signaling.codec Json.documents) sampleServices ⟨60000, sampleTtl_pos⟩) (.init (.init pairedDb 0))
        polledSession) :=
  ⟨by decide +kernel, bring_up (Mac.ofSign_unforgeable _ : Signaling.sampleMac.Unforgeable) Signaling.sampleTicketJson
    Signaling.sampleSecret (Signaling.codec Json.documents) sampleServices ⟨60000, sampleTtl_pos⟩ rfl baseUrl_sample
    sampleTransport some (fun _ => "") _ pairedBooks polledSession⟩

end DeskSync.Backend
