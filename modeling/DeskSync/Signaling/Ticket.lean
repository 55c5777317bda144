import DeskSync.Backend.Basic
import DeskSync.Lib.Base64
import DeskSync.Lib.Mac
import DeskSync.Signaling.Protocol

/-!
# Signaling tickets

`pkg/signalticket`: `Issue` signs the JSON of a ticket and writes both in base64 behind a version, `Verify`
takes such a string apart again. A Go string is its bytes, and the clock is in nanoseconds.

What is signed is the JSON and not its base64, and decoding is not strict, so a ticket has many spellings
that verify. `Authentic` says what holds of each of them, and `verify_authentic` that nothing else
verifies; `verify_issue` that an issued ticket does until it expires.
-/

namespace DeskSync.Signaling

open Backend

/-! ### `Ticket` -/

structure Ticket where
  sessionID : String
  userID : String
  role : String
  /-- Unix seconds. -/
  expiresAt : Int64
  deriving DecidableEq

/-- `Role.Valid`. -/
def validRole (role : String) : Bool := role == Role.controller.name || role == Role.agent.name

inductive TicketError
  | malformed
  | signature
  | expired
  | role
  deriving DecidableEq

/-- `encoding/json` on a `Ticket`, as an object with the members `sid`, `uid`, `role` and `exp`. -/
structure TicketJson where
  marshal : Ticket → Bytes
  unmarshal : Bytes → Option Ticket
  unmarshal_marshal : ∀ t, unmarshal (marshal t) = some t

/-- `Time.Unix`, of a time in nanoseconds. -/
def unix (t : ℤ) : Int64 := .ofInt (t / 1000000000)

/-- Neither end starts with a shorter secret. -/
abbrev Secret := {secret : Bytes // 16 ≤ secret.length}

structure Issuer where
  secret : Secret
  ttl : ℤ
  ttl_pos : 0 < ttl

def dot : UInt8 := 0x2E

/-- `v1`. -/
def ticketVersion : Bytes := [0x76, 0x31]

/-- `b64.EncodeToString`. -/
def b64Encode (bs : Bytes) : Bytes := Base64.encode Base64.url false bs

/-- `b64.DecodeString`. -/
def b64Decode (s : Bytes) : Option Bytes := Base64.decode Base64.url false s

section Package
variable (M : Mac Bytes) (json : TicketJson)

def Issuer.ticket (i : Issuer) (now : ℤ) (sessionID userID role : String) : Ticket :=
  { sessionID, userID, role, expiresAt := unix (now + i.ttl) }

/-- `Issuer.Issue`. -/
def Issuer.issue (i : Issuer) (now : ℤ) (sessionID userID role : String) : Except TicketError Bytes :=
  if !validRole role then .error .role
  else
    let payload := json.marshal (i.ticket now sessionID userID role)
    .ok (ticketVersion ++ [dot] ++ b64Encode payload ++ [dot] ++ b64Encode (M.sign i.secret payload))

/-- `Verifier.Verify`, when `log` has been signed; the check of the MAC stands for `hmac.Equal` with the
signature of the payload. -/
def verify (log : List (Signing Bytes)) (secret : Secret) (now : ℤ) (token : Bytes) :
    Except TicketError Ticket :=
  match token.splitOn dot with
  | [version, payload, sig] =>
    if version ≠ ticketVersion then .error .malformed
    else match b64Decode payload with
      | none => .error .malformed
      | some payload =>
        match b64Decode sig with
        | none => .error .malformed
        | some sig =>
          if !M.check log secret payload sig then .error .signature
          else match json.unmarshal payload with
            | none => .error .malformed
            | some t =>
              if !validRole t.role then .error .role
              else if unix now > t.expiresAt then .error .expired
              else .ok t
  | _ => .error .malformed

end Package

/-! ### What was issued -/

/-- A call of `Issue`, by an issuer with the secret at hand. -/
structure IssueCall where
  ttl : ℤ
  ttl_pos : 0 < ttl
  now : ℤ
  sessionID : String
  userID : String
  role : String

namespace IssueCall
variable (M : Mac Bytes) (json : TicketJson) (secret : Secret) (call : IssueCall)

def issuer : Issuer := ⟨secret, call.ttl, call.ttl_pos⟩

def ticket : Ticket := (call.issuer secret).ticket call.now call.sessionID call.userID call.role

def run : Except TicketError Bytes :=
  (call.issuer secret).issue M json call.now call.sessionID call.userID call.role

end IssueCall

/-- What a history of calls has signed. -/
def signed (json : TicketJson) (secret : Secret) (issued : List IssueCall) : List (Signing Bytes) :=
  (issued.filter fun call => validRole call.role).map fun call => ⟨secret, json.marshal (call.ticket secret)⟩

/-- The string is a spelling of the ticket that the call issued, which is returned and has not expired. -/
structure Authentic (json : TicketJson) (secret : Secret) (now : ℤ) (token : Bytes) (t : Ticket)
    (call : IssueCall) : Prop where
  parts : ∃ payload sig, token.splitOn dot = [ticketVersion, payload, sig] ∧
    b64Decode payload = some (json.marshal (call.ticket secret))
  sessionID : t.sessionID = call.sessionID
  userID : t.userID = call.userID
  role : t.role = call.role
  known : t.role = "controller" ∨ t.role = "agent"
  expiresAt : t.expiresAt = unix (call.now + call.ttl)
  fresh : unix now ≤ t.expiresAt

theorem validRole_iff {role : String} : validRole role = true ↔ role = "controller" ∨ role = "agent" := by
  simp [validRole, Role.name]

section Verify
variable {M : Mac Bytes} {json : TicketJson} {log : List (Signing Bytes)} {secret : Secret} {now : ℤ}
  {token : Bytes} {t : Ticket}

/-- What `Verify` checks. -/
theorem verify_eq_ok : verify M json log secret now token = .ok t ↔
    ∃ text sigText payload sig, token.splitOn dot = [ticketVersion, text, sigText] ∧
      b64Decode text = some payload ∧ b64Decode sigText = some sig ∧
      M.check log secret payload sig = true ∧ json.unmarshal payload = some t ∧
      validRole t.role = true ∧ unix now ≤ t.expiresAt := by
  constructor
  · intro h
    unfold verify at h
    split at h
    · rename_i version text sigText hparts
      split_ifs at h with hversion
      rw [not_not.1 hversion] at hparts
      split at h
      · cases h
      · rename_i payload hpayload
        split at h
        · cases h
        · rename_i sig hsig
          split_ifs at h with hcheck
          split at h
          · cases h
          · rename_i t' ht
            split_ifs at h with hrole hexp
            obtain rfl := Except.ok.inj h
            refine ⟨text, sigText, payload, sig, hparts, hpayload, hsig, ?_, ht, ?_, ?_⟩
            · simpa using hcheck
            · simpa using hrole
            · simpa using hexp
    · cases h
  · rintro ⟨text, sigText, payload, sig, hparts, hpayload, hsig, hcheck, ht, hrole, hexp⟩
    have hfresh : ¬ unix now > t.expiresAt := by simpa using hexp
    simp only [verify, hparts, hpayload, hsig, hcheck, ht, hrole, ne_eq, not_true_eq_false, if_false,
      Bool.not_true, Bool.false_eq_true, hfresh]

/-- A ticket that verifies was issued. -/
theorem verify_authentic (hM : M.Unforgeable) {issued : List IssueCall}
    (h : verify M json (signed json secret issued) secret now token = .ok t) :
    ∃ call ∈ issued, validRole call.role = true ∧ Authentic json secret now token t call := by
  obtain ⟨text, sigText, payload, sig, hparts, hpayload, -, hcheck, ht, hrole, hexp⟩ := verify_eq_ok.1 h
  obtain ⟨hmem, -⟩ := hM.check_eq_true.1 hcheck
  obtain ⟨call, hcall, heq⟩ := List.mem_map.1 hmem
  obtain ⟨hissued, hvalid⟩ := List.mem_filter.1 hcall
  obtain rfl : json.marshal (call.ticket secret) = payload := congrArg Signing.msg heq
  rw [json.unmarshal_marshal] at ht
  obtain rfl := Option.some.inj ht
  exact ⟨call, hissued, hvalid, ⟨text, sigText, hparts, hpayload⟩, rfl, rfl, rfl, validRole_iff.1 hrole, rfl,
    hexp⟩

theorem dot_not_mem (bs : Bytes) : dot ∉ b64Encode bs := Base64.not_mem_encode rfl (by decide) bs

theorem splitOn_token (payload sig : Bytes) :
    (ticketVersion ++ [dot] ++ b64Encode payload ++ [dot] ++ b64Encode sig).splitOn dot =
      [ticketVersion, b64Encode payload, b64Encode sig] := by
  have hversion : dot ∉ ticketVersion := by decide
  simp only [List.append_assoc, List.cons_append, List.nil_append]
  rw [List.splitOn_append_cons_self_of_not_mem hversion,
    List.splitOn_append_cons_self_of_not_mem (dot_not_mem payload),
    List.splitOn_eq_singleton (dot_not_mem sig)]

/-- An issued ticket verifies until it expires. -/
theorem verify_issue (hM : M.Unforgeable) {issued : List IssueCall} {call : IssueCall}
    (hcall : call ∈ issued) (h : call.run M json secret = .ok token)
    (hnow : unix now ≤ unix (call.now + call.ttl)) :
    verify M json (signed json secret issued) secret now token = .ok (call.ticket secret) := by
  unfold IssueCall.run Issuer.issue at h
  split_ifs at h with hrole
  have hvalid : validRole call.role = true := by simpa using hrole
  have hsigned : (⟨secret, json.marshal (call.ticket secret)⟩ : Signing Bytes) ∈ signed json secret issued :=
    List.mem_map_of_mem (List.mem_filter.2 ⟨hcall, hvalid⟩)
  rw [← Except.ok.inj h]
  exact verify_eq_ok.2 ⟨_, _, _, _, splitOn_token _ _, Base64.decode_encode _ _, Base64.decode_encode _ _,
    hM.check_eq_true.2 ⟨hsigned, rfl⟩, json.unmarshal_marshal _, hvalid, hnow⟩

end Verify

/-! ### A sample secret -/

def sampleSecret : Secret := ⟨bytes "0123456789abcdef", by decide +kernel⟩

def sampleTicket : Ticket := ⟨"s1", "u1", "controller", 60⟩

def samplePayload : Bytes :=
  bytes "\x7b\"sid\":\"s1\",\"uid\":\"u1\",\"role\":\"controller\",\"exp\":60\x7d"

def runes (s : String) : List ℕ := s.toList.map Char.toNat

def ofRunes (ns : List ℕ) : String := String.ofList (ns.map Char.ofNat)

theorem ofRunes_runes (s : String) : ofRunes (runes s) = s := by
  simp [ofRunes, runes, Function.comp_def]

/-- The fields of a ticket as one number. -/
def Ticket.number (t : Ticket) : ℕ :=
  Encodable.encode (runes t.sessionID, runes t.userID, runes t.role, t.expiresAt.toInt)

def Ticket.ofNumber (n : ℕ) : Option Ticket :=
  (Encodable.decode (α := List ℕ × List ℕ × List ℕ × ℤ) n).map fun (sid, uid, role, exp) =>
    ⟨ofRunes sid, ofRunes uid, ofRunes role, .ofInt exp⟩

theorem Ticket.ofNumber_number (t : Ticket) : ofNumber t.number = some t := by
  rw [ofNumber, number, Encodable.encodek, Option.map_some]
  simp only [ofRunes_runes, Int64.ofInt_toInt]

/-- The JSON of the sample ticket; the others are written in unary. -/
def sampleTicketJson : TicketJson where
  marshal t := if t = sampleTicket then samplePayload else List.replicate t.number 0
  unmarshal payload := if payload = samplePayload then some sampleTicket else Ticket.ofNumber payload.length
  unmarshal_marshal := by
    intro t
    by_cases ht : t = sampleTicket
    · rw [if_pos ht, if_pos rfl, ht]
    · have hne : List.replicate t.number 0 ≠ samplePayload := by
        intro h
        have hmem : (0x73 : UInt8) ∈ samplePayload := by decide +kernel
        rw [← h] at hmem
        exact absurd (List.eq_of_mem_replicate hmem) (by decide)
      rw [if_neg ht, if_neg hne, List.length_replicate, Ticket.ofNumber_number]

/-- HMAC-SHA256 of the sample payload under the sample secret. -/
def sampleTag : Bytes :=
  [0xba, 0x41, 0x64, 0x5e, 0x9a, 0x20, 0xf0, 0x34, 0x47, 0x5c, 0x12, 0x4a, 0xaa, 0x60, 0x68, 0xef,
    0xb5, 0x2c, 0x63, 0x2a, 0x21, 0x84, 0xd3, 0x02, 0xfe, 0xa7, 0xdc, 0x56, 0xfe, 0x48, 0xf0, 0x82]

def sampleMac : Mac Bytes :=
  .ofSign fun secret payload => if secret = sampleSecret ∧ payload = samplePayload then sampleTag else []

/-- A ticket of a minute, issued at time zero. -/
def sampleCall : IssueCall := ⟨60000000000, by decide, 0, "s1", "u1", "controller"⟩

def sampleToken : Bytes :=
  bytes ("v1.eyJzaWQiOiJzMSIsInVpZCI6InUxIiwicm9sZSI6ImNvbnRyb2xsZXIiLCJleHAiOjYwfQ." ++
    "ukFkXpog8DRHXBJKqmBo77UsYyohhNMC_qfcVv5I8II")

example : sampleCall.run sampleMac sampleTicketJson sampleSecret = .ok sampleToken := by decide +kernel

end DeskSync.Signaling
