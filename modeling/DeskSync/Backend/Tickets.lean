import DeskSync.Fleet.Service
import DeskSync.Signaling.Ws

/-!
# The tickets of the session service

The session service issues its tickets with `pkg/signalticket`, whose verifier the signaling service runs. Here the
issuer that is a parameter of the one (`Fleet.Issuer`) is the package of the other; the one counts in milliseconds,
the other in nanoseconds.

`packageIssuer_issue`: the text the session service hands out is the string of the package's call.
-/

namespace DeskSync.Backend

open Signaling (TicketJson Secret IssueCall)

/-! ### Texts of ASCII bytes -/

def ascii (bs : Bytes) : String := String.ofList (bs.map fun b => Char.ofNat b.toNat)

theorem bytes_ascii {bs : Bytes} (h : ∀ b ∈ bs, b.toNat < 128) : bytes (ascii bs) = bs := by
  have hchar : ∀ b : UInt8, b.toNat < 128 → String.utf8EncodeChar (Char.ofNat b.toNat) = [b] := by decide +kernel
  have hflat : (bs.map fun b => Char.ofNat b.toNat).flatMap String.utf8EncodeChar = bs := by
    rw [List.flatMap_map]
    calc bs.flatMap (fun b => String.utf8EncodeChar (Char.ofNat b.toNat)) = bs.flatMap fun b => [b] :=
          List.flatMap_congr fun b hb => hchar b (h b hb)
      _ = bs := List.flatMap_singleton' bs
  unfold bytes ascii
  rw [String.toUTF8_eq_toByteArray, String.toByteArray_ofList, List.utf8Encode, hflat]
  simp

/-! ### The issuer -/

/-- A time or a duration of the session service, in nanoseconds. -/
def nanoseconds (t : Time) : ℤ := t * 1000000

def roleOf : Fleet.Role → Signaling.Role
  | .controller => .controller
  | .agent => .agent

section Package
variable (M : Mac Bytes) (json : TicketJson) (secret : Secret) (ttl : {t : Time // 0 < t})

/-- The call of `Issue` that the session service makes. -/
def issueCall (now : Time) (sessionID userID : String) (role : Fleet.Role) : IssueCall where
  ttl := nanoseconds ttl
  ttl_pos := Int.mul_pos (Int.natCast_pos.2 ttl.2) (by decide)
  now := nanoseconds now
  sessionID
  userID
  role := (roleOf role).name

/-- The ticket as the package writes it. -/
def ticketString (t : Signaling.Ticket) : Bytes :=
  Signaling.ticketVersion ++ [Signaling.dot] ++ Signaling.b64Encode (json.marshal t) ++ [Signaling.dot] ++
    Signaling.b64Encode (M.sign secret (json.marshal t))

/-- The issuer of the package. -/
def packageIssuer : Fleet.Issuer where
  ttl := ttl
  encode t := .ok (ascii (ticketString M json secret
    ⟨t.sessionID, t.userID, (roleOf t.role).name, .ofNat t.expiresAt⟩))
  ttl_pos := ttl.2

theorem issueCall_run (now : Time) (sessionID userID : String) (role : Fleet.Role) :
    (issueCall ttl now sessionID userID role).run M json secret =
      .ok (ticketString M json secret ((issueCall ttl now sessionID userID role).ticket secret)) := by
  have hrole : (!Signaling.validRole (issueCall ttl now sessionID userID role).role) = false := by
    have hname (role : Signaling.Role) : Signaling.validRole role.name = true := by cases role <;> decide +kernel
    exact congrArg (! ·) (hname (roleOf role))
  unfold IssueCall.run Signaling.Issuer.issue
  rw [hrole]
  rfl

/-- Seconds are cut off alike. -/
theorem unix_nanoseconds (now ttl : Time) :
    Signaling.unix (nanoseconds now + nanoseconds ttl) = .ofNat ((now + ttl) / 1000) := by
  have hdiv : (nanoseconds now + nanoseconds ttl) / 1000000000 = (((now + ttl) / 1000 : ℕ) : ℤ) := by
    unfold nanoseconds
    omega
  rw [Signaling.unix, hdiv]
  exact Int64.ofInt_eq_ofNat

/-- The session service hands out what the package's call returns. -/
theorem packageIssuer_issue (now : Time) (sessionID userID : String) (role : Fleet.Role) :
    (packageIssuer M json secret ttl).issue now sessionID userID role =
      .ok (ascii (ticketString M json secret ((issueCall ttl now sessionID userID role).ticket secret))) := by
  have hunix := unix_nanoseconds now ttl
  show Except.ok (ascii (ticketString M json secret ⟨_, _, _, .ofNat ((now + ttl) / 1000)⟩)) = _
  rw [← hunix]
  rfl

/-- The bytes of the text are those of the string. -/
theorem bytes_ticketString (t : Signaling.Ticket) : bytes (ascii (ticketString M json secret t)) = ticketString M json secret t := by
  have hletter : ∀ b : UInt8, (Base64.url.value b).isSome = true ∨ b = 0x3D → b.toNat < 128 := by decide +kernel
  have hencoded {bs : Bytes} : ∀ b ∈ Signaling.b64Encode bs, b.toNat < 128 :=
    fun b hb => hletter b (Base64.mem_encode hb)
  have hversion : ∀ b ∈ Signaling.ticketVersion, b.toNat < 128 := by decide +kernel
  have hdot : ∀ b ∈ [Signaling.dot], b.toNat < 128 := by decide +kernel
  refine bytes_ascii ?_
  unfold ticketString
  simp only [List.forall_mem_append]
  exact ⟨⟨⟨⟨hversion, hdot⟩, hencoded⟩, hdot⟩, hencoded⟩

end Package

end DeskSync.Backend
