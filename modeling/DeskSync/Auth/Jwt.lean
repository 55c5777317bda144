import DeskSync.Auth.Rotation

/-!
# Tokens of the auth service

What the JWT library promises (`JwtLaws`), and what follows for the pairs `Manager.Issue` signs: of a pair the access
token is verified only, and the refresh token names its row.
-/

namespace DeskSync.Auth

open Backend (Time)

/-- `Manager.VerifyAccess`. -/
def Manager.verifyAccess (m : Manager) (now : Time) (token : String) : Except Manager.VerifyError Claims :=
  m.verify now token m.accessSecret .access

/-- What the JWT library promises of the tokens it signs, and checks of those it accepts. Dates are cut to
seconds. -/
structure JwtLaws (lib : JwtLib) : Prop where
  payload_signed : ∀ {secret claims token}, lib.signedString secret claims = .ok token → lib.payload token = some
    { claims with
      issuedAt := claims.issuedAt / 1000 * 1000
      expiresAt := claims.expiresAt / 1000 * 1000 }
  unexpired : ∀ {now secret issuer token claims}, lib.valid now secret issuer token = true →
    lib.payload token = some claims → now < claims.expiresAt

section Verify
variable {m : Manager} {now : Time} {token : String} {claims : Claims}

/-- `Issue` signs both tokens. -/
theorem issue_signed {userID jti : String} {pair : TokenPair} (h : m.issue now userID jti = .ok pair) :
    m.lib.signedString m.accessSecret (m.claims now userID "" m.accessTTL .access) = .ok pair.accessToken ∧
      m.lib.signedString m.refreshSecret (m.claims now userID jti m.refreshTTL .refresh) = .ok pair.refreshToken := by
  unfold Manager.issue at h
  cases haccess : m.lib.signedString m.accessSecret (m.claims now userID "" m.accessTTL .access) with
  | error _ =>
    rw [haccess] at h
    cases h
  | ok access =>
    cases hrefresh : m.lib.signedString m.refreshSecret (m.claims now userID jti m.refreshTTL .refresh) with
    | error _ =>
      rw [haccess, hrefresh] at h
      cases h
    | ok refresh =>
      rw [haccess, hrefresh] at h
      obtain rfl := Except.ok.inj h
      exact ⟨rfl, rfl⟩

/-- The refresh token of a pair names its row. -/
theorem refresh_names (hlib : JwtLaws m.lib) {userID jti : String} {pair : TokenPair}
    (h : m.issue now userID jti = .ok pair) : ∃ claims, m.lib.payload pair.refreshToken = some claims ∧ claims.id = jti :=
  ⟨_, hlib.payload_signed (issue_signed h).2, rfl⟩

end Verify

/-- The pair a request has answered with. -/
def answered (p : Handler Response) : Option Tokens :=
  match p with
  | .ret (.tokens (.ok tokens)) => some tokens
  | _ => none

theorem answered_eq_some {p : Handler Response} {tokens : Tokens} (h : answered p = some tokens) :
    p = .ret (.tokens (.ok tokens)) := by
  unfold answered at h
  split at h
  · rw [Option.some.inj h]
  · cases h

/-! ### A pair -/

/-- A stand-in for the access token of user `u1`, and for the refresh token that goes with it. -/
def accessText : String := "access-u1"

def refreshText : String := "refresh-t1"

def accessClaims : Claims := ⟨"desksync", "u1", "", 0, 900000, "u1", .access⟩

def refreshClaims : Claims := ⟨"desksync", "u1", "t1", 0, 2592000000, "u1", .refresh⟩

/-- The library, for these two. -/
def pairLib : JwtLib where
  signedString secret claims :=
    if secret = "access-secret-16" ∧ claims = accessClaims then .ok accessText
    else if secret = "refresh-secret-16" ∧ claims = refreshClaims then .ok refreshText
    else .error ()
  payload token :=
    if token = accessText then some accessClaims else if token = refreshText then some refreshClaims else none
  valid now secret issuer token :=
    issuer = "desksync" &&
      (token = accessText && secret = "access-secret-16" && decide (now < 900000) ||
        token = refreshText && secret = "refresh-secret-16" && decide (now < 2592000000))

theorem refreshText_ne : refreshText ≠ accessText := by decide +kernel

theorem pairLib_laws : JwtLaws pairLib where
  payload_signed := by
    intro secret claims token h
    simp only [pairLib] at h ⊢
    split_ifs at h with haccess hrefresh
    · obtain rfl := Except.ok.inj h
      rw [if_pos rfl, haccess.2]
      rfl
    · obtain rfl := Except.ok.inj h
      rw [if_neg refreshText_ne, if_pos rfl, hrefresh.2]
      rfl
  unexpired := by
    intro now secret issuer token claims h hpayload
    simp only [pairLib, Bool.and_eq_true, Bool.or_eq_true, decide_eq_true_eq] at h hpayload
    obtain ⟨-, ⟨⟨rfl, -⟩, hlt⟩ | ⟨⟨rfl, -⟩, hlt⟩⟩ := h
    · rw [if_pos rfl] at hpayload
      obtain rfl := Option.some.inj hpayload
      exact hlt
    · rw [if_neg refreshText_ne, if_pos rfl] at hpayload
      obtain rfl := Option.some.inj hpayload
      exact hlt

def pairService : Service :=
  { sampleService with
    jwt := { sampleService.jwt with lib := pairLib, accessTTL := 900000, refreshTTL := 2592000000 } }

end DeskSync.Auth
