import DeskSync.Backend.Basic
import DeskSync.Lib.Base64
import DeskSync.Lib.Hex

/-!
# Device certificates

`pkg/devicecert`: `Issue` signs the JSON of the claims and writes both in base64, `Verify` takes such a
token apart again and checks the signature and the window. A Go string is its bytes, and the clock is in
nanoseconds. A certificate is stored, and revoked, by the `Fingerprint` of its token.

The signature is on the decoded payload and the fingerprint on the text, and decoding is not strict. So
an accepted token has other spellings that are accepted, with other fingerprints.
`fingerprint_eq_iff_spelledAlike`: two accepted tokens with the same payload have the same fingerprint
if and only if what decoding drops from them is the same. `respelled_certificate` is a token that has
another accepted spelling.
-/

namespace DeskSync.DeviceCert

open Backend

inductive VerifyError
  | malformed
  | badSignature
  | expired
  | notYetValid
  deriving DecidableEq

def tokenVersion : ℤ := 1

structure Claims where
  version : ℤ
  serial : String
  deviceID : String
  userID : String
  kind : String
  publicKey : String
  /-- Unix seconds. -/
  notBefore : ℤ
  /-- Unix seconds. -/
  notAfter : ℤ
  deriving DecidableEq

structure Certificate where
  claims : Claims
  token : Bytes
  fingerprint : String
  /-- Unix seconds. -/
  notBefore : ℤ
  /-- Unix seconds. -/
  notAfter : ℤ

/-- The parts of the standard library that the package uses, with `encoding/json` on `Claims`. -/
structure Libraries where
  PrivateKey : Type
  sign : PrivateKey → (payload : Bytes) → Bytes
  verify : (pub payload sig : Bytes) → Bool
  sha256 : Bytes → Bytes
  marshal : Claims → Except Unit Bytes
  unmarshal : Bytes → Option Claims

/-! ### Texts -/

def dot : UInt8 := 0x2E

/-- `strings.Cut` at the first dot. -/
def cut : Bytes → Option (Bytes × Bytes)
  | [] => none
  | b :: rest => if b = dot then some ([], rest) else (cut rest).map fun (before, after) => (b :: before, after)

/-- `RawURLEncoding.EncodeToString`. -/
def b64Encode (bs : Bytes) : Bytes := Base64.encode Base64.url false bs

/-- `RawURLEncoding.DecodeString`. -/
def b64Decode (s : Bytes) : Option Bytes := Base64.decode Base64.url false s

/-- `Time.Unix`, of a time in nanoseconds. -/
def unix (t : ℤ) : ℤ := t / 1000000000

/-! ### The package -/

section Package
variable (L : Libraries)

structure Issuer where
  priv : L.PrivateKey
  ttl : ℤ
  ttl_pos : 0 < ttl

/-- A CA public key has the size of one. -/
abbrev Verifier := {pub : Bytes // pub.length = 32}

structure Subject where
  deviceID : String
  userID : String
  kind : String
  publicKey : String

def fingerprint (token : Bytes) : String := Hex.encode (L.sha256 token)

def encodeAndSign (claims : Claims) (priv : L.PrivateKey) : Except Unit Bytes :=
  match L.marshal claims with
  | .error () => .error ()
  | .ok payload => .ok (b64Encode payload ++ [dot] ++ b64Encode (L.sign priv payload))

variable {L} in
/-- `Issuer.Issue`, at the time and with the serial it draws. -/
def Issuer.issue (i : Issuer L) (now : ℤ) (serial : Except Unit String) (s : Subject) :
    Except Unit Certificate :=
  if s.deviceID = "" ∨ s.userID = "" ∨ s.publicKey = "" then .error ()
  else
    match serial with
    | .error () => .error ()
    | .ok serial =>
      let claims : Claims :=
        { version := tokenVersion, serial, deviceID := s.deviceID, userID := s.userID, kind := s.kind
          publicKey := s.publicKey
          notBefore := unix (now - 30000000000)
          notAfter := unix (now + i.ttl) }
      match encodeAndSign L claims i.priv with
      | .error () => .error ()
      | .ok token =>
        .ok { claims, token, fingerprint := fingerprint L token, notBefore := claims.notBefore
              notAfter := claims.notAfter }

def verifySignature (v : Verifier) (token : Bytes) : Except VerifyError Claims :=
  match cut token with
  | none => .error .malformed
  | some (payloadPart, sigPart) =>
    match b64Decode payloadPart with
    | none => .error .malformed
    | some payload =>
      match b64Decode sigPart with
      | none => .error .malformed
      | some sig =>
        if !L.verify v payload sig then .error .badSignature
        else
          match L.unmarshal payload with
          | none => .error .malformed
          | some claims => if claims.version ≠ tokenVersion then .error .malformed else .ok claims

/-- `Verifier.Verify`, at the given time. -/
def verify (v : Verifier) (token : Bytes) (time : ℤ) : Except VerifyError Claims :=
  match verifySignature L v token with
  | .error e => .error e
  | .ok claims =>
    if unix time < claims.notBefore then .error .notYetValid
    else if unix time > claims.notAfter then .error .expired
    else .ok claims

end Package

/-! ### Spellings -/

/-- The payload a token carries. -/
def payloadOf (token : Bytes) : Option Bytes := (cut token).bind fun (payloadPart, _) => b64Decode payloadPart

/-- What decoding drops from the two parts of a token. -/
def slack (token : Bytes) : Option (Base64.Slack × Base64.Slack) :=
  (cut token).map fun (payloadPart, sigPart) =>
    (Base64.slack Base64.url payloadPart, Base64.slack Base64.url sigPart)

/-- The tokens have the same line breaks at the same places, and the same bits in the last characters of
their parts that belong to no byte. -/
def SpelledAlike (token token' : Bytes) : Prop := slack token = slack token'

theorem cut_eq_some {token before after : Bytes} (h : cut token = some (before, after)) :
    token = before ++ dot :: after := by
  induction token generalizing before with
  | nil => cases h
  | cons b rest ih =>
    rw [cut] at h
    split_ifs at h with hb
    · cases h
      rw [hb]
      rfl
    · obtain ⟨⟨before', after'⟩, hrest, heq⟩ := Option.map_eq_some_iff.1 h
      cases heq
      rw [ih hrest]
      rfl

theorem cut_append {before : Bytes} (after : Bytes) (h : dot ∉ before) :
    cut (before ++ dot :: after) = some (before, after) := by
  induction before with
  | nil => exact if_pos rfl
  | cons b before ih =>
    rw [List.mem_cons, not_or] at h
    rw [List.cons_append, cut, if_neg (Ne.symm h.1), ih h.2]
    rfl

theorem digit_value (b v : UInt8) (h : Base64.url.value b = some v) :
    v &&& 0x3F = v ∧ Base64.url.digit v = b := by
  have hall : ∀ n < 256, (Base64.url.value (UInt8.ofNat n)).all (fun v =>
      v &&& 0x3F == v && Base64.url.digit v == UInt8.ofNat n) = true := by decide +kernel
  have hb := hall b.toNat (UInt8.toNat_lt b)
  rw [UInt8.ofNat_toNat, h] at hb
  simpa using hb

section Verify
variable {L : Libraries} {v : Verifier} {token token' : Bytes} {time time' : ℤ} {claims claims' : Claims}

/-- What `Verify` checks. -/
theorem verify_eq_ok : verify L v token time = .ok claims ↔
    ∃ payloadPart sigPart payload sig, cut token = some (payloadPart, sigPart) ∧
      b64Decode payloadPart = some payload ∧ b64Decode sigPart = some sig ∧
      L.verify v payload sig = true ∧ L.unmarshal payload = some claims ∧ claims.version = tokenVersion ∧
      claims.notBefore ≤ unix time ∧ unix time ≤ claims.notAfter := by
  constructor
  · intro h
    unfold verify at h
    split at h
    · cases h
    rename_i claims' hsigned
    split_ifs at h with hearly hlate
    obtain rfl := Except.ok.inj h
    unfold verifySignature at hsigned
    split at hsigned
    · cases hsigned
    rename_i payloadPart sigPart hcut
    split at hsigned
    · cases hsigned
    rename_i payload hpayload
    split at hsigned
    · cases hsigned
    rename_i sig hsig
    split_ifs at hsigned with hbad
    split at hsigned
    · cases hsigned
    rename_i claims hclaims
    split_ifs at hsigned with hversion
    obtain rfl := Except.ok.inj hsigned
    exact ⟨payloadPart, sigPart, payload, sig, hcut, hpayload, hsig, by simpa using hbad, hclaims,
      not_not.1 hversion, not_lt.1 hearly, not_lt.1 hlate⟩
  · rintro ⟨payloadPart, sigPart, payload, sig, hcut, hpayload, hsig, hok, hclaims, hversion, hearly, hlate⟩
    have hsigned : verifySignature L v token = .ok claims := by
      simp only [verifySignature, hcut, hpayload, hsig, hok, hclaims, hversion, Bool.not_true,
        Bool.false_eq_true, if_false, ne_eq, not_true_eq_false]
    simp only [verify, hsigned, not_lt.2 hearly, not_lt.2 hlate, if_false]

/-- Accepted tokens with the same payload that are spelled alike are the same, as a payload has one
signature. -/
theorem eq_of_spelledAlike
    (hunique : ∀ payload sig sig', L.verify v payload sig = true → L.verify v payload sig' = true → sig = sig')
    (h : verify L v token time = .ok claims) (h' : verify L v token' time' = .ok claims')
    (hpayload : payloadOf token = payloadOf token') (halike : SpelledAlike token token') :
    token = token' := by
  obtain ⟨payloadPart, sigPart, payload, sig, hcut, hdecode, hsig, hok, -⟩ := verify_eq_ok.1 h
  obtain ⟨payloadPart', sigPart', payload', sig', hcut', hdecode', hsig', hok', -⟩ := verify_eq_ok.1 h'
  simp only [payloadOf, hcut, hcut', Option.bind_some, hdecode, hdecode', Option.some.injEq] at hpayload
  subst hpayload
  obtain rfl := hunique payload sig sig' hok hok'
  simp only [SpelledAlike, slack, hcut, hcut', Option.map_some, Option.some.injEq, Prod.mk.injEq] at halike
  rw [cut_eq_some hcut, cut_eq_some hcut',
    Base64.decode_unique digit_value hdecode hdecode' halike.1,
    Base64.decode_unique digit_value hsig hsig' halike.2]

/-- Two accepted tokens with the same payload, which are no collision of SHA-256, have the same
fingerprint if and only if they are spelled alike. -/
theorem fingerprint_eq_iff_spelledAlike
    (hunique : ∀ payload sig sig', L.verify v payload sig = true → L.verify v payload sig' = true → sig = sig')
    (hsha : L.sha256 token = L.sha256 token' → token = token')
    (h : verify L v token time = .ok claims) (h' : verify L v token' time' = .ok claims')
    (hpayload : payloadOf token = payloadOf token') :
    fingerprint L token = fingerprint L token' ↔ SpelledAlike token token' := by
  constructor
  · intro heq
    rw [hsha (Hex.encode_injective heq)]
    rfl
  · intro halike
    rw [eq_of_spelledAlike hunique h h' hpayload halike]

end Verify

/-! ### Issued certificates -/

section Issue
variable {L : Libraries} {i : Issuer L} {now : ℤ} {serial : Except Unit String} {s : Subject}
  {cert : Certificate}

theorem dot_not_mem (bs : Bytes) : dot ∉ b64Encode bs := Base64.not_mem_encode rfl (by decide) bs

/-- What `Issue` returns. -/
theorem issue_eq_ok (h : i.issue now serial s = .ok cert) : ∃ payload, L.marshal cert.claims = .ok payload ∧
    cert.token = b64Encode payload ++ dot :: b64Encode (L.sign i.priv payload) ∧
    cert.fingerprint = fingerprint L cert.token ∧ cert.claims.version = tokenVersion ∧
    cert.claims.notBefore = cert.notBefore ∧ cert.claims.notAfter = cert.notAfter := by
  unfold Issuer.issue at h
  split_ifs at h
  split at h
  · cases h
  rename_i serial
  dsimp only at h
  unfold encodeAndSign at h
  generalize hclaims : (Claims.mk tokenVersion serial s.deviceID s.userID s.kind s.publicKey
    (unix (now - 30000000000)) (unix (now + i.ttl))) = claims at h
  cases hpayload : L.marshal claims with
  | error => simp [hpayload] at h
  | ok payload =>
    simp only [hpayload, Except.ok.injEq] at h
    subst h
    subst hclaims
    exact ⟨payload, hpayload, by simp, rfl, rfl, rfl, rfl⟩

/-- An issued certificate is accepted in its window. -/
theorem verify_issue {v : Verifier} (hjson : ∀ claims payload, L.marshal claims = .ok payload →
      L.unmarshal payload = some claims) (hkey : ∀ payload, L.verify v payload (L.sign i.priv payload) = true)
    (h : i.issue now serial s = .ok cert) {time : ℤ} (hearly : cert.notBefore ≤ unix time)
    (hlate : unix time ≤ cert.notAfter) : verify L v cert.token time = .ok cert.claims := by
  obtain ⟨payload, hpayload, htoken, -, hversion, hbefore, hafter⟩ := issue_eq_ok h
  rw [htoken]
  exact verify_eq_ok.2 ⟨_, _, payload, _, cut_append _ (dot_not_mem _), Base64.decode_encode _ _,
    Base64.decode_encode _ _, hkey payload, hjson _ _ hpayload, hversion, hbefore ▸ hearly, hafter ▸ hlate⟩

/-- An issued token has no line breaks, and no bits set that belong to no byte. -/
theorem slack_issue (h : i.issue now serial s = .ok cert) : ∃ n m,
    slack cert.token = some (⟨List.replicate n none, 0⟩, ⟨List.replicate m none, 0⟩) := by
  obtain ⟨payload, -, htoken, -⟩ := issue_eq_ok h
  rw [htoken, slack, cut_append _ (dot_not_mem _)]
  simp only [Option.map_some, b64Encode, Base64.slack_encode]
  exact ⟨_, _, rfl⟩

end Issue

/-! ### A certificate with two spellings -/

def sampleClaims : Claims := ⟨1, "00112233445566778899aabbccddeeff", "d1", "u1", "mobile", "AA==", 0, 60⟩

def samplePayload : Bytes :=
  bytes ("\x7b\"v\":1,\"serial\":\"00112233445566778899aabbccddeeff\",\"device_id\":\"d1\"," ++
    "\"user_id\":\"u1\",\"kind\":\"mobile\",\"public_key\":\"AA==\",\"nbf\":0,\"exp\":60\x7d")

/-- The public key of an Ed25519 key pair. -/
def samplePub : Bytes :=
  [0xd7, 0x5a, 0x98, 0x01, 0x82, 0xb1, 0x0a, 0xb7, 0xd5, 0x4b, 0xfe, 0xd3, 0xc9, 0x64, 0x07, 0x3a,
    0x0e, 0xe1, 0x72, 0xf3, 0xda, 0xa6, 0x23, 0x25, 0xaf, 0x02, 0x1a, 0x68, 0xf7, 0x07, 0x51, 0x1a]

/-- The signature of the sample payload under it. -/
def sampleSig : Bytes :=
  [0xbe, 0xac, 0x1e, 0xd6, 0x98, 0xeb, 0xf6, 0x2c, 0xa4, 0x5b, 0xd9, 0x10, 0x98, 0x54, 0x4a, 0xc7,
    0x4e, 0xd9, 0xb8, 0xc8, 0x80, 0x0a, 0xad, 0x9c, 0xfb, 0x13, 0xea, 0x74, 0x19, 0x0a, 0xdd, 0x21,
    0x05, 0x2b, 0x4b, 0xe8, 0xec, 0x54, 0xb3, 0x47, 0x16, 0x26, 0xff, 0xaf, 0x01, 0x56, 0xcb, 0x19,
    0x1c, 0xff, 0x42, 0x3c, 0x62, 0xb6, 0xa5, 0x2c, 0xdb, 0x55, 0xc3, 0x3a, 0xa6, 0xda, 0xb9, 0x0f]

/-- The token that is issued for the sample claims. -/
def sampleToken : Bytes :=
  bytes ("eyJ2IjoxLCJzZXJpYWwiOiIwMDExMjIzMzQ0NTU2Njc3ODg5OWFhYmJjY2RkZWVmZiIsImRldmljZV9pZCI6" ++
    "ImQxIiwidXNlcl9pZCI6InUxIiwia2luZCI6Im1vYmlsZSIsInB1YmxpY19rZXkiOiJBQT09IiwibmJmIjow" ++
    "LCJleHAiOjYwfQ.vqwe1pjr9iykW9kQmFRKx07ZuMiACq2c-xPqdBkK3SEFK0vo7FSzRxYm_68BVssZHP9CP" ++
    "GK2pSzbVcM6ptq5Dw")

/-- The same up to the bits of the last character that belong to no byte. -/
def respelledToken : Bytes :=
  sampleToken.dropLast ++ bytes "x"

/-- What the libraries do on the sample certificate; SHA-256 of the two tokens. -/
def sampleLibraries : Libraries where
  PrivateKey := Unit
  sign _ payload := if payload = samplePayload then sampleSig else []
  verify pub payload sig := pub == samplePub && payload == samplePayload && sig == sampleSig
  sha256 token :=
    if token = sampleToken then
      [0xce, 0x17, 0xdc, 0xeb, 0xbd, 0xeb, 0xb2, 0xf5, 0xaf, 0x47, 0x7d, 0x11, 0xe9, 0xfc, 0xde, 0xd4,
      0x8b, 0x39, 0x01, 0x62, 0x9e, 0x06, 0x6a, 0x54, 0x6a, 0x10, 0xe5, 0xca, 0x2c, 0xf9, 0xbb, 0xc1]
    else if token = respelledToken then
      [0x5f, 0x0d, 0xb4, 0x7d, 0xce, 0x0b, 0xad, 0x12, 0x12, 0x67, 0x9f, 0xc3, 0x11, 0x3a, 0xe3, 0x71,
      0x7c, 0x6d, 0xcd, 0xb3, 0xd3, 0xd0, 0x3d, 0xf9, 0xd7, 0xa1, 0x19, 0xb2, 0x79, 0x5e, 0x31, 0xd3]
    else []
  marshal claims := if claims = sampleClaims then .ok samplePayload else .error ()
  unmarshal payload := if payload = samplePayload then some sampleClaims else none

def sampleVerifier : Verifier := ⟨samplePub, by decide⟩

example : ((⟨(), 30000000000, by decide⟩ : Issuer sampleLibraries).issue 30000000000
    (.ok sampleClaims.serial) ⟨"d1", "u1", "mobile", "AA=="⟩).toOption.map (·.token) = some sampleToken := by
  decide +kernel

theorem sample_unique (payload sig sig' : Bytes) (h : sampleLibraries.verify samplePub payload sig = true)
    (h' : sampleLibraries.verify samplePub payload sig' = true) : sig = sig' := by
  simp only [sampleLibraries, Bool.and_eq_true, beq_iff_eq] at h h'
  rw [h.2, h'.2]

theorem not_spelledAlike : ¬ SpelledAlike sampleToken respelledToken := by
  have h : verify sampleLibraries sampleVerifier sampleToken 0 = .ok sampleClaims := by decide +kernel
  have h' : verify sampleLibraries sampleVerifier respelledToken 60000000000 = .ok sampleClaims := by
    decide +kernel
  have hpayload : payloadOf sampleToken = payloadOf respelledToken := by decide +kernel
  have hne : fingerprint sampleLibraries sampleToken ≠ fingerprint sampleLibraries respelledToken := by
    decide +kernel
  have hsha : sampleLibraries.sha256 sampleToken = sampleLibraries.sha256 respelledToken →
      sampleToken = respelledToken := by decide +kernel
  exact fun halike => hne ((fingerprint_eq_iff_spelledAlike sample_unique hsha h h' hpayload).2 halike)

/-- The other spelling is accepted too, and has another fingerprint. -/
theorem respelled_certificate :
    verify sampleLibraries sampleVerifier sampleToken 0 = .ok sampleClaims ∧
      verify sampleLibraries sampleVerifier respelledToken 0 = .ok sampleClaims ∧
      payloadOf sampleToken = payloadOf respelledToken ∧
      fingerprint sampleLibraries sampleToken ≠ fingerprint sampleLibraries respelledToken := by
  decide +kernel

end DeskSync.DeviceCert
