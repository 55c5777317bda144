import DeskSync.Lib.Aead

/-!
# The secure channel of the desktop agent

`SecureChannel` of the agent's `crypto` crate. A handshake gives two keys, one for each direction; a
frame is `counter (8, big-endian) || ciphertext || tag`, sealed under the nonce `0000 || counter` and
the associated data `session_id || direction`. The receiver accepts a counter only above the last one it
has authenticated.

HKDF-SHA256 and AES-256-GCM are parameters (`Hkdf`, `Aead Key`). A key is 32 bytes by its type, so the
key-length errors of `new_from_slice` do not arise. The cipher answers from the log of all encryptions
made so far, so `seal` also returns the log it leaves; it encrypts before it checks the counter.

`seal_cases`, `open_cases`: what the two calls can do. Everything later follows from them.
-/

namespace DeskSync.Agent

/-! ### Constants -/

/-- Length of an X25519/AES-256 key in bytes. -/
def keyLen : ℕ := 32

def nonceLen : ℕ := 12

def tagLen : ℕ := 16

/-- Length of the per-frame counter prefix in bytes. -/
def counterLen : ℕ := 8

/-- The bytes of an ASCII literal, `b"…"`. -/
def ascii (s : String) : Bytes := s.toList.map fun c => UInt8.ofNat c.toNat

def hkdfSalt : Bytes := ascii "desksync-e2e-v1"

def infoC2A : Bytes := ascii "c2a"

def infoA2C : Bytes := ascii "a2c"

def dirC2A : UInt8 := 1

def dirA2C : UInt8 := 2

/-! ### Counters -/

/-- `u64::to_be_bytes`. -/
def toBeBytes (n : UInt64) : Bytes := beBytes counterLen n.toNat

/-- `u64::from_be_bytes`. -/
def fromBeBytes (bs : Bytes) : UInt64 := UInt64.ofNat (beNat bs)

/-- `u64::checked_add`. -/
def checkedAdd (n m : UInt64) : Option UInt64 :=
  if n.toNat + m.toNat < 2 ^ 64 then some (n + m) else none

@[simp] theorem length_toBeBytes (n : UInt64) : (toBeBytes n).length = counterLen :=
  length_beBytes _ _

@[simp] theorem fromBeBytes_toBeBytes (n : UInt64) : fromBeBytes (toBeBytes n) = n := by
  rw [fromBeBytes, toBeBytes, beNat_beBytes_of_lt n.toNat_lt, UInt64.ofNat_toNat]

theorem toBeBytes_injective : Function.Injective toBeBytes :=
  Function.LeftInverse.injective fromBeBytes_toBeBytes

theorem checkedAdd_one_eq_none {n : UInt64} : checkedAdd n 1 = none ↔ n.toNat = 2 ^ 64 - 1 := by
  have hn := n.toNat_lt
  simp only [checkedAdd, UInt64.toNat_one, ite_eq_right_iff, reduceCtorEq, imp_false]
  omega

theorem checkedAdd_one_eq_some {n m : UInt64} (h : checkedAdd n 1 = some m) :
    m.toNat = n.toNat + 1 := by
  unfold checkedAdd at h
  split_ifs at h with hlt
  rw [← Option.some.inj h, UInt64.toNat_add, UInt64.toNat_one] at *
  exact Nat.mod_eq_of_lt hlt

/-! ### The channel -/

abbrev Key := Vector UInt8 keyLen

/-- HKDF-SHA256, extract and expand to one key: salt, input keying material, info. -/
abbrev Hkdf := (salt ikm info : Bytes) → Key

abbrev Log := List (Sealing Key)

inductive CryptoError
  | malformed
  | replay
  /-- `Open`: decryption failed. -/
  | opening
  /-- `Seal`: encryption failed. -/
  | sealing
  | counterExhausted
  deriving DecidableEq

inductive Role
  | controller
  | agent
  deriving DecidableEq

/-- What both ends build a channel from. -/
structure Handshake where
  shared : Key
  sessionID : Bytes
  controllerPub : Key
  agentPub : Key
  deriving DecidableEq

def expand (hkdf : Hkdf) (shared : Key) (pre sessionID : Bytes) (controllerPub agentPub : Key) : Key :=
  hkdf hkdfSalt shared.toList (pre ++ sessionID ++ controllerPub.toList ++ agentPub.toList)

/-- The keys of the two directions, `(c2a, a2c)`. -/
def deriveKeys (hkdf : Hkdf) (h : Handshake) : Key × Key :=
  (expand hkdf h.shared infoC2A h.sessionID h.controllerPub h.agentPub,
    expand hkdf h.shared infoA2C h.sessionID h.controllerPub h.agentPub)

structure SecureChannel where
  sendKey : Key
  recvKey : Key
  sendDir : UInt8
  recvDir : UInt8
  sessionID : Bytes
  sendCounter : UInt64
  recvLast : Option UInt64
  deriving DecidableEq

def nonceFor (counter : UInt64) : Bytes :=
  List.replicate (nonceLen - counterLen) 0 ++ toBeBytes counter

def aadFor (sessionID : Bytes) (dir : UInt8) : Bytes := sessionID ++ [dir]

/-- The counter a frame carries in clear text. -/
def counterOf (frame : Bytes) : UInt64 := fromBeBytes (frame.take counterLen)

@[simp] theorem counterOf_append (n : UInt64) (ct : Bytes) : counterOf (toBeBytes n ++ ct) = n := by
  rw [counterOf, List.take_left' (length_toBeBytes n), fromBeBytes_toBeBytes]

theorem nonceFor_injective : Function.Injective nonceFor :=
  fun _ _ h => toBeBytes_injective (List.append_cancel_left h)

def SecureChannel.new (hkdf : Hkdf) (h : Handshake) (role : Role) : SecureChannel :=
  let (c2a, a2c) := deriveKeys hkdf h
  let (sendKey, sendDir, recvKey, recvDir) :=
    match role with
    | .controller => (c2a, dirC2A, a2c, dirA2C)
    | .agent => (a2c, dirA2C, c2a, dirC2A)
  { sendKey, recvKey, sendDir, recvDir, sessionID := h.sessionID, sendCounter := 0, recvLast := none }

/-- Encrypt `plaintext` into a self-framed sealed message. -/
def SecureChannel.seal (A : Aead Key) (ch : SecureChannel) (plaintext : Bytes) (log : Log) :
    Except CryptoError Bytes × SecureChannel × Log :=
  let counter := ch.sendCounter
  let nonce := nonceFor counter
  let aad := aadFor ch.sessionID ch.sendDir
  match A.encrypt ch.sendKey nonce aad plaintext with
  | none => (.error .sealing, ch, log)
  | some ct =>
    let log := log ++ [⟨ch.sendKey, nonce, aad, plaintext⟩]
    match checkedAdd ch.sendCounter 1 with
    | none => (.error .counterExhausted, ch, log)
    | some next => (.ok (toBeBytes counter ++ ct), { ch with sendCounter := next }, log)

/-- Authenticate and decrypt a sealed message. -/
def SecureChannel.open (A : Aead Key) (ch : SecureChannel) (frame : Bytes) (log : Log) :
    Except CryptoError Bytes × SecureChannel :=
  if frame.length < counterLen + tagLen then (.error .malformed, ch)
  else
    let counter := fromBeBytes (frame.take counterLen)
    if ch.recvLast.any fun last => counter ≤ last then (.error .replay, ch)
    else
      let nonce := nonceFor counter
      let aad := aadFor ch.sessionID ch.recvDir
      match A.decrypt log ch.recvKey nonce aad (frame.drop counterLen) with
      | none => (.error .opening, ch)
      | some pt => (.ok pt, { ch with recvLast := some counter })

/-! ### What the calls can do -/

namespace SecureChannel

/-- The encryption a call of `seal` makes. -/
def sealing (ch : SecureChannel) (plaintext : Bytes) : Sealing Key :=
  ⟨ch.sendKey, nonceFor ch.sendCounter, aadFor ch.sessionID ch.sendDir, plaintext⟩

variable {A : Aead Key} {ch : SecureChannel} {plaintext frame pt : Bytes} {log : Log}

/-- `seal` fails to encrypt, or encrypts and then finds the counter exhausted, or advances it. -/
theorem seal_cases (A : Aead Key) (ch : SecureChannel) (plaintext : Bytes) (log : Log) :
    ch.seal A plaintext log = (.error .sealing, ch, log) ∨
    ∃ ct, A.encrypt ch.sendKey (nonceFor ch.sendCounter) (aadFor ch.sessionID ch.sendDir) plaintext =
        some ct ∧
      ((ch.sendCounter.toNat = 2 ^ 64 - 1 ∧
          ch.seal A plaintext log = (.error .counterExhausted, ch, log ++ [ch.sealing plaintext])) ∨
        ∃ next : UInt64, next.toNat = ch.sendCounter.toNat + 1 ∧
          ch.seal A plaintext log = (.ok (toBeBytes ch.sendCounter ++ ct),
            { ch with sendCounter := next }, log ++ [ch.sealing plaintext])) := by
  unfold SecureChannel.seal
  dsimp only
  cases henc : A.encrypt ch.sendKey (nonceFor ch.sendCounter) (aadFor ch.sessionID ch.sendDir)
      plaintext with
  | none => exact .inl rfl
  | some ct =>
    refine .inr ⟨ct, rfl, ?_⟩
    cases hnext : checkedAdd ch.sendCounter 1 with
    | none => exact .inl ⟨checkedAdd_one_eq_none.1 hnext, rfl⟩
    | some next => exact .inr ⟨next, checkedAdd_one_eq_some hnext, rfl⟩

/-- `open` fails and leaves the channel as it was, or authenticates a frame above the last one. -/
theorem open_cases (A : Aead Key) (ch : SecureChannel) (frame : Bytes) (log : Log) :
    (∃ e, ch.open A frame log = (.error e, ch)) ∨
    ∃ pt, ch.open A frame log = (.ok pt, { ch with recvLast := some (counterOf frame) }) ∧
      (∀ last ∈ ch.recvLast, last < counterOf frame) ∧
      A.decrypt log ch.recvKey (nonceFor (counterOf frame)) (aadFor ch.sessionID ch.recvDir)
        (frame.drop counterLen) = some pt := by
  unfold SecureChannel.open
  dsimp only
  split_ifs with hlen hlast
  · exact .inl ⟨_, rfl⟩
  · exact .inl ⟨_, rfl⟩
  · cases hdec : A.decrypt log ch.recvKey (nonceFor (fromBeBytes (frame.take counterLen)))
        (aadFor ch.sessionID ch.recvDir) (frame.drop counterLen) with
    | none => exact .inl ⟨_, rfl⟩
    | some pt =>
      refine .inr ⟨pt, rfl, fun last hmem => ?_, hdec⟩
      rw [Option.mem_def.1 hmem, Option.any_some, decide_eq_true_eq] at hlast
      exact UInt64.not_le.1 hlast

theorem open_error {e : CryptoError} (h : (ch.open A frame log).1 = .error e) :
    (ch.open A frame log).2 = ch := by
  rcases open_cases A ch frame log with ⟨e', he⟩ | ⟨pt, hpt, -⟩
  · rw [he]
  · rw [hpt] at h
    cases h

/-- A frame above the last accepted one whose ciphertext decrypts is opened. -/
theorem open_ok (hlen : counterLen + tagLen ≤ frame.length)
    (hlast : ∀ last ∈ ch.recvLast, last < counterOf frame)
    (hdec : A.decrypt log ch.recvKey (nonceFor (counterOf frame)) (aadFor ch.sessionID ch.recvDir)
      (frame.drop counterLen) = some pt) : (ch.open A frame log).1 = .ok pt := by
  unfold SecureChannel.open
  rw [if_neg (Nat.not_lt.2 hlen), if_neg]
  · dsimp only
    rw [show fromBeBytes (frame.take counterLen) = counterOf frame from rfl, hdec]
  · intro hany
    obtain ⟨last, hmem, hle⟩ := (Option.any_eq_true _ _).1 hany
    exact absurd (hlast last hmem) (UInt64.not_lt.2 (of_decide_eq_true hle))

end SecureChannel

/-! ### Keys of a handshake -/

/-- The HKDF info of one direction. -/
def Handshake.info (h : Handshake) (pre : Bytes) : Bytes :=
  pre ++ h.sessionID ++ h.controllerPub.toList ++ h.agentPub.toList

def Role.other : Role → Role
  | .controller => .agent
  | .agent => .controller

/-- The info prefix of the direction a role sends in. -/
def Role.sendInfo : Role → Bytes
  | .controller => infoC2A
  | .agent => infoA2C

/-- HKDF gives distinct keys for the distinct inputs the handshakes put in. -/
def Separates (hkdf : Hkdf) (hs : List Handshake) : Prop :=
  ∀ h ∈ hs, ∀ h' ∈ hs, ∀ r r' : Role,
    hkdf hkdfSalt h.shared.toList (h.info r.sendInfo) =
        hkdf hkdfSalt h'.shared.toList (h'.info r'.sendInfo) →
      h.shared.toList = h'.shared.toList ∧ h.info r.sendInfo = h'.info r'.sendInfo

variable {hkdf : Hkdf} {h h' : Handshake} {r r' : Role}

theorem Role.length_sendInfo (r : Role) : r.sendInfo.length = 3 := by
  cases r <;> rfl

theorem Role.sendInfo_injective : Function.Injective Role.sendInfo := by
  rintro (_ | _) (_ | _) h
  all_goals first | rfl | exact absurd h (by decide)

/-- Fixed-length fields on both sides of the session id keep the encoding unambiguous. -/
theorem info_inj (heq : h.info r.sendInfo = h'.info r'.sendInfo) :
    r = r' ∧ h.sessionID = h'.sessionID ∧ h.controllerPub = h'.controllerPub ∧
      h.agentPub = h'.agentPub := by
  simp only [Handshake.info, List.append_assoc] at heq
  obtain ⟨hpre, heq⟩ := List.append_inj heq (by rw [r.length_sendInfo, r'.length_sendInfo])
  rw [← List.append_assoc, ← List.append_assoc] at heq
  obtain ⟨heq, hagent⟩ := List.append_inj' heq (by simp)
  obtain ⟨hsid, hcontroller⟩ := List.append_inj' heq (by simp)
  exact ⟨Role.sendInfo_injective hpre, hsid, Vector.toList_inj.1 hcontroller, Vector.toList_inj.1 hagent⟩

namespace SecureChannel

theorem new_sendKey (hkdf : Hkdf) (h : Handshake) (r : Role) :
    (new hkdf h r).sendKey = hkdf hkdfSalt h.shared.toList (h.info r.sendInfo) := by
  cases r <;> rfl

/-- Channels that send under one key were built from one handshake, in one role. -/
theorem new_sendKey_inj {hs : List Handshake} (hsep : Separates hkdf hs) (hh : h ∈ hs) (hh' : h' ∈ hs)
    (heq : (new hkdf h r).sendKey = (new hkdf h' r').sendKey) : h = h' ∧ r = r' := by
  rw [new_sendKey, new_sendKey] at heq
  obtain ⟨hshared, hinfo⟩ := hsep h hh h' hh' r r' heq
  obtain ⟨hr, hsid, hc, ha⟩ := info_inj hinfo
  obtain ⟨s, sid, c, a⟩ := h
  obtain ⟨s', sid', c', a'⟩ := h'
  obtain rfl := Vector.toList_inj.1 hshared
  dsimp only at hsid hc ha
  rw [hsid, hc, ha]
  exact ⟨rfl, hr⟩

end SecureChannel

end DeskSync.Agent
