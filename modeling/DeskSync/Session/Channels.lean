import DeskSync.Agent.Delivery
import DeskSync.Mobile.Channel

/-!
# The two secure channels side by side

The agent's channel (Rust) and the phone's (Dart) with the same keys, the same state and the same cipher,
one call at a time. The one counts in checked `u64`, the other in wrapping signed 64-bit numbers.

`channels_agree_iff`: the two calls of `open` agree unless the counter of the frame and the last accepted
one lie on different sides of 2^63, where the signed comparison is the opposite one; the two calls of
`seal` agree unless the counter is exhausted.
-/

namespace DeskSync.Session.Channels

open Agent (CryptoError sealer)
open Mobile (AesGcm Counters Failure SecretBox)

/-! ### One channel, twice -/

/-- The phone's channel with the keys of the agent's `ch`. -/
def mobileOf (ch : Agent.SecureChannel) : Mobile.SecureChannel :=
  ⟨ch.sendKey, ch.recvKey, ch.sendDir, ch.recvDir, ch.sessionID⟩

/-- The mutable fields of the phone's channel in the state of `ch`. -/
def countersOf (ch : Agent.SecureChannel) : Counters :=
  ⟨ch.sendCounter.toInt64, ch.recvLast.map UInt64.toInt64⟩

/-- Both libraries implement AES-256-GCM: one returns the ciphertext with the tag behind it, the other the
two apart. -/
structure SameCipher (A : Aead Agent.Key) (log : Agent.Log) (G : AesGcm) : Prop where
  encrypt : ∀ k nonce aad msg, A.encrypt k nonce aad msg =
    (G.encrypt msg k nonce aad).map fun box => box.cipherText ++ box.mac
  decrypt : ∀ k nonce aad box, box.mac.length = Mobile.tagLen →
    G.decrypt box k nonce aad = A.decrypt log k nonce aad (box.cipherText ++ box.mac)

/-- The phone's error for an error of the agent; a `seal` that refuses throws what the cipher throws. -/
def failureOf : CryptoError → Failure
  | .malformed => .channel .malformed
  | .replay => .channel .replay
  | .opening => .channel .authentication
  | .sealing | .counterExhausted => .cipher

/-- The two calls of `open` have the same outcome and leave corresponding states. -/
def OpenAgrees (A : Aead Agent.Key) (log : Agent.Log) (G : AesGcm) (ch : Agent.SecureChannel)
    (frame : Bytes) : Prop :=
  ((mobileOf ch).open G frame).run Mobile.exec (fun _ => ()) (countersOf ch) =
    ((ch.open A frame log).1.mapError failureOf, countersOf (ch.open A frame log).2)

/-- The two calls of `seal` return the same bytes or both refuse, and leave corresponding states. -/
def SealAgrees (A : Aead Agent.Key) (log : Agent.Log) (G : AesGcm) (ch : Agent.SecureChannel)
    (plaintext : Bytes) : Prop :=
  ((mobileOf ch).seal G plaintext).run Mobile.exec (fun _ => ()) (countersOf ch) =
    ((ch.seal A plaintext log).1.mapError failureOf, countersOf (ch.seal A plaintext log).2.1)

/-! ### Counters -/

theorem readCounter_eq (frame : Bytes) : Mobile.readCounter frame = (Agent.counterOf frame).toInt64 := rfl

/-- Which half of the 64-bit numbers a counter lies in; its sign bit for the phone. -/
def high (n : UInt64) : Bool := decide (2 ^ 63 ≤ n.toNat)

theorem toInt_toInt64 (n : UInt64) :
    n.toInt64.toInt = if high n then (n.toNat : ℤ) - 2 ^ 64 else (n.toNat : ℤ) := by
  have hn : n.toInt64.toInt = n.toBitVec.toInt := rfl
  have hnat : n.toBitVec.toNat = n.toNat := rfl
  rw [hn, BitVec.toInt_eq_toNat_cond, hnat]
  by_cases hle : 2 ^ 63 ≤ n.toNat
  · rw [if_neg (by omega), high, decide_eq_true hle, if_pos rfl]
    rfl
  · rw [if_pos (by omega), high, decide_eq_false hle, if_neg Bool.false_ne_true]

/-- The signed comparison is the unsigned one within a half, and its opposite across the halves. -/
theorem toInt64_le_iff (n m : UInt64) : n.toInt64 ≤ m.toInt64 ↔ (n ≤ m ↔ high n = high m) := by
  have hn := n.toNat_lt
  have hm := m.toNat_lt
  rw [Int64.le_iff_toInt_le, toInt_toInt64, toInt_toInt64, UInt64.le_iff_toNat_le]
  unfold high
  by_cases hn' : 2 ^ 63 ≤ n.toNat <;> by_cases hm' : 2 ^ 63 ≤ m.toNat <;>
    simp only [hn', hm', decide_true, decide_false, if_true, if_false, Bool.false_eq_true,
      Bool.true_eq_false, iff_true, iff_false] <;> omega

/-! ### The two calls -/

section Agree
variable {A : Aead Agent.Key} {log : Agent.Log} {G : AesGcm} {ch : Agent.SecureChannel}

/-- The two calls of the cipher in `open`. -/
theorem decrypt_mobileOf (hG : SameCipher A log G) {frame : Bytes}
    (hlen : Mobile.counterLen + Mobile.tagLen ≤ frame.length) :
    (mobileOf ch).decrypt G frame = A.decrypt log ch.recvKey (Agent.nonceFor (Agent.counterOf frame))
      (Agent.aadFor ch.sessionID ch.recvDir) (frame.drop Agent.counterLen) := by
  have htag : (frame.drop (frame.length - Mobile.tagLen)).length = Mobile.tagLen := by
    rw [List.length_drop]
    omega
  have hsplit : (frame.take (frame.length - Mobile.tagLen)).drop Mobile.counterLen ++
      frame.drop (frame.length - Mobile.tagLen) = frame.drop Agent.counterLen := by
    have hle : Mobile.counterLen ≤ (frame.take (frame.length - Mobile.tagLen)).length := by
      rw [List.length_take]
      omega
    rw [← List.drop_append_of_le_length hle, List.take_append_drop]
    rfl
  unfold Mobile.SecureChannel.decrypt
  dsimp only
  rw [hG.decrypt _ _ _ _ htag, hsplit]
  rfl

/-- What each of the two checks for a replay finds. -/
theorem replay_mobileOf (frame : Bytes) :
    ((countersOf ch).recvLast.any fun last => Mobile.readCounter frame ≤ last) =
      ch.recvLast.any fun last => (Agent.counterOf frame).toInt64 ≤ last.toInt64 := by
  rw [countersOf, readCounter_eq]
  cases ch.recvLast <;> rfl

/-- The frame is too short, or no frame was accepted yet, or its counter is in the half of the last one. -/
def SameHalf (ch : Agent.SecureChannel) (frame : Bytes) : Prop :=
  frame.length < Agent.counterLen + Agent.tagLen ∨
    ∀ last ∈ ch.recvLast, high (Agent.counterOf frame) = high last

/-- The outcome of `open` on a frame that is long enough: it is a replay, or the cipher decides. -/
def outcome (A : Aead Agent.Key) (log : Agent.Log) (ch : Agent.SecureChannel) (frame : Bytes)
    (replay : Bool) : Except CryptoError Bytes × Agent.SecureChannel :=
  if replay then (.error .replay, ch)
  else
    match A.decrypt log ch.recvKey (Agent.nonceFor (Agent.counterOf frame))
      (Agent.aadFor ch.sessionID ch.recvDir) (frame.drop Agent.counterLen) with
    | none => (.error .opening, ch)
    | some pt => (.ok pt, { ch with recvLast := some (Agent.counterOf frame) })

theorem open_outcome {frame : Bytes} (hlen : ¬ frame.length < Agent.counterLen + Agent.tagLen) :
    ch.open A frame log =
      outcome A log ch frame (ch.recvLast.any fun last => Agent.counterOf frame ≤ last) := by
  unfold Agent.SecureChannel.open
  rw [if_neg hlen]
  rfl

theorem mobile_open_outcome (hG : SameCipher A log G) {frame : Bytes}
    (hlen : ¬ frame.length < Agent.counterLen + Agent.tagLen) :
    ((mobileOf ch).open G frame).run Mobile.exec (fun _ => ()) (countersOf ch) =
      let r := outcome A log ch frame
        (ch.recvLast.any fun last => (Agent.counterOf frame).toInt64 ≤ last.toInt64)
      (r.1.mapError failureOf, countersOf r.2) := by
  have hlen' : ¬ frame.length < Mobile.counterLen + Mobile.tagLen := hlen
  unfold Mobile.SecureChannel.open outcome
  rw [if_neg hlen', ← replay_mobileOf]
  -- the first block reads the last counter
  show Proc.Prog.run Mobile.exec (fun _ => ())
    (if ((countersOf ch).recvLast.any fun last => Mobile.readCounter frame ≤ last) then
        pure (.error (.channel .replay))
      else
        match (mobileOf ch).decrypt G frame with
        | none => pure (.error (.channel .authentication))
        | some clear => do
          Proc.Prog.perform (Mobile.Access.setRecvLast (Mobile.readCounter frame))
          pure (.ok clear) : Mobile.Handler) (countersOf ch) = _
  by_cases hreplay : ((countersOf ch).recvLast.any fun last => Mobile.readCounter frame ≤ last) = true
  · rw [if_pos hreplay, if_pos hreplay]
    rfl
  · rw [if_neg hreplay, if_neg hreplay, decrypt_mobileOf hG (Nat.not_lt.1 hlen')]
    cases A.decrypt log ch.recvKey (Agent.nonceFor (Agent.counterOf frame))
      (Agent.aadFor ch.sessionID ch.recvDir) (frame.drop Agent.counterLen) <;> rfl

/-- Only a replay is reported as one. -/
theorem outcome_inj {frame : Bytes} {replay replay' : Bool}
    (h : (outcome A log ch frame replay).1.mapError failureOf =
      (outcome A log ch frame replay').1.mapError failureOf) : replay = replay' := by
  have hfound : (outcome A log ch frame true).1.mapError failureOf = .error (.channel .replay) := rfl
  have hnot : (outcome A log ch frame false).1.mapError failureOf ≠ .error (.channel .replay) := by
    unfold outcome
    simp only [Bool.false_eq_true, if_false]
    split <;> nofun
  cases replay <;> cases replay'
  · rfl
  · exact absurd (h.trans hfound) hnot
  · exact absurd (h.symm.trans hfound) hnot
  · rfl

theorem openAgrees_iff (hG : SameCipher A log G) (ch : Agent.SecureChannel) (frame : Bytes) :
    OpenAgrees A log G ch frame ↔ SameHalf ch frame := by
  by_cases hlen : frame.length < Agent.counterLen + Agent.tagLen
  · refine iff_of_true ?_ (.inl hlen)
    have hlen' : frame.length < Mobile.counterLen + Mobile.tagLen := hlen
    unfold OpenAgrees Mobile.SecureChannel.open Agent.SecureChannel.open
    rw [if_pos hlen, if_pos hlen']
    rfl
  · rw [OpenAgrees, mobile_open_outcome hG hlen, open_outcome hlen]
    cases hlast : ch.recvLast with
    | none =>
      refine iff_of_true rfl (.inr ?_)
      rw [hlast]
      rintro last ⟨⟩
    | some last =>
      have hhalf : SameHalf ch frame ↔ high (Agent.counterOf frame) = high last := by
        simp [SameHalf, hlen, hlast]
      rw [hhalf, Option.any_some, Option.any_some]
      have hle := toInt64_le_iff (Agent.counterOf frame) last
      constructor
      · intro h
        have hsame := decide_eq_decide.1 (outcome_inj (congrArg Prod.fst h))
        tauto
      · intro hsame
        have hchecks : decide ((Agent.counterOf frame).toInt64 ≤ last.toInt64) =
            decide (Agent.counterOf frame ≤ last) := decide_eq_decide.2 (by tauto)
        rw [hchecks]

theorem sealAgrees_iff (hG : SameCipher A log G) (ch : Agent.SecureChannel) (plaintext : Bytes) :
    SealAgrees A log G ch plaintext ↔ ch.sendCounter ≠ Agent.u64Max ∨
      A.encrypt ch.sendKey (Agent.nonceFor ch.sendCounter) (Agent.aadFor ch.sessionID ch.sendDir) plaintext =
        none := by
  have hcall : (mobileOf ch).encrypt G (countersOf ch).sendCounter plaintext =
      G.encrypt plaintext ch.sendKey (Agent.nonceFor ch.sendCounter)
        (Agent.aadFor ch.sessionID ch.sendDir) := rfl
  have henc := hG.encrypt ch.sendKey (Agent.nonceFor ch.sendCounter) (Agent.aadFor ch.sessionID ch.sendDir)
    plaintext
  unfold SealAgrees Mobile.SecureChannel.seal Agent.SecureChannel.seal
  simp only [Proc.Prog.perform_bind, Proc.Prog.run_call, Mobile.exec, hcall, henc]
  cases G.encrypt plaintext ch.sendKey (Agent.nonceFor ch.sendCounter)
      (Agent.aadFor ch.sessionID ch.sendDir) with
  | none =>
    refine iff_of_true rfl (.inr rfl)
  | some box =>
    have hnext : Agent.u64Max = ch.sendCounter ↔ Agent.checkedAdd ch.sendCounter 1 = none := by
      rw [Agent.checkedAdd_one_eq_none, ← UInt64.toNat_inj]
      exact eq_comm
    cases hadd : Agent.checkedAdd ch.sendCounter 1 with
    | none =>
      have hmax := hnext.2 hadd
      refine iff_of_false (fun h => ?_) (by simp [hmax])
      cases congrArg Prod.fst h
    | some next =>
      have hne : ch.sendCounter ≠ Agent.u64Max := by
        intro heq
        rw [hnext.1 heq.symm] at hadd
        cases hadd
      refine iff_of_true ?_ (.inl hne)
      have hsucc : next = ch.sendCounter + 1 := by
        unfold Agent.checkedAdd at hadd
        split_ifs at hadd
        exact (Option.some.inj hadd).symm
      have hframe : Mobile.frameOf (countersOf ch).sendCounter box =
          Agent.toBeBytes ch.sendCounter ++ (box.cipherText ++ box.mac) := List.append_assoc _ _ _
      show (Except.ok (Mobile.frameOf (countersOf ch).sendCounter box), _) = _
      rw [hframe, hsucc]
      rfl

end Agree

/-- With the same cipher, the two calls of `open` agree on a frame if and only if it is too short or its
counter lies in the half of the last accepted one, and the two calls of `seal` agree on a plaintext if and
only if the counter is not exhausted or the cipher refuses the plaintext. -/
theorem channels_agree_iff {A : Aead Agent.Key} {log : Agent.Log} {G : AesGcm} (hG : SameCipher A log G)
    (ch : Agent.SecureChannel) :
    (∀ frame, OpenAgrees A log G ch frame ↔ SameHalf ch frame) ∧
      ∀ plaintext, SealAgrees A log G ch plaintext ↔ ch.sendCounter ≠ Agent.u64Max ∨
        A.encrypt ch.sendKey (Agent.nonceFor ch.sendCounter) (Agent.aadFor ch.sessionID ch.sendDir)
          plaintext = none :=
  ⟨openAgrees_iff hG ch, sealAgrees_iff hG ch⟩

/-! ### One cipher in two libraries -/

/-- The phone's library, for the cipher of the agent's. -/
def mirror (A : Aead Agent.Key) (log : Agent.Log) : AesGcm where
  encrypt msg k nonce aad := (A.encrypt k nonce aad msg).map fun ct =>
    ⟨ct.take (ct.length - Mobile.tagLen), ct.drop (ct.length - Mobile.tagLen)⟩
  decrypt box k nonce aad := A.decrypt log k nonce aad (box.cipherText ++ box.mac)

theorem sameCipher_mirror (A : Aead Agent.Key) (log : Agent.Log) : SameCipher A log (mirror A log) where
  encrypt k nonce aad msg := by
    simp [mirror, Option.map_map, Function.comp_def]
  decrypt _ _ _ _ _ := rfl

/-- The phone opens the frame of the interop vector as the agent does. -/
theorem interop_agrees :
    let log := [(sealer 0).sealing (Agent.ascii "hello")]
    OpenAgrees Agent.interopCipher log (mirror Agent.interopCipher log) Agent.opener
      (Agent.toBeBytes 0 ++ Agent.interopCt) :=
  ((channels_agree_iff (sameCipher_mirror Agent.interopCipher _) Agent.opener).1 _).2
    (.inr fun _ h => by cases h)

/-- The agent after it has accepted its first frame. -/
def received : Agent.SecureChannel := { Agent.opener with recvLast := some 0 }

/-- A forged frame with the last counter. -/
def forged : Bytes := .replicate 24 0xff

/-- The agent finds a forgery, the phone a replay. -/
theorem forged_disagrees :
    SameCipher Agent.interopCipher [] (mirror Agent.interopCipher []) ∧
      (received.open Agent.interopCipher forged []).1 = .error .opening ∧
      (((mobileOf received).open (mirror Agent.interopCipher []) forged).run Mobile.exec (fun _ => ())
        (countersOf received)).1 = .error (.channel .replay) ∧
      ¬ OpenAgrees Agent.interopCipher [] (mirror Agent.interopCipher []) received forged := by
  refine ⟨sameCipher_mirror _ _, rfl, rfl, fun h => ?_⟩
  cases congrArg Prod.fst h

end DeskSync.Session.Channels
