import DeskSync.Lib.Bytes
import DeskSync.Lib.Proc

/-!
# The secure channel of the mobile client

`SecureChannel` of the Dart client, the mirror of the agent's channel. `seal` and `open` are
asynchronous: a call runs without interruption up to its `await` of the cipher, is suspended there while
other calls on the same channel run, and then runs to its end. So a call touches the mutable fields of
the channel in two atomic blocks, one before the `await` and one after it, and these are the calls
(`Access`) of its handler. The cipher's answer is a function of its arguments; a call whose cipher fails
has no second block.

A Dart `int` is a signed 64-bit number whose addition wraps; `getUint64` and `setUint64` reinterpret the
same 64 bits.

`At` lists the points a call can be at; every call in flight is at one of them (`at_step`).
-/

namespace DeskSync.Mobile

open Proc
open Proc.Prog (perform)

/-! ### Constants -/

def keyLen : ℕ := 32

def nonceLen : ℕ := 12

def tagLen : ℕ := 16

def counterLen : ℕ := 8

abbrev Key := Vector UInt8 keyLen

/-! ### Counters -/

/-- `setUint64(0, counter)`. -/
def counterBytes (counter : Int64) : Bytes := beBytes counterLen counter.toUInt64.toNat

/-- `getUint64(0)`. -/
def readCounter (frame : Bytes) : Int64 := (UInt64.ofNat (beNat (frame.take counterLen))).toInt64

def nonceFor (counter : Int64) : Bytes :=
  List.replicate (nonceLen - counterLen) 0 ++ counterBytes counter

@[simp] theorem length_counterBytes (counter : Int64) : (counterBytes counter).length = counterLen :=
  length_beBytes _ _

theorem counterBytes_injective : Function.Injective counterBytes := by
  rintro ⟨n⟩ ⟨m⟩ h
  exact congrArg Int64.ofUInt64 (UInt64.toNat_inj.1 (beBytes_inj n.toNat_lt m.toNat_lt h))

theorem nonceFor_injective : Function.Injective nonceFor :=
  fun _ _ h => counterBytes_injective (List.append_cancel_left h)

theorem readCounter_append (counter : Int64) (rest : Bytes) :
    readCounter (counterBytes counter ++ rest) = counter := by
  rw [readCounter, List.take_left' (length_counterBytes counter), counterBytes,
    beNat_beBytes_of_lt counter.toUInt64.toNat_lt, UInt64.ofNat_toNat]
  rfl

/-! ### The cipher -/

structure SecretBox where
  cipherText : Bytes
  mac : Bytes
  deriving DecidableEq

/-- `AesGcm.with256bits`; `decrypt` fails with a `SecretBoxAuthenticationError`. -/
structure AesGcm where
  encrypt : (plaintext : Bytes) → Key → (nonce aad : Bytes) → Option SecretBox
  decrypt : SecretBox → Key → (nonce aad : Bytes) → Option Bytes

inductive SecureChannelError
  | malformed
  | replay
  | authentication
  deriving DecidableEq

/-- What a call ends with when it throws. -/
inductive Failure
  | channel (error : SecureChannelError)
  /-- The error of a failing `encrypt`. -/
  | cipher
  deriving DecidableEq

/-! ### The channel -/

/-- The final fields. -/
structure SecureChannel where
  sendKey : Key
  recvKey : Key
  sendDir : UInt8
  recvDir : UInt8
  sessionID : Bytes

/-- The mutable fields, as the constructor sets them. -/
structure Counters where
  sendCounter : Int64 := 0
  recvLast : Option Int64 := none

/-- What a call does to the mutable fields in one block. -/
inductive Access
  | sendCounter
  | incSendCounter
  | recvLast
  | setRecvLast (counter : Int64)

@[reducible] def Reply : Access → Type
  | .sendCounter => Int64
  | .incSendCounter => Unit
  | .recvLast => Option Int64
  | .setRecvLast _ => Unit

def exec (_ : Unit) : (c : Access) → Counters → Reply c × Counters
  | .sendCounter, s => (s.sendCounter, s)
  | .incSendCounter, s => ((), { s with sendCounter := s.sendCounter + 1 })
  | .recvLast, s => (s.recvLast, s)
  | .setRecvLast counter, s => ((), { s with recvLast := some counter })

abbrev Response := Except Failure Bytes

abbrev Handler := Prog Reply Response

def SecureChannel.aad (ch : SecureChannel) (dir : UInt8) : Bytes := ch.sessionID ++ [dir]

def frameOf (counter : Int64) (box : SecretBox) : Bytes :=
  counterBytes counter ++ box.cipherText ++ box.mac

/-- `_aesGcm.encrypt` as `seal` calls it. -/
def SecureChannel.encrypt (G : AesGcm) (ch : SecureChannel) (counter : Int64) (plaintext : Bytes) :
    Option SecretBox :=
  G.encrypt plaintext ch.sendKey (nonceFor counter) (ch.aad ch.sendDir)

/-- `_aesGcm.decrypt` as `open` calls it. -/
def SecureChannel.decrypt (G : AesGcm) (ch : SecureChannel) (frame : Bytes) : Option Bytes :=
  let cipherText := (frame.take (frame.length - tagLen)).drop counterLen
  let mac := frame.drop (frame.length - tagLen)
  G.decrypt ⟨cipherText, mac⟩ ch.recvKey (nonceFor (readCounter frame)) (ch.aad ch.recvDir)

def SecureChannel.seal (G : AesGcm) (ch : SecureChannel) (plaintext : Bytes) : Handler := do
  let counter : Int64 ← perform Access.sendCounter
  match ch.encrypt G counter plaintext with
  | none => pure (.error .cipher)
  | some box =>
    -- suspended in `encrypt` until here
    perform Access.incSendCounter
    pure (.ok (frameOf counter box))

def SecureChannel.open (G : AesGcm) (ch : SecureChannel) (frame : Bytes) : Handler :=
  if frame.length < counterLen + tagLen then pure (.error (.channel .malformed))
  else do
    let counter := readCounter frame
    let last : Option Int64 ← perform Access.recvLast
    if last.any fun last => counter ≤ last then pure (.error (.channel .replay))
    else
      match ch.decrypt G frame with
      | none => pure (.error (.channel .authentication))
      | some clear =>
        -- suspended in `decrypt` until here
        perform (Access.setRecvLast counter)
        pure (.ok clear)

inductive Request
  | sealMsg (plaintext : Bytes)
  | openFrame (frame : Bytes)

/-- One channel and the calls on it, in any order and overlapping in any way. -/
def system (G : AesGcm) (ch : SecureChannel) : System Counters Request Reply Response Unit Empty where
  start
    | .sealMsg plaintext, _ => ch.seal G plaintext
    | .openFrame frame, _ => ch.open G frame
  exec := exec
  env := nofun

abbrev World := Pool Counters Request Reply Response

abbrev Step := Label Request Unit Empty

/-- A channel just built. -/
def fresh : World := ⟨{}, []⟩

/-! ### Points -/

/-- A `seal` suspended in `encrypt`. -/
def sealing (counter : Int64) (box : SecretBox) : Handler :=
  .call .incSendCounter fun _ => .ret (.ok (frameOf counter box))

/-- An `open` suspended in `decrypt`. -/
def opening (counter : Int64) (clear : Bytes) : Handler :=
  .call (.setRecvLast counter) fun _ => .ret (.ok clear)

/-- The points a call can be at. -/
inductive At (G : AesGcm) (ch : SecureChannel) : Request → Handler → Prop
  | sealStart (plaintext) : At G ch (.sealMsg plaintext) (ch.seal G plaintext)
  | sealing (plaintext counter box) (h : ch.encrypt G counter plaintext = some box) :
      At G ch (.sealMsg plaintext) (sealing counter box)
  | sealed (plaintext counter box) (h : ch.encrypt G counter plaintext = some box) :
      At G ch (.sealMsg plaintext) (.ret (.ok (frameOf counter box)))
  | openStart (frame) : At G ch (.openFrame frame) (ch.open G frame)
  | opening (frame clear) (h : ch.decrypt G frame = some clear) :
      At G ch (.openFrame frame) (opening (readCounter frame) clear)
  | opened (frame clear) (h : ch.decrypt G frame = some clear) :
      At G ch (.openFrame frame) (.ret (.ok clear))
  | failed (q e) : At G ch q (.ret (.error e))

variable {G : AesGcm} {ch : SecureChannel} {w : World}

theorem at_start (q : Request) : At G ch q ((system G ch).start q ()) := by
  cases q with
  | sealMsg plaintext => exact .sealStart plaintext
  | openFrame frame => exact .openStart frame

/-- What a block of a call does to the mutable fields and to the call. -/
inductive Move (G : AesGcm) (ch : SecureChannel) :
    Counters → Thread Request Reply Response → Counters → Thread Request Reply Response → Prop
  | encrypts (s plaintext box) (h : ch.encrypt G s.sendCounter plaintext = some box) :
      Move G ch s ⟨.sealMsg plaintext, ch.seal G plaintext⟩ s
        ⟨.sealMsg plaintext, sealing s.sendCounter box⟩
  | refuses (s plaintext) (h : ch.encrypt G s.sendCounter plaintext = none) :
      Move G ch s ⟨.sealMsg plaintext, ch.seal G plaintext⟩ s ⟨.sealMsg plaintext, .ret (.error .cipher)⟩
  | seals (s plaintext counter box) (h : ch.encrypt G counter plaintext = some box) :
      Move G ch s ⟨.sealMsg plaintext, sealing counter box⟩
        { s with sendCounter := s.sendCounter + 1 }
        ⟨.sealMsg plaintext, .ret (.ok (frameOf counter box))⟩
  | decrypts (s frame clear) (hlast : ∀ last ∈ s.recvLast, last < readCounter frame)
      (h : ch.decrypt G frame = some clear) :
      Move G ch s ⟨.openFrame frame, ch.open G frame⟩ s
        ⟨.openFrame frame, opening (readCounter frame) clear⟩
  | rejects (s frame e) :
      Move G ch s ⟨.openFrame frame, ch.open G frame⟩ s ⟨.openFrame frame, .ret (.error e)⟩
  | opens (s frame clear) (h : ch.decrypt G frame = some clear) :
      Move G ch s ⟨.openFrame frame, opening (readCounter frame) clear⟩
        { s with recvLast := some (readCounter frame) } ⟨.openFrame frame, .ret (.ok clear)⟩

theorem move_of_call {q : Request} {c : Access} {k : Reply c → Handler} (h : At G ch q (.call c k))
    (s : Counters) : Move G ch s ⟨q, .call c k⟩ (exec () c s).2 ⟨q, k (exec () c s).1⟩ := by
  generalize hp : Prog.call c k = p at h
  cases h with
  | sealStart plaintext =>
    simp only [SecureChannel.seal, Prog.perform_bind] at hp
    cases hp
    dsimp only [exec]
    cases henc : ch.encrypt G s.sendCounter plaintext with
    | none => exact .refuses s plaintext henc
    | some box => exact .encrypts s plaintext box henc
  | sealing plaintext counter box henc =>
    cases hp
    exact .seals s plaintext counter box henc
  | openStart frame =>
    unfold SecureChannel.open at hp
    split_ifs at hp
    simp only [Prog.perform_bind] at hp
    cases hp
    dsimp only [exec]
    split_ifs with hlast
    · exact .rejects s frame _
    · cases hdec : ch.decrypt G frame with
      | none => exact .rejects s frame _
      | some clear =>
        refine .decrypts s frame clear (fun last hmem => ?_) hdec
        rw [Option.mem_def.1 hmem, Option.any_some, decide_eq_true_eq] at hlast
        exact Int64.not_le.1 hlast
  | opening frame clear hdec =>
    cases hp
    exact .opens s frame clear hdec
  | sealed => cases hp
  | opened => cases hp
  | failed => cases hp

/-- What a step can do: nothing, start a call, or run the next block of one. -/
theorem step_cases (hw : w.All (At G ch)) (l : Step) :
    (system G ch).step w l = w ∨
    (∃ q, (system G ch).step w l = { w with threads := w.threads ++ [⟨q, (system G ch).start q ()⟩] }) ∨
    ∃ i t s' t', l = .advance i () ∧ w.threads[i]? = some t ∧ Move G ch w.store t s' t' ∧
      (system G ch).step w l = ⟨s', w.threads.set i t'⟩ := by
  rcases (system G ch).step_cases w l with hs | ⟨q, e, -, hs⟩ | ⟨i, e, q, c, k, rfl, hi, hs⟩ | ⟨v, -⟩
  · exact .inl hs
  · exact .inr (.inl ⟨q, hs⟩)
  · exact .inr (.inr ⟨i, _, _, _, rfl, hi, move_of_call (hw i q _ hi) w.store, hs⟩)
  · exact v.elim

theorem Move.at {s s' : Counters} {t t' : Thread Request Reply Response} (h : Move G ch s t s' t') :
    At G ch t'.req t'.prog := by
  cases h with
  | encrypts plaintext box h => exact .sealing _ _ _ h
  | refuses => exact .failed _ _
  | seals plaintext counter box h => exact .sealed _ _ _ h
  | decrypts frame clear _ h => exact .opening _ _ h
  | rejects => exact .failed _ _
  | opens frame clear h => exact .opened _ _ h

theorem at_step (hw : w.All (At G ch)) (l : Step) : ((system G ch).step w l).All (At G ch) :=
  hw.step (fun q _ _ => at_start q) fun _ _ _ _ _ _ _ h => (move_of_call h w.store).at

/-! ### A sample channel -/

/-- The identity, with the nonce in the tag. -/
def sampleCipher : AesGcm where
  encrypt plaintext _ nonce _ := some ⟨plaintext, nonce ++ [0, 0, 0, 0]⟩
  decrypt box _ nonce _ := if box.mac = nonce ++ [0, 0, 0, 0] then some box.cipherText else none

def sampleChannel : SecureChannel where
  sendKey := .replicate keyLen 1
  recvKey := .replicate keyLen 1
  sendDir := 1
  recvDir := 1
  sessionID := []

end DeskSync.Mobile
