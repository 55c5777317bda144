import DeskSync.Agent.Channel
import DeskSync.Lib.Elements
import DeskSync.Lib.Run

/-!
# Channels in the hands of an adversary

Any number of channels, built from any handshakes, seal plaintexts and are handed byte strings in any
order: the adversary owns the network, so what is opened need not be what was sealed. A run is a list of
calls; its history records every call with its result.

`step_cases` says what a call can do to the world, `built_step` that no call touches the keys, the
directions or the session of a channel.
-/

namespace DeskSync.Agent

/-- The channels, and the encryptions made so far. -/
structure World where
  chans : List SecureChannel
  log : Log

/-- A call on a channel. -/
inductive Op
  | sealMsg (i : ℕ) (plaintext : Bytes)
  | openFrame (i : ℕ) (frame : Bytes)

/-- A call and what it returned. -/
inductive Event
  | sealed (i : ℕ) (plaintext : Bytes) (r : Except CryptoError Bytes)
  | opened (i : ℕ) (frame : Bytes) (r : Except CryptoError Bytes)

/-- Freshly built channels. -/
def World.init (hkdf : Hkdf) (setup : List (Handshake × Role)) : World :=
  ⟨setup.map fun s => .new hkdf s.1 s.2, []⟩

def step (A : Aead Key) (w : World) : Op → World
  | .sealMsg i plaintext =>
    match w.chans[i]? with
    | none => w
    | some ch => ⟨w.chans.set i (ch.seal A plaintext w.log).2.1, (ch.seal A plaintext w.log).2.2⟩
  | .openFrame i frame =>
    match w.chans[i]? with
    | none => w
    | some ch => { w with chans := w.chans.set i (ch.open A frame w.log).2 }

def event (A : Aead Key) (w : World) : Op → Option Event
  | .sealMsg i plaintext =>
    w.chans[i]?.map fun ch => .sealed i plaintext (ch.seal A plaintext w.log).1
  | .openFrame i frame => w.chans[i]?.map fun ch => .opened i frame (ch.open A frame w.log).1

/-- A world and its history. -/
abbrev Traced := World × List Event

/-- The run of the calls `l` on freshly built channels. -/
def run (A : Aead Key) (hkdf : Hkdf) (setup : List (Handshake × Role)) (l : List Op) : Traced :=
  Run.exec (Run.observe (step A) (event A)) (World.init hkdf setup, []) l

/-! ### Reading a history -/

def u64Max : UInt64 := UInt64.ofNat (2 ^ 64 - 1)

/-- The plaintext and the frame of a call of `seal` on the channel `i` that returned one. -/
def sealedBy (i : ℕ) : Event → Option (Bytes × Bytes)
  | .sealed k plaintext (.ok frame) => if k = i then some (plaintext, frame) else none
  | _ => none

/-- The counter and the plaintext of a call of `seal` on the channel `i` that encrypted: it returned a
frame, or found the counter exhausted afterwards. -/
def encryptedBy (i : ℕ) : Event → Option (UInt64 × Bytes)
  | .sealed k plaintext (.ok frame) => if k = i then some (counterOf frame, plaintext) else none
  | .sealed k plaintext (.error .counterExhausted) => if k = i then some (u64Max, plaintext) else none
  | _ => none

/-- The frame and the plaintext of a call of `open` on the channel `j` that succeeded. -/
def acceptedBy (j : ℕ) : Event → Option (Bytes × Bytes)
  | .opened k frame (.ok plaintext) => if k = j then some (frame, plaintext) else none
  | _ => none

/-! ### Steps -/

theorem set_self {k : ℕ} {chans : List SecureChannel} {ch : SecureChannel}
    (h : chans[k]? = some ch) : chans.set k ch = chans := by
  obtain ⟨hk, rfl⟩ := List.getElem?_eq_some_iff.1 h
  exact List.set_getElem_self hk

/-- A call of `seal` or `open` fails without effect, encrypts, or accepts a frame. -/
theorem step_cases (A : Aead Key) (w : World) (op : Op) :
    (step A w op = w ∧ ∀ k, (event A w op).bind (sealedBy k) = none ∧
      (event A w op).bind (encryptedBy k) = none ∧ (event A w op).bind (acceptedBy k) = none) ∨
    (∃ k ch plaintext ct next r, w.chans[k]? = some ch ∧
      A.encrypt ch.sendKey (nonceFor ch.sendCounter) (aadFor ch.sessionID ch.sendDir) plaintext =
        some ct ∧ ch.sendCounter ≤ next ∧
      step A w op = ⟨w.chans.set k { ch with sendCounter := next }, w.log ++ [ch.sealing plaintext]⟩ ∧
      event A w op = some (.sealed k plaintext r) ∧
      (r = .ok (toBeBytes ch.sendCounter ++ ct) ∨
        ch.sendCounter = u64Max ∧ r = .error .counterExhausted)) ∨
    (∃ k ch frame pt, w.chans[k]? = some ch ∧ (∀ last ∈ ch.recvLast, last < counterOf frame) ∧
      A.decrypt w.log ch.recvKey (nonceFor (counterOf frame)) (aadFor ch.sessionID ch.recvDir)
        (frame.drop counterLen) = some pt ∧
      step A w op = { w with chans := w.chans.set k { ch with recvLast := some (counterOf frame) } } ∧
      event A w op = some (.opened k frame (.ok pt))) := by
  cases op with
  | sealMsg k plaintext =>
    cases hk : w.chans[k]? with
    | none => left; simp [step, event, hk]
    | some ch =>
      rcases ch.seal_cases A plaintext w.log with hs | ⟨ct, henc, ⟨hmax, hs⟩ | ⟨next, hnext, hs⟩⟩
      · left
        simp [step, event, hk, hs, encryptedBy, sealedBy, acceptedBy, set_self hk]
      · right; left
        refine ⟨k, ch, plaintext, ct, ch.sendCounter, _, hk, henc, UInt64.le_refl _, ?_, ?_,
          .inr ⟨?_, rfl⟩⟩
        · simp only [step, hk, hs]
        · simp only [event, hk, hs, Option.map_some]
        · rw [u64Max, ← hmax, UInt64.ofNat_toNat]
      · right; left
        refine ⟨k, ch, plaintext, ct, next, _, hk, henc, ?_, ?_, ?_, .inl rfl⟩
        · rw [UInt64.le_iff_toNat_le, hnext]
          exact Nat.le_succ _
        · simp only [step, hk, hs]
        · simp only [event, hk, hs, Option.map_some]
  | openFrame k frame =>
    cases hk : w.chans[k]? with
    | none => left; simp [step, event, hk]
    | some ch =>
      rcases ch.open_cases A frame w.log with ⟨e, ho⟩ | ⟨pt, ho, hlast, hdec⟩
      · left
        simp [step, event, hk, ho, encryptedBy, sealedBy, acceptedBy, set_self hk]
      · right; right
        refine ⟨k, ch, frame, pt, hk, hlast, hdec, ?_, ?_⟩
        · simp only [step, hk, ho]
        · simp only [event, hk, ho, Option.map_some]

theorem filterMap_observed {α : Type} (f : Event → Option α) (evs : List Event) (o : Option Event) :
    (evs ++ o.toList).filterMap f = evs.filterMap f ++ (o.bind f).toList := by
  rw [List.filterMap_append]
  cases o with
  | none => rfl
  | some ev =>
    cases hf : f ev <;> simp [hf]

/-! ### Built channels -/

/-- The channel as it was built. -/
def SecureChannel.fresh (ch : SecureChannel) : SecureChannel :=
  { ch with sendCounter := 0, recvLast := none }

/-- Every channel still has the keys, directions and session it was built with. -/
def Built (hkdf : Hkdf) (setup : List (Handshake × Role)) (w : World) : Prop :=
  w.chans.map SecureChannel.fresh = (World.init hkdf setup).chans

variable {A : Aead Key} {hkdf : Hkdf} {setup : List (Handshake × Role)}

theorem built_init (hkdf : Hkdf) (setup : List (Handshake × Role)) :
    Built hkdf setup (.init hkdf setup) := by
  simp only [Built, World.init, List.map_map]
  refine List.map_congr_left fun s _ => ?_
  obtain ⟨h, _ | _⟩ := s <;> rfl

theorem Built.set {w : World} {k : ℕ} {ch ch' : SecureChannel} (hb : Built hkdf setup w)
    (hk : w.chans[k]? = some ch) (hfresh : ch'.fresh = ch.fresh) (log : Log) :
    Built hkdf setup ⟨w.chans.set k ch', log⟩ := by
  rw [Built, List.map_set, hfresh, ← hb]
  obtain ⟨hlt, rfl⟩ := List.getElem?_eq_some_iff.1 hk
  rw [← List.getElem_map SecureChannel.fresh (h := by simpa using hlt), List.set_getElem_self]

theorem built_step (w : World) (op : Op) (hb : Built hkdf setup w) : Built hkdf setup (step A w op) := by
  rcases step_cases A w op with ⟨hs, -⟩ | ⟨k, ch, _, _, _, _, hk, -, -, hs, -⟩ | ⟨k, ch, _, _, hk, -, -, hs, -⟩
  · rwa [hs]
  · rw [hs]
    refine hb.set hk ?_ _
    rfl
  · rw [hs]
    refine hb.set hk ?_ _
    rfl

theorem built_run (l : List Op) : Built hkdf setup (run A hkdf setup l).1 :=
  Run.invariant (I := fun t : Traced => Built hkdf setup t.1) (fun t op hb => built_step t.1 op hb)
    (built_init hkdf setup) l

theorem Built.get {w : World} {k : ℕ} {ch : SecureChannel} (hb : Built hkdf setup w)
    (hk : w.chans[k]? = some ch) :
    ∃ h r, setup[k]? = some (h, r) ∧ ch.fresh = .new hkdf h r := by
  have hget : (w.chans.map SecureChannel.fresh)[k]? = some ch.fresh := by
    rw [List.getElem?_map, hk]
    rfl
  rw [hb, World.init, List.getElem?_map] at hget
  obtain ⟨⟨h, r⟩, hs, hnew⟩ := Option.map_eq_some_iff.1 hget
  exact ⟨h, r, hs, hnew.symm⟩

/-- The channel at an index whose handshake and role are known. -/
theorem Built.get_of {w : World} {k : ℕ} {ch : SecureChannel} {h : Handshake} {r : Role}
    (hb : Built hkdf setup w) (hk : w.chans[k]? = some ch) (hs : setup[k]? = some (h, r)) :
    ch.fresh = .new hkdf h r := by
  obtain ⟨h', r', hs', hfresh⟩ := hb.get hk
  obtain ⟨rfl, rfl⟩ := Prod.mk.inj (Option.some.inj (hs.symm.trans hs'))
  exact hfresh

/-- One end of a handshake receives under the key, direction and session the other sends under. -/
theorem Built.peer {w : World} {j : ℕ} {ch : SecureChannel} {h : Handshake} {r : Role}
    (hb : Built hkdf setup w) (hch : w.chans[j]? = some ch) (hj : setup[j]? = some (h, r.other)) :
    ch.recvKey = (SecureChannel.new hkdf h r).sendKey ∧
      ch.recvDir = (SecureChannel.new hkdf h r).sendDir ∧
      ch.sessionID = (SecureChannel.new hkdf h r).sessionID := by
  have hfresh := hb.get_of hch hj
  rw [show ch.recvKey = ch.fresh.recvKey from rfl, show ch.recvDir = ch.fresh.recvDir from rfl,
    show ch.sessionID = ch.fresh.sessionID from rfl, hfresh]
  cases r <;> exact ⟨rfl, rfl, rfl⟩

end DeskSync.Agent
