import DeskSync.Agent.Handshake

/-!
# Round trips

Two channels of one handshake seal and open in any interleaving, and each end is handed a subsequence of
what the other has sealed so far. `open` then returns the plaintexts of exactly these frames
(`round_trip`), for which the cipher need not be ideal. `Counting` is the fact behind it, from any state of
the channels: the frames of a channel have increasing counters.
-/

namespace DeskSync.Agent

open Elements

/-- The frame and the result of a call of `open` on the channel `j`. -/
def openedBy (j : ℕ) : Event → Option (Bytes × Except CryptoError Bytes)
  | .opened k frame r => if k = j then some (frame, r) else none
  | .sealed _ _ _ => none

def sealedFrames (i : ℕ) (evs : List Event) : List Bytes := (evs.filterMap (sealedBy i)).map Prod.snd

def openedFrames (j : ℕ) (evs : List Event) : List Bytes := (evs.filterMap (openedBy j)).map Prod.fst

/-- The two ends of a handshake. -/
def pair (h : Handshake) : List (Handshake × Role) := [(h, .controller), (h, .agent)]

def Role.index : Role → ℕ
  | .controller => 0
  | .agent => 1

theorem pair_index (h : Handshake) (r : Role) : (pair h)[r.index]? = some (h, r) := by
  cases r <;> rfl

/-- The frames handed to an end are, in order, among those the other end has sealed. -/
def InOrder (t : Traced) : Op → Prop
  | .sealMsg _ _ => True
  | .openFrame j frame => ∀ r : Role, r.index = j →
    (openedFrames j t.2 ++ [frame]).Sublist (sealedFrames r.other.index t.2)

/-- What the channel `j` was handed is a subsequence of what the channel `i` sealed, and `open` has
returned exactly the corresponding plaintexts. -/
def RoundTrips (i j : ℕ) (evs : List Event) : Prop :=
  ∃ delivered : List (Bytes × Bytes), delivered.Sublist (evs.filterMap (sealedBy i)) ∧
    evs.filterMap (openedBy j) = delivered.map fun x => (x.2, .ok x.1)

variable {A : Aead Key} {hkdf : Hkdf} {setup : List (Handshake × Role)} {i j : ℕ}

/-! ### Counters -/

structure Counting (i : ℕ) (t : Traced) : Prop where
  increasing : ((sealedFrames i t.2).map counterOf).Pairwise (· < ·)
  below : ∀ ch, t.1.chans[i]? = some ch → ∀ frame ∈ sealedFrames i t.2, counterOf frame < ch.sendCounter

/-- A step in which the channel returns no frame. -/
theorem Counting.quiet {w w' : World} {evs evs' : List Event} (ht : Counting i (w, evs))
    (hframes : sealedFrames i evs' = [])
    (hcounter : ∀ ch', w'.chans[i]? = some ch' →
      ∃ ch, w.chans[i]? = some ch ∧ ch'.sendCounter = ch.sendCounter) : Counting i (w', evs ++ evs') := by
  have hsame : sealedFrames i (evs ++ evs') = sealedFrames i evs := by
    rw [sealedFrames, List.filterMap_append, List.map_append]
    exact (congrArg _ hframes).trans (List.append_nil _)
  refine ⟨?_, ?_⟩ <;> dsimp only <;> rw [hsame]
  · exact ht.increasing
  · intro ch' hch' frame hframe
    obtain ⟨ch, hch, heq⟩ := hcounter ch' hch'
    rw [heq]
    exact ht.below ch hch frame hframe

/-- The counter of the channel is above those of its frames. -/
theorem Counting.frame {w : World} {evs : List Event} {ch : SecureChannel} {plaintext ct : Bytes}
    {next : UInt64} {log : Log} (ht : Counting i (w, evs)) (hk : w.chans[i]? = some ch)
    (hnext : ch.sendCounter < next) :
    Counting i (⟨w.chans.set i { ch with sendCounter := next }, log⟩,
      evs ++ [.sealed i plaintext (.ok (toBeBytes ch.sendCounter ++ ct))]) := by
  have hframes : sealedFrames i (evs ++ [.sealed i plaintext (.ok (toBeBytes ch.sendCounter ++ ct))]) =
      sealedFrames i evs ++ [toBeBytes ch.sendCounter ++ ct] := by
    rw [sealedFrames, List.filterMap_append, List.map_append]
    simp [sealedBy, sealedFrames]
  refine ⟨?_, ?_⟩ <;> dsimp only <;> rw [hframes]
  · rw [List.map_append, List.map_singleton, counterOf_append]
    refine List.pairwise_append.2 ⟨ht.increasing, List.pairwise_singleton _ _, fun n hn m hm => ?_⟩
    obtain ⟨frame, hframe, rfl⟩ := List.mem_map.1 hn
    rw [List.mem_singleton.1 hm]
    exact ht.below ch hk frame hframe
  · intro ch' hch' frame hframe
    obtain ⟨-, rfl⟩ | ⟨hne, -⟩ := set_cases hch'
    · rcases List.mem_append.1 hframe with hframe | hframe
      · exact UInt64.lt_trans (ht.below ch hk frame hframe) hnext
      · rw [List.mem_singleton.1 hframe, counterOf_append]
        exact hnext
    · exact absurd rfl hne

theorem counting_step (t : Traced) (op : Op) (ht : Counting i t) :
    Counting i (Run.observe (step A) (event A) t op) := by
  obtain ⟨w, evs⟩ := t
  have hset {k : ℕ} {ch ch' : SecureChannel} (hk : w.chans[k]? = some ch)
      (hsame : k = i → ch'.sendCounter = ch.sendCounter) (c : SecureChannel)
      (hc : (w.chans.set k ch')[i]? = some c) :
      ∃ ch, w.chans[i]? = some ch ∧ c.sendCounter = ch.sendCounter := by
    obtain ⟨rfl, rfl⟩ | ⟨-, hc⟩ := set_cases hc
    · exact ⟨ch, hk, hsame rfl⟩
    · exact ⟨c, hc, rfl⟩
  cases op with
  | sealMsg k plaintext =>
    cases hk : w.chans[k]? with
    | none => simpa [Run.observe, step, event, hk] using ht
    | some ch =>
      simp only [Run.observe, step, event, hk, Option.map_some, Option.toList_some]
      rcases ch.seal_cases A plaintext w.log with hs | ⟨ct, henc, ⟨hmax, hs⟩ | ⟨next, hnext, hs⟩⟩
      · rw [hs]
        exact ht.quiet rfl (hset hk fun _ => rfl)
      · rw [hs]
        exact ht.quiet rfl (hset hk fun _ => rfl)
      · rw [hs]
        by_cases hki : k = i
        · subst hki
          exact ht.frame hk (UInt64.lt_iff_toNat_lt.2 (by omega))
        · refine ht.quiet ?_ (hset hk fun heq => absurd heq hki)
          simp [sealedFrames, sealedBy, hki]
  | openFrame k frame =>
    cases hk : w.chans[k]? with
    | none => simpa [Run.observe, step, event, hk] using ht
    | some ch =>
      simp only [Run.observe, step, event, hk, Option.map_some, Option.toList_some]
      refine ht.quiet rfl (hset hk fun _ => ?_)
      rcases ch.open_cases A frame w.log with ⟨e, ho⟩ | ⟨pt, ho, -, -⟩ <;> rw [ho]

/-- From any state, the counters of the frames a channel returns increase. -/
theorem counting_run (A : Aead Key) (w : World) (i : ℕ) (l : List Op) :
    Counting i (Run.exec (Run.observe (step A) (event A)) (w, []) l) :=
  Run.invariant (I := Counting i) (fun t op => counting_step t op)
    ⟨List.Pairwise.nil, fun _ _ _ hframe => absurd hframe List.not_mem_nil⟩ l

/-! ### Deliveries -/

/-- The end `j` has opened everything it was handed, in the order in which the end `i` sealed it. -/
structure Opened (i j : ℕ) (t : Traced) : Prop where
  results : ∀ o ∈ t.2.filterMap (openedBy j), ∃ plaintext, o.2 = .ok plaintext ∧
    (plaintext, o.1) ∈ t.2.filterMap (sealedBy i)
  inOrder : (openedFrames j t.2).Sublist (sealedFrames i t.2)
  last : ∀ ch, t.1.chans[j]? = some ch → ch.recvLast = (openedFrames j t.2).getLast?.map counterOf

/-- A step in which the end `j` opens nothing. -/
theorem Opened.quiet {w w' : World} {evs evs' : List Event} (ht : Opened i j (w, evs))
    (hopened : evs'.filterMap (openedBy j) = [])
    (hlast : ∀ ch', w'.chans[j]? = some ch' → ∃ ch, w.chans[j]? = some ch ∧ ch'.recvLast = ch.recvLast) :
    Opened i j (w', evs ++ evs') := by
  have hsame : (evs ++ evs').filterMap (openedBy j) = evs.filterMap (openedBy j) := by
    rw [List.filterMap_append, hopened, List.append_nil]
  refine ⟨?_, ?_, ?_⟩ <;> simp only [openedFrames, hsame]
  · intro o ho
    obtain ⟨plaintext, hok, hmem⟩ := ht.results o ho
    exact ⟨plaintext, hok, by rw [List.filterMap_append]; exact List.mem_append_left _ hmem⟩
  · rw [sealedFrames, List.filterMap_append, List.map_append]
    exact ht.inOrder.trans (List.sublist_append_left _ _)
  · intro ch' hch'
    obtain ⟨ch, hch, heq⟩ := hlast ch' hch'
    rw [heq]
    exact ht.last ch hch

/-- The end `j` opens the next frame. -/
theorem Opened.deliver {w : World} {evs : List Event} {ch : SecureChannel} {plaintext frame : Bytes}
    (ht : Opened i j (w, evs)) (hmem : (plaintext, frame) ∈ evs.filterMap (sealedBy i))
    (horder : (openedFrames j evs ++ [frame]).Sublist (sealedFrames i evs)) :
    Opened i j ({ w with chans := w.chans.set j { ch with recvLast := some (counterOf frame) } },
      evs ++ [.opened j frame (.ok plaintext)]) := by
  have hopened : (evs ++ [Event.opened j frame (.ok plaintext)]).filterMap (openedBy j) =
      evs.filterMap (openedBy j) ++ [(frame, .ok plaintext)] := by
    rw [List.filterMap_append]
    simp [openedBy]
  have hsealed : (evs ++ [Event.opened j frame (.ok plaintext)]).filterMap (sealedBy i) =
      evs.filterMap (sealedBy i) := by
    rw [List.filterMap_append]
    exact List.append_nil _
  refine ⟨?_, ?_, ?_⟩ <;> simp only [openedFrames, sealedFrames, hopened, hsealed, List.map_append,
    List.map_singleton]
  · intro o ho
    rcases List.mem_append.1 ho with ho | ho
    · exact ht.results o ho
    · rw [List.mem_singleton.1 ho]
      exact ⟨plaintext, rfl, hmem⟩
  · exact horder
  · intro ch' hch'
    obtain ⟨-, rfl⟩ | ⟨hne, -⟩ := set_cases hch'
    · rw [List.getLast?_concat]
      rfl
    · exact absurd rfl hne

/-- A frame after those already opened has a counter above theirs. -/
theorem Opened.above {t : Traced} {ch : SecureChannel} {frame : Bytes} (ht : Opened i j t)
    (hc : Counting i t) (hk : t.1.chans[j]? = some ch)
    (horder : (openedFrames j t.2 ++ [frame]).Sublist (sealedFrames i t.2)) :
    ∀ last ∈ ch.recvLast, last < counterOf frame := by
  intro last hlast
  rw [ht.last ch hk] at hlast
  obtain ⟨g, hg, rfl⟩ := Option.map_eq_some_iff.1 hlast
  have hincreasing := hc.increasing.sublist (horder.map counterOf)
  rw [List.map_append, List.pairwise_append] at hincreasing
  exact hincreasing.2.2 _ (List.mem_map_of_mem (List.mem_of_getLast? hg)) _ (by simp)

theorem opened_step {h : Handshake} {r : Role} (hA : A.Correct tagLen) (hi : setup[i]? = some (h, r.other))
    (hj : setup[j]? = some (h, r)) (t : Traced) (op : Op) (hb : Built hkdf setup t.1)
    (hl : Logged A hkdf setup t) (hc : Counting i t)
    (horder : ∀ frame, op = .openFrame j frame →
      (openedFrames j t.2 ++ [frame]).Sublist (sealedFrames i t.2)) (ht : Opened i j t) :
    Opened i j (Run.observe (step A) (event A) t op) := by
  obtain ⟨w, evs⟩ := t
  have hset {k : ℕ} {ch ch' : SecureChannel} (hk : w.chans[k]? = some ch)
      (hsame : k = j → ch'.recvLast = ch.recvLast) (c : SecureChannel)
      (hc : (w.chans.set k ch')[j]? = some c) :
      ∃ ch, w.chans[j]? = some ch ∧ c.recvLast = ch.recvLast := by
    obtain ⟨rfl, rfl⟩ | ⟨-, hc⟩ := set_cases hc
    · exact ⟨ch, hk, hsame rfl⟩
    · exact ⟨c, hc, rfl⟩
  cases op with
  | sealMsg k plaintext =>
    cases hk : w.chans[k]? with
    | none => simpa [Run.observe, step, event, hk] using ht
    | some ch =>
      simp only [Run.observe, step, event, hk, Option.map_some, Option.toList_some]
      refine ht.quiet rfl (hset hk fun _ => ?_)
      rcases ch.seal_cases A plaintext w.log with hs | ⟨ct, -, ⟨-, hs⟩ | ⟨next, -, hs⟩⟩ <;> rw [hs]
  | openFrame k frame =>
    cases hk : w.chans[k]? with
    | none => simpa [Run.observe, step, event, hk] using ht
    | some ch =>
      simp only [Run.observe, step, event, hk, Option.map_some, Option.toList_some]
      by_cases hkj : k = j
      · subst hkj
        have hnext := horder frame rfl
        have hsealed : frame ∈ sealedFrames i evs := hnext.subset (by simp)
        obtain ⟨⟨plaintext, frame'⟩, hmem, hframe⟩ := List.mem_map.1 hsealed
        obtain rfl : frame' = frame := hframe
        have hopen := hl.opens hA hi (hb.get_of hk hj) hmem (ht.above hc hk hnext)
        dsimp only at hopen
        rcases ch.open_cases A frame' w.log with ⟨e, ho⟩ | ⟨pt, ho, -, -⟩
        · rw [ho] at hopen
          cases hopen
        · rw [ho] at hopen
          obtain rfl := Except.ok.inj hopen
          rw [ho]
          exact ht.deliver hmem hnext
      · refine ht.quiet ?_ (hset hk fun heq => absurd heq hkj)
        simp [openedBy, hkj]

/-! ### Round trips -/

theorem Role.other_other (r : Role) : r.other.other = r := by
  cases r <;> rfl

theorem opened_run (hA : A.Correct tagLen) (hkdf : Hkdf) (h : Handshake) (r : Role) {l : List Op}
    (hl : Run.Guarded (Run.observe (step A) (event A)) InOrder (World.init hkdf (pair h), []) l) :
    Opened r.other.index r.index (run A hkdf (pair h) l) := by
  have hinit : Opened r.other.index r.index (World.init hkdf (pair h), []) := by
    refine ⟨fun _ ho => absurd ho List.not_mem_nil, List.Sublist.refl _, fun ch hch => ?_⟩
    rw [World.init, List.getElem?_map, pair_index] at hch
    obtain rfl := Option.some.inj hch
    exact (SecureChannel.new_other hkdf h r).2.2.2
  have hinv := hl.invariant (I := fun t : Traced => Built hkdf (pair h) t.1 ∧ Logged A hkdf (pair h) t ∧
      Counting r.other.index t ∧ Opened r.other.index r.index t) (fun t op ht hg => ?_)
    ⟨built_init hkdf (pair h), logged_run [], counting_run A _ _ [], hinit⟩
  · exact hinv.2.2.2
  · obtain ⟨hb, hlog, hc, ho⟩ := ht
    refine ⟨built_step t.1 op hb, logged_step t op hb hlog, counting_step t op hc, ?_⟩
    refine opened_step hA (pair_index h r.other) (pair_index h r) t op hb hlog hc (fun frame hop => ?_) ho
    subst hop
    exact hg r rfl

/-- Where each frame was sealed once, what was opened are the messages that were sealed. -/
theorem Opened.roundTrips {t : Traced} (ht : Opened i j t) (hc : Counting i t) : RoundTrips i j t.2 := by
  obtain ⟨delivered, hsub, hframes⟩ := List.sublist_map_iff.1 ht.inOrder
  refine ⟨delivered, hsub, ?_⟩
  have hinj (x y : Bytes × Bytes) (hx : x ∈ t.2.filterMap (sealedBy i))
      (hy : y ∈ t.2.filterMap (sealedBy i)) (heq : x.2 = y.2) : x = y := by
    have hnodup : ((t.2.filterMap (sealedBy i)).map Prod.snd).Nodup :=
      List.Nodup.of_map counterOf (hc.increasing.imp UInt64.ne_of_lt)
    exact List.inj_on_of_nodup_map hnodup hx hy heq
  have hresults := ht.results
  rw [openedFrames] at hframes
  -- entry by entry, the frames are those delivered and each has one plaintext
  generalize t.2.filterMap (openedBy j) = opened at hframes hresults
  induction delivered generalizing opened with
  | nil => simpa using hframes
  | cons x delivered ih =>
    cases opened with
    | nil => cases hframes
    | cons o opened =>
      obtain ⟨hframe, hrest⟩ := List.cons.inj hframes
      obtain ⟨plaintext, hok, hmem⟩ := hresults o List.mem_cons_self
      have hx := hinj _ _ hmem (hsub.subset List.mem_cons_self) hframe
      have hrestEq := ih ((List.sublist_cons_self x delivered).trans hsub) opened hrest
        fun o ho => hresults o (List.mem_cons_of_mem _ ho)
      rw [List.map_cons, ← hrestEq, ← hx, ← hok]

/-- At the last counter `seal` refuses and leaves the channel as it is. -/
theorem SecureChannel.seal_exhausted (A : Aead Key) {ch : SecureChannel} (hmax : ch.sendCounter = u64Max)
    (plaintext : Bytes) (log : Log) : ∃ e, (ch.seal A plaintext log).1 = .error e ∧
      (ch.seal A plaintext log).2.1 = ch ∧ (e = .counterExhausted ∨ e = .sealing ∧
        A.encrypt ch.sendKey (nonceFor ch.sendCounter) (aadFor ch.sessionID ch.sendDir) plaintext = none) := by
  have hexhausted : checkedAdd ch.sendCounter 1 = none :=
    checkedAdd_one_eq_none.2 (by rw [hmax]; rfl)
  unfold SecureChannel.seal
  dsimp only
  cases henc : A.encrypt ch.sendKey (nonceFor ch.sendCounter) (aadFor ch.sessionID ch.sendDir) plaintext with
  | none => exact ⟨.sealing, rfl, rfl, .inr ⟨rfl, rfl⟩⟩
  | some ct =>
    dsimp only
    rw [hexhausted]
    exact ⟨.counterExhausted, rfl, rfl, .inl rfl⟩

/-- The two ends of a handshake open everything they are handed in order. From any state the frames of a
channel have distinct counters, and at the last counter `seal` returns no frame and keeps the channel; its
error is that the counter is exhausted, or that the cipher refuses the plaintext. -/
theorem round_trip (A : Aead Key) (hA : A.Correct tagLen) (hkdf : Hkdf) :
    (∀ h l, Run.Guarded (Run.observe (step A) (event A)) InOrder (World.init hkdf (pair h), []) l →
      ∀ r : Role, RoundTrips r.other.index r.index (run A hkdf (pair h) l).2) ∧
    (∀ w l i, ((sealedFrames i (Run.exec (Run.observe (step A) (event A)) (w, []) l).2).map
      counterOf).Nodup) ∧
    ∀ (ch : SecureChannel) plaintext log, ch.sendCounter = u64Max → ∃ e,
      (ch.seal A plaintext log).1 = .error e ∧ (ch.seal A plaintext log).2.1 = ch ∧
        (e = .counterExhausted ∨ e = .sealing ∧
          A.encrypt ch.sendKey (nonceFor ch.sendCounter) (aadFor ch.sessionID ch.sendDir) plaintext =
            none) := by
  refine ⟨fun h l hl r => ?_, fun w l i => ?_, fun ch plaintext log hmax => ?_⟩
  · exact (opened_run hA hkdf h r hl).roundTrips (counting_run A _ _ l)
  · exact (counting_run A w i l).increasing.imp UInt64.ne_of_lt
  · exact ch.seal_exhausted A hmax plaintext log

/-- The controller seals twice and the agent once; the agent is handed the second frame only. -/
def interopExchange : List Op :=
  [.sealMsg 0 (ascii "hello"), .sealMsg 0 [7], .sealMsg 1 [8],
    .openFrame 1 (toBeBytes 1 ++ ([7] ++ List.replicate tagLen 0)),
    .openFrame 0 (toBeBytes 0 ++ ([8] ++ List.replicate tagLen 0))]

instance (t : Traced) (op : Op) : Decidable (InOrder t op) :=
  match op with
  | .sealMsg _ _ => .isTrue trivial
  | .openFrame j frame =>
    have hroles : InOrder t (.openFrame j frame) ↔
        (Role.controller.index = j →
          (openedFrames j t.2 ++ [frame]).Sublist (sealedFrames Role.agent.index t.2)) ∧
        (Role.agent.index = j →
          (openedFrames j t.2 ++ [frame]).Sublist (sealedFrames Role.controller.index t.2)) :=
      ⟨fun h => ⟨h .controller, h .agent⟩, fun h r => by
        cases r with
        | controller => exact h.1
        | agent => exact h.2⟩
    decidable_of_iff' _ hroles

theorem round_trip_interop :
    RoundTrips 0 1 (run interopCipher interopHkdf (pair interop) interopExchange).2 ∧
      RoundTrips 1 0 (run interopCipher interopHkdf (pair interop) interopExchange).2 := by
  have h := (round_trip interopCipher interopCipher_ideal.correct interopHkdf).1 interop interopExchange
    (by decide +kernel)
  exact ⟨h .agent, h .controller⟩

/-! ### A plaintext the cipher refuses -/

/-- The longest plaintext AES-GCM takes. -/
def pMax : ℕ := 2 ^ 36

def boundedEncrypt (_ : Key) (_ _ msg : Bytes) : Option Bytes :=
  if msg.length ≤ pMax then some (msg ++ List.replicate tagLen 0) else none

def boundedCipher : Aead Key := .ofEncrypt boundedEncrypt

theorem boundedCipher_ideal : boundedCipher.Ideal tagLen := by
  refine Aead.ofEncrypt_ideal ?_ ?_
  · intro k nonce aad m m' ct hm hm'
    unfold boundedEncrypt at hm hm'
    split_ifs at hm hm'
    exact List.append_cancel_right (Option.some.inj (hm.trans hm'.symm))
  · intro k nonce aad m ct hm
    unfold boundedEncrypt at hm
    split_ifs at hm
    rw [← Option.some.inj hm, List.length_append, List.length_replicate]

theorem boundedCipher_refuses {msg : Bytes} (h : pMax < msg.length) (k : Key) (nonce aad : Bytes) :
    boundedCipher.encrypt k nonce aad msg = none :=
  if_neg (Nat.not_le.2 h)

theorem seal_refused {msg : Bytes} (h : pMax < msg.length) (ch : SecureChannel) (log : Log) :
    (ch.seal boundedCipher msg log).1 = .error .sealing := by
  unfold SecureChannel.seal
  dsimp only
  rw [boundedCipher_refuses h]

/-- At the last counter, a plaintext that is too long is refused as such. -/
theorem too_long_at_exhaustion :
    boundedCipher.Correct tagLen ∧ (sealer (2 ^ 64 - 1)).sendCounter = u64Max ∧
      ((sealer (2 ^ 64 - 1)).seal boundedCipher (List.replicate (pMax + 1) 0) []).1 = .error .sealing := by
  have hlong : pMax < (List.replicate (pMax + 1) (0 : UInt8)).length := by
    rw [List.length_replicate]
    exact Nat.lt_succ_self _
  exact ⟨boundedCipher_ideal.correct, rfl, seal_refused hlong _ _⟩

end DeskSync.Agent
