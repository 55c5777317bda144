import DeskSync.Agent.World

/-!
# What a secure channel delivers

`delivers`: between two channels built from one handshake in opposite roles, when no other channel is
built from it, the receiver accepts a subsequence of what the sender encrypted, each frame at most once
and in counter order; a frame it refuses leaves it as it was, and every genuine frame above the last
accepted one still opens. What the sender encrypted is what it sealed, until its counter is exhausted:
`seal` encrypts before it refuses (`exhausted_delivery`).

`Sent` says where the encryptions under the sender's key come from, `Received` what the receiver has
accepted; `sent_step` and `received_step` keep them, from `step_cases`.
-/

namespace DeskSync.Agent

open Elements

/-- The plaintexts in the frames the channel `i` sealed. -/
def sealedTexts (i : ℕ) (evs : List Event) : List Bytes := (evs.filterMap (sealedBy i)).map Prod.fst

/-- The plaintexts the channel `i` encrypted. -/
def encryptedTexts (i : ℕ) (evs : List Event) : List Bytes :=
  (evs.filterMap (encryptedBy i)).map Prod.snd

def acceptedTexts (j : ℕ) (evs : List Event) : List Bytes :=
  (evs.filterMap (acceptedBy j)).map Prod.snd

def acceptedFrames (j : ℕ) (evs : List Event) : List Bytes :=
  (evs.filterMap (acceptedBy j)).map Prod.fst

/-- A call of `seal` on the channel `i` found the counter exhausted. -/
def Exhausted (i : ℕ) (evs : List Event) : Prop :=
  ∃ plaintext, Event.sealed i plaintext (.error .counterExhausted) ∈ evs

/-- The channel `j` receives from the channel `i`, which has sent the plaintexts `sent`. -/
structure Delivers (A : Aead Key) (t : Traced) (i j : ℕ) (sent : List Bytes) : Prop where
  /-- What is opened is a subsequence of what was sent. -/
  inOrder : (acceptedTexts j t.2).Sublist sent
  /-- No frame is accepted twice. -/
  once : (acceptedFrames j t.2).Nodup
  /-- The accepted counters strictly increase. -/
  increasing : ((acceptedFrames j t.2).map counterOf).Pairwise (· < ·)
  /-- The receiver remembers the last accepted counter. -/
  last : ∀ ch, t.1.chans[j]? = some ch → ch.recvLast = (acceptedFrames j t.2).getLast?.map counterOf
  /-- A refused byte string leaves the receiver as it was. -/
  refused : ∀ ch, t.1.chans[j]? = some ch → ∀ frame e, (ch.open A frame t.1.log).1 = .error e →
    (ch.open A frame t.1.log).2 = ch
  /-- Every genuine frame above the last accepted one still opens. -/
  genuine : ∀ ch, t.1.chans[j]? = some ch → ∀ plaintext frame,
    (plaintext, frame) ∈ t.2.filterMap (sealedBy i) →
      (∀ last ∈ ch.recvLast, last < counterOf frame) → (ch.open A frame t.1.log).1 = .ok plaintext

variable {A : Aead Key} {hkdf : Hkdf} {setup : List (Handshake × Role)}

/-! ### The sender -/

/-- The encryption of the plaintext `x.2` by the channel `s` under the counter `x.1`. -/
def entry (s : SecureChannel) (x : UInt64 × Bytes) : Sealing Key :=
  ⟨s.sendKey, nonceFor x.1, aadFor s.sessionID s.sendDir, x.2⟩

/-- What has been encrypted under the key of the channel `s`, at index `i`, was encrypted by it, under
counters that never fall. -/
structure Sent (A : Aead Key) (s : SecureChannel) (i : ℕ) (t : Traced) : Prop where
  logged : ∀ e ∈ t.1.log, e.key = s.sendKey → ∃ x ∈ t.2.filterMap (encryptedBy i), e = entry s x
  frames : ∀ x ∈ t.2.filterMap (sealedBy i), ∃ n ct, x.2 = toBeBytes n ++ ct ∧
    A.encrypt s.sendKey (nonceFor n) (aadFor s.sessionID s.sendDir) x.1 = some ct ∧
    entry s (n, x.1) ∈ t.1.log
  sorted : (t.2.filterMap (encryptedBy i)).Pairwise fun x y => x.1 ≤ y.1
  below : ∀ ch, t.1.chans[i]? = some ch → ∀ x ∈ t.2.filterMap (encryptedBy i), x.1 ≤ ch.sendCounter

section Pair
variable {i j : ℕ} {h : Handshake} {r : Role}

theorem sent_init (s : SecureChannel) (hkdf : Hkdf) (setup : List (Handshake × Role)) :
    Sent A s i (World.init hkdf setup, []) where
  logged := by rintro e ⟨⟩
  frames := by rintro x ⟨⟩
  sorted := List.Pairwise.nil
  below := by rintro ch - x ⟨⟩

/-- The event of a call of `seal` that encrypted. -/
theorem encryptedBy_sealed {k : ℕ} {n : UInt64} {plaintext ct : Bytes} {res : Except CryptoError Bytes}
    (hres : res = .ok (toBeBytes n ++ ct) ∨ n = u64Max ∧ res = .error .counterExhausted) (i : ℕ) :
    encryptedBy i (.sealed k plaintext res) = if k = i then some (n, plaintext) else none := by
  rcases hres with rfl | ⟨rfl, rfl⟩
  · simp only [encryptedBy, counterOf_append]
  · rfl

theorem sealedBy_sealed {k : ℕ} {n : UInt64} {plaintext ct : Bytes} {res : Except CryptoError Bytes}
    (hres : res = .ok (toBeBytes n ++ ct) ∨ n = u64Max ∧ res = .error .counterExhausted) {i : ℕ}
    {x : Bytes × Bytes} (hx : sealedBy i (.sealed k plaintext res) = some x) :
    k = i ∧ x = (plaintext, toBeBytes n ++ ct) := by
  rcases hres with rfl | ⟨-, rfl⟩
  · simp only [sealedBy, Option.ite_none_right_eq_some, Option.some.injEq] at hx
    exact ⟨hx.1, hx.2.symm⟩
  · cases hx

/-- The channel `i` is the only one that sends under its key. -/
def OnlySender (hkdf : Hkdf) (setup : List (Handshake × Role)) (s : SecureChannel) (i : ℕ) : Prop :=
  ∀ k h r, setup[k]? = some (h, r) → (SecureChannel.new hkdf h r).sendKey = s.sendKey → k = i

/-- A step in which the sender does not encrypt. -/
theorem Sent.quiet {s : SecureChannel} {w w' : World} {evs evs' : List Event}
    (ht : Sent A s i (w, evs)) (es : Log) (hlog : w'.log = w.log ++ es)
    (hkey : ∀ e ∈ es, e.key ≠ s.sendKey)
    (hcounter : ∀ ch', w'.chans[i]? = some ch' →
      ∃ ch, w.chans[i]? = some ch ∧ ch'.sendCounter = ch.sendCounter)
    (hencrypted : evs'.filterMap (encryptedBy i) = evs.filterMap (encryptedBy i))
    (hsealed : evs'.filterMap (sealedBy i) = evs.filterMap (sealedBy i)) : Sent A s i (w', evs') where
  logged := by
    intro e he hek
    dsimp only at he ⊢
    rw [hencrypted]
    rw [hlog] at he
    exact ht.logged e ((List.mem_append.1 he).resolve_right fun hnew => hkey e hnew hek) hek
  frames := by
    dsimp only
    rw [hsealed, hlog]
    intro x hx
    obtain ⟨n, ct, hframe, henc, hmem⟩ := ht.frames x hx
    exact ⟨n, ct, hframe, henc, List.mem_append_left _ hmem⟩
  sorted := by
    dsimp only
    rw [hencrypted]
    exact ht.sorted
  below := by
    dsimp only
    rw [hencrypted]
    intro ch' hch' x hx
    obtain ⟨ch, hch, heq⟩ := hcounter ch' hch'
    rw [heq]
    exact ht.below ch hch x hx

/-- The sender encrypts, under its current counter. -/
theorem Sent.encrypt {s ch : SecureChannel} {w : World} {evs : List Event} {plaintext ct : Bytes}
    {next : UInt64} {res : Except CryptoError Bytes} (ht : Sent A s i (w, evs))
    (hk : w.chans[i]? = some ch) (hfresh : ch.fresh = s) (hle : ch.sendCounter ≤ next)
    (henc : A.encrypt ch.sendKey (nonceFor ch.sendCounter) (aadFor ch.sessionID ch.sendDir) plaintext =
      some ct)
    (hres : res = .ok (toBeBytes ch.sendCounter ++ ct) ∨
      ch.sendCounter = u64Max ∧ res = .error .counterExhausted) :
    Sent A s i (⟨w.chans.set i { ch with sendCounter := next }, w.log ++ [ch.sealing plaintext]⟩,
      evs ++ [.sealed i plaintext res]) := by
  have hentry : ch.sealing plaintext = entry s (ch.sendCounter, plaintext) := by
    rw [← hfresh]
    rfl
  have hencrypted : (evs ++ [Event.sealed i plaintext res]).filterMap (encryptedBy i) =
      evs.filterMap (encryptedBy i) ++ [(ch.sendCounter, plaintext)] := by
    rw [List.filterMap_append, List.filterMap_cons_some (by rw [encryptedBy_sealed hres, if_pos rfl]),
      List.filterMap_nil]
  refine ⟨?_, ?_, ?_, ?_⟩
  · rw [hencrypted]
    intro e he hek
    rcases List.mem_append.1 he with he | he
    · obtain ⟨x, hx, rfl⟩ := ht.logged e he hek
      exact ⟨x, List.mem_append_left _ hx, rfl⟩
    · rw [List.mem_singleton.1 he]
      exact ⟨_, List.mem_append_right _ (List.mem_singleton_self _), hentry⟩
  · intro x hx
    rw [List.filterMap_append] at hx
    rcases List.mem_append.1 hx with hx | hx
    · obtain ⟨n, ct', hframe, henc', hmem⟩ := ht.frames x hx
      exact ⟨n, ct', hframe, henc', List.mem_append_left _ hmem⟩
    · obtain ⟨ev, hev, hx⟩ := List.mem_filterMap.1 hx
      rw [List.mem_singleton.1 hev] at hx
      obtain ⟨-, rfl⟩ := sealedBy_sealed hres hx
      refine ⟨ch.sendCounter, ct, rfl, ?_, List.mem_append_right _ ?_⟩
      · rw [← hfresh]
        exact henc
      · rw [hentry]
        exact List.mem_singleton_self _
  · rw [hencrypted]
    refine List.pairwise_append.2 ⟨ht.sorted, List.pairwise_singleton _ _, fun x hx y hy => ?_⟩
    rw [List.mem_singleton.1 hy]
    exact ht.below ch hk x hx
  · rw [hencrypted]
    intro ch' hch' x hx
    obtain ⟨-, rfl⟩ | ⟨hne, -⟩ := set_cases hch'
    · rcases List.mem_append.1 hx with hx | hx
      · exact UInt64.le_trans (ht.below ch hk x hx) hle
      · rw [List.mem_singleton.1 hx]
        exact hle
    · exact absurd rfl hne

theorem sent_step (hi : setup[i]? = some (h, r)) (honly : OnlySender hkdf setup (.new hkdf h r) i)
    (t : Traced) (op : Op) (hb : Built hkdf setup t.1) (ht : Sent A (.new hkdf h r) i t) :
    Sent A (.new hkdf h r) i (Run.observe (step A) (event A) t op) := by
  obtain ⟨w, evs⟩ := t
  rw [Run.observe]
  rcases step_cases A w op with ⟨hs, hnone⟩ |
    ⟨k, ch, plaintext, ct, next, res, hk, henc, hle, hs, hev, hres⟩ | ⟨k, ch, frame, pt, hk, -, -, hs, hev⟩
  · obtain ⟨hsealed, hencrypted, -⟩ := hnone i
    refine ht.quiet [] ?_ ?_ ?_ ?_ ?_
    · rw [hs, List.append_nil]
    · rintro e ⟨⟩
    · rw [hs]
      exact fun ch hch => ⟨ch, hch, rfl⟩
    · rw [filterMap_observed, hencrypted, Option.toList_none, List.append_nil]
    · rw [filterMap_observed, hsealed, Option.toList_none, List.append_nil]
  · dsimp only
    rw [hs, hev, Option.toList_some]
    by_cases hki : k = i
    · subst hki
      exact ht.encrypt hk (hb.get_of hk hi) hle henc hres
    · refine ht.quiet [ch.sealing plaintext] rfl ?_ ?_ ?_ ?_
      · intro e he hkey
        rw [List.mem_singleton.1 he] at hkey
        obtain ⟨h', r', hset, hfresh⟩ := hb.get hk
        refine hki (honly k h' r' hset ?_)
        rw [← hfresh, ← hkey]
        rfl
      · intro ch' hch'
        obtain ⟨rfl, -⟩ | ⟨-, hch'⟩ := set_cases hch'
        · exact absurd rfl hki
        · exact ⟨ch', hch', rfl⟩
      · rw [List.filterMap_append, List.filterMap_cons_none (by rw [encryptedBy_sealed hres, if_neg hki]),
          List.filterMap_nil, List.append_nil]
      · rw [List.filterMap_append, List.filterMap_cons_none, List.filterMap_nil, List.append_nil]
        exact Option.eq_none_iff_forall_not_mem.2 fun x hx => hki (sealedBy_sealed hres hx).1
  · refine ht.quiet [] ?_ ?_ ?_ ?_ ?_
    · rw [hs, List.append_nil]
    · rintro e ⟨⟩
    · rw [hs]
      intro ch' hch'
      obtain ⟨rfl, rfl⟩ | ⟨-, hch'⟩ := set_cases hch'
      · exact ⟨ch, hk, rfl⟩
      · exact ⟨ch', hch', rfl⟩
    · rw [filterMap_observed, hev]
      exact List.append_nil _
    · rw [filterMap_observed, hev]
      exact List.append_nil _

/-! ### The receiver -/

/-- What the channel at index `j` has accepted was encrypted by the channel at index `i`, and its
counters climbed to the one it remembers. -/
structure Received (i j : ℕ) (t : Traced) : Prop where
  encrypted : ∀ x ∈ t.2.filterMap (acceptedBy j),
    (counterOf x.1, x.2) ∈ t.2.filterMap (encryptedBy i)
  increasing : (t.2.filterMap (acceptedBy j)).Pairwise fun x y => counterOf x.1 < counterOf y.1
  last : ∀ ch, t.1.chans[j]? = some ch →
    ch.recvLast = (t.2.filterMap (acceptedBy j)).getLast?.map fun x => counterOf x.1
  below : ∀ ch, t.1.chans[j]? = some ch → ∀ x ∈ t.2.filterMap (acceptedBy j),
    ∃ last ∈ ch.recvLast, counterOf x.1 ≤ last

theorem received_init (hj : setup[j]? = some (h, r.other)) :
    Received i j (World.init hkdf setup, []) where
  encrypted := by rintro x ⟨⟩
  increasing := List.Pairwise.nil
  last := by
    intro ch hch
    rw [World.init, List.getElem?_map, hj] at hch
    obtain rfl := Option.some.inj hch
    cases r <;> rfl
  below := by rintro ch - x ⟨⟩

/-- A step in which the receiver accepts nothing. -/
theorem Received.quiet {w w' : World} {evs evs' : List Event} (ht : Received i j (w, evs))
    (hlast : ∀ ch', w'.chans[j]? = some ch' → ∃ ch, w.chans[j]? = some ch ∧ ch'.recvLast = ch.recvLast)
    (hencrypted : ∀ x ∈ evs.filterMap (encryptedBy i), x ∈ evs'.filterMap (encryptedBy i))
    (haccepted : evs'.filterMap (acceptedBy j) = evs.filterMap (acceptedBy j)) :
    Received i j (w', evs') := by
  refine ⟨?_, ?_, ?_, ?_⟩ <;> dsimp only <;> rw [haccepted]
  · exact fun x hx => hencrypted _ (ht.encrypted x hx)
  · exact ht.increasing
  · intro ch' hch'
    obtain ⟨ch, hch, heq⟩ := hlast ch' hch'
    rw [heq, ht.last ch hch]
  · intro ch' hch' x hx
    obtain ⟨ch, hch, heq⟩ := hlast ch' hch'
    rw [heq]
    exact ht.below ch hch x hx

/-- The receiver accepts a frame above the last one, whose plaintext was encrypted. -/
theorem Received.accept {w : World} {evs : List Event} {ch : SecureChannel} {frame pt : Bytes}
    (ht : Received i j (w, evs)) (hk : w.chans[j]? = some ch)
    (hlast : ∀ last ∈ ch.recvLast, last < counterOf frame)
    (hsent : (counterOf frame, pt) ∈ evs.filterMap (encryptedBy i)) :
    Received i j ({ w with chans := w.chans.set j { ch with recvLast := some (counterOf frame) } },
      evs ++ [.opened j frame (.ok pt)]) := by
  have haccepted : (evs ++ [Event.opened j frame (.ok pt)]).filterMap (acceptedBy j) =
      evs.filterMap (acceptedBy j) ++ [(frame, pt)] := by
    rw [List.filterMap_append, List.filterMap_cons_some (by rw [acceptedBy, if_pos rfl]),
      List.filterMap_nil]
  have hbelow (x) (hx : x ∈ evs.filterMap (acceptedBy j)) : counterOf x.1 < counterOf frame := by
    obtain ⟨last, hmem, hle⟩ := ht.below ch hk x hx
    exact UInt64.lt_of_le_of_lt hle (hlast last hmem)
  refine ⟨?_, ?_, ?_, ?_⟩ <;> dsimp only <;> rw [haccepted]
  · rw [List.filterMap_append]
    intro x hx
    refine List.mem_append_left _ ?_
    rcases List.mem_append.1 hx with hx | hx
    · exact ht.encrypted x hx
    · rwa [List.mem_singleton.1 hx]
  · refine List.pairwise_append.2 ⟨ht.increasing, List.pairwise_singleton _ _, fun x hx y hy => ?_⟩
    rw [List.mem_singleton.1 hy]
    exact hbelow x hx
  · intro ch' hch'
    obtain ⟨-, rfl⟩ | ⟨hne, -⟩ := set_cases hch'
    · rw [List.getLast?_concat]
      rfl
    · exact absurd rfl hne
  · intro ch' hch' x hx
    obtain ⟨-, rfl⟩ | ⟨hne, -⟩ := set_cases hch'
    · refine ⟨_, rfl, ?_⟩
      rcases List.mem_append.1 hx with hx | hx
      · exact UInt64.le_of_lt (hbelow x hx)
      · rw [List.mem_singleton.1 hx]
        exact UInt64.le_refl _
    · exact absurd rfl hne

theorem received_step (hA : A.Ideal tagLen) (hj : setup[j]? = some (h, r.other)) (t : Traced) (op : Op)
    (hb : Built hkdf setup t.1) (hsent : Sent A (.new hkdf h r) i t) (ht : Received i j t) :
    Received i j (Run.observe (step A) (event A) t op) := by
  obtain ⟨w, evs⟩ := t
  rw [Run.observe]
  have hmono (x) (hx : x ∈ evs.filterMap (encryptedBy i)) :
      x ∈ (evs ++ (event A w op).toList).filterMap (encryptedBy i) := by
    rw [List.filterMap_append]
    exact List.mem_append_left _ hx
  rcases step_cases A w op with ⟨hs, hnone⟩ |
    ⟨k, ch, plaintext, ct, next, res, hk, -, -, hs, hev, -⟩ | ⟨k, ch, frame, pt, hk, hlast, hdec, hs, hev⟩
  · refine ht.quiet ?_ hmono ?_
    · rw [hs]
      exact fun ch hch => ⟨ch, hch, rfl⟩
    · rw [filterMap_observed, (hnone j).2.2, Option.toList_none, List.append_nil]
  · refine ht.quiet ?_ hmono ?_
    · rw [hs]
      intro ch' hch'
      obtain ⟨rfl, rfl⟩ | ⟨-, hch'⟩ := set_cases hch'
      · exact ⟨ch, hk, rfl⟩
      · exact ⟨ch', hch', rfl⟩
    · rw [filterMap_observed, hev]
      exact List.append_nil _
  · by_cases hkj : k = j
    · subst hkj
      obtain ⟨hmem, -⟩ := hA.decrypt_eq_some.1 hdec
      obtain ⟨x, hx, hentry⟩ := hsent.logged _ hmem (hb.peer hk hj).1
      -- the nonce and the plaintext of the log entry are the sender's own
      obtain ⟨-, hnonce, -, hmsg⟩ := Sealing.mk.inj hentry
      dsimp only
      rw [hs, hev, Option.toList_some]
      refine ht.accept hk hlast ?_
      rw [nonceFor_injective hnonce, hmsg]
      exact hx
    · refine ht.quiet ?_ hmono ?_
      · rw [hs]
        intro ch' hch'
        obtain ⟨rfl, -⟩ | ⟨-, hch'⟩ := set_cases hch'
        · exact absurd rfl hkj
        · exact ⟨ch', hch', rfl⟩
      · rw [filterMap_observed, hev, Option.bind_some, acceptedBy, if_neg hkj]
        exact List.append_nil _

/-! ### Delivery -/

/-- Handshakes that HKDF separates have one channel sending under each key. -/
theorem onlySender (hsep : Separates hkdf (setup.map Prod.fst)) (hi : setup[i]? = some (h, r))
    (hj : setup[j]? = some (h, r.other))
    (honly : ∀ k r', setup[k]? = some (h, r') → k = i ∨ k = j) :
    OnlySender hkdf setup (.new hkdf h r) i := by
  intro k h' r' hk hkey
  have hmem {k : ℕ} {h : Handshake} {r : Role} (hk : setup[k]? = some (h, r)) :
      h ∈ setup.map Prod.fst :=
    List.mem_map_of_mem (List.mem_of_getElem? hk)
  obtain ⟨rfl, rfl⟩ := SecureChannel.new_sendKey_inj hsep (hmem hk) (hmem hi) hkey
  rcases honly k _ hk with rfl | rfl
  · rfl
  · -- the peer was built in the other role
    rw [hk] at hj
    exact absurd (Prod.mk.inj (Option.some.inj hj)).2 (by cases r' <;> decide)

theorem run_invariant (hA : A.Ideal tagLen) (hi : setup[i]? = some (h, r))
    (hj : setup[j]? = some (h, r.other)) (honly : OnlySender hkdf setup (.new hkdf h r) i) (l : List Op) :
    Built hkdf setup (run A hkdf setup l).1 ∧ Sent A (.new hkdf h r) i (run A hkdf setup l) ∧
      Received i j (run A hkdf setup l) := by
  refine Run.invariant (I := fun t : Traced => Built hkdf setup t.1 ∧ Sent A (.new hkdf h r) i t ∧
    Received i j t) ?_ ⟨built_init hkdf setup, sent_init _ hkdf setup, received_init hj⟩ l
  rintro t op ⟨hb, hs, hr⟩
  exact ⟨built_step t.1 op hb, sent_step hi honly t op hb hs, received_step hA hj t op hb hs hr⟩

/-- The invariants give delivery of what was encrypted. -/
theorem Received.delivery {t : Traced} (hA : A.Ideal tagLen) (hj : setup[j]? = some (h, r.other))
    (hb : Built hkdf setup t.1) (hs : Sent A (.new hkdf h r) i t) (hr : Received i j t) :
    Delivers A t i j (encryptedTexts i t.2) where
  inOrder := by
    have hsub := sublist_of_subset (fun x : UInt64 × Bytes => x.1.toNat)
      (List.pairwise_map (f := fun x : Bytes × Bytes => (counterOf x.1, x.2)).2
        (hr.increasing.imp UInt64.lt_iff_toNat_lt.1))
      (hs.sorted.imp UInt64.le_iff_toNat_le.1)
      (by
        intro y hy
        obtain ⟨x, hx, rfl⟩ := List.mem_map.1 hy
        exact hr.encrypted x hx)
    simpa only [acceptedTexts, encryptedTexts, List.map_map, Function.comp_def] using hsub.map Prod.snd
  once := by
    refine List.pairwise_map.2 (hr.increasing.imp fun {x y} hlt heq => ?_)
    rw [heq] at hlt
    exact UInt64.lt_irrefl _ hlt
  increasing := by
    rw [acceptedFrames, List.map_map]
    exact List.pairwise_map.2 hr.increasing
  last := by
    intro ch hch
    rw [hr.last ch hch, acceptedFrames, List.getLast?_map, Option.map_map]
    rfl
  refused := fun _ _ _ _ he => SecureChannel.open_error he
  genuine := by
    intro ch hch plaintext frame hmem hlast
    obtain ⟨n, ct, rfl, henc, hlog⟩ := hs.frames _ hmem
    obtain ⟨hkey, hdir, hsession⟩ := hb.peer hch hj
    refine SecureChannel.open_ok ?_ hlast ?_
    · rw [List.length_append, length_toBeBytes, hA.length_encrypt henc]
      omega
    · rw [counterOf_append, List.drop_left' (length_toBeBytes n), hkey, hdir, hsession]
      exact hA.decrypt_eq_some.2 ⟨hlog, henc⟩

/-- Until the counter is exhausted, what a channel encrypts it seals. -/
theorem encryptedTexts_eq_sealedTexts {evs : List Event} (hex : ¬ Exhausted i evs) :
    encryptedTexts i evs = sealedTexts i evs := by
  rw [encryptedTexts, sealedTexts, List.map_filterMap, List.map_filterMap]
  refine List.filterMap_congr fun ev hev => ?_
  cases ev with
  | opened k frame res => rfl
  | sealed k plaintext res =>
    cases res with
    | ok frame =>
      rw [encryptedBy, sealedBy]
      split_ifs <;> rfl
    | error e =>
      cases e with
      | counterExhausted =>
        by_cases hki : k = i
        · subst hki
          exact absurd ⟨plaintext, hev⟩ hex
        · show Option.map Prod.snd (if k = i then some (u64Max, plaintext) else none) = none
          rw [if_neg hki, Option.map_none]
      | _ => rfl

end Pair

/-- Two channels of one handshake, in opposite roles, and no other channel of it: whatever is sealed,
replayed, altered or made up on any of the channels, the receiver opens what the sender encrypted, in
order and once; what the sender sealed, as long as its counter is not exhausted. -/
theorem delivers (A : Aead Key) (hA : A.Ideal tagLen) (hkdf : Hkdf) (setup : List (Handshake × Role))
    (hsep : Separates hkdf (setup.map Prod.fst)) {i j : ℕ} {h : Handshake} {r : Role}
    (hi : setup[i]? = some (h, r)) (hj : setup[j]? = some (h, r.other))
    (honly : ∀ k r', setup[k]? = some (h, r') → k = i ∨ k = j) (l : List Op) :
    let t := run A hkdf setup l
    Delivers A t i j (encryptedTexts i t.2) ∧
      (¬ Exhausted i t.2 → Delivers A t i j (sealedTexts i t.2)) := by
  intro t
  obtain ⟨hb, hs, hr⟩ := run_invariant hA hi hj (onlySender hsep hi hj honly) l
  have hdel := hr.delivery hA hj hb hs
  refine ⟨hdel, fun hex => ?_⟩
  rw [← encryptedTexts_eq_sealedTexts hex]
  exact hdel

/-! ### The interop vector -/

/-- The handshake of the interop vector the agent shares with the mobile client. -/
def interop : Handshake where
  shared := .replicate keyLen 3
  sessionID := ascii "sess-vector"
  controllerPub := .replicate keyLen 1
  agentPub := .replicate keyLen 2

def interopSetup : List (Handshake × Role) := [(interop, .controller), (interop, .agent)]

def interopC2A : Key :=
  ⟨⟨[0xe9, 0x75, 0xbd, 0x79, 0x0b, 0x80, 0x75, 0x96, 0x73, 0xc9, 0x2d, 0x4e, 0x4d, 0xe5, 0x71,
    0x0b, 0xe3, 0x42, 0x70, 0x41, 0xcb, 0x81, 0x61, 0x34, 0x89, 0xa9, 0x9a, 0x27, 0x9f, 0x80,
    0x6e, 0xc8]⟩, rfl⟩

def interopA2C : Key :=
  ⟨⟨[0x18, 0xf1, 0x66, 0xf4, 0x0d, 0x28, 0xa1, 0xdd, 0x6c, 0xc0, 0x44, 0x80, 0x66, 0xd5, 0xd1,
    0x3a, 0xa5, 0xc9, 0x50, 0x43, 0x00, 0xfe, 0x07, 0xee, 0x6f, 0x55, 0x1b, 0x3f, 0x5f, 0x7e,
    0xa9, 0x6f]⟩, rfl⟩

/-- The ciphertext and tag of `hello` in the vector. -/
def interopCt : Bytes :=
  [0x13, 0x32, 0x23, 0x2a, 0x84, 0x9e, 0xe7, 0x05, 0x23, 0x33, 0x18, 0xf1, 0x0f, 0x25, 0xaa,
  0x7f, 0x7c, 0x39, 0xc0, 0x07, 0x26]

/-- HKDF-SHA256 on the inputs of the vector. -/
def interopHkdf : Hkdf := fun salt ikm info =>
  if salt = hkdfSalt ∧ ikm = interop.shared.toList ∧ info = interop.info infoC2A then interopC2A
  else if salt = hkdfSalt ∧ ikm = interop.shared.toList ∧ info = interop.info infoA2C then interopA2C
  else .replicate keyLen 0

/-- AES-256-GCM on the vector; any other message is followed by a zero tag. -/
def interopEncrypt (k : Key) (nonce aad msg : Bytes) : Option Bytes :=
  if k = interopC2A ∧ nonce = nonceFor 0 ∧ aad = aadFor interop.sessionID dirC2A ∧ msg = ascii "hello"
  then some interopCt
  else some (msg ++ List.replicate tagLen 0)

def interopCipher : Aead Key := .ofEncrypt interopEncrypt

theorem interopCt_ne (msg : Bytes) : interopCt ≠ msg ++ List.replicate tagLen 0 := by
  intro h
  have hlen := congrArg List.length h
  have htag := congrArg (List.drop 5) h
  simp only [List.length_append, List.length_replicate, interopCt, tagLen, List.length_cons,
    List.length_nil] at hlen
  rw [List.drop_left' (by omega)] at htag
  exact absurd htag (by decide)

theorem interopCipher_ideal : interopCipher.Ideal tagLen := by
  refine Aead.ofEncrypt_ideal ?_ ?_
  · intro k nonce aad m m' ct hm hm'
    unfold interopEncrypt at hm hm'
    split_ifs at hm hm' with h h' h'
    · rw [h.2.2.2, h'.2.2.2]
    · rw [← hm'] at hm
      exact absurd (Option.some.inj hm) (interopCt_ne m')
    · rw [← hm] at hm'
      exact absurd (Option.some.inj hm') (interopCt_ne m)
    · rw [← hm'] at hm
      exact List.append_cancel_right (Option.some.inj hm)
  · intro k nonce aad m ct hm
    unfold interopEncrypt at hm
    split_ifs at hm with h
    · rw [← Option.some.inj hm, h.2.2.2]
      rfl
    · rw [← Option.some.inj hm, List.length_append, List.length_replicate]

set_option maxRecDepth 8000 in
theorem interop_separates : Separates interopHkdf (interopSetup.map Prod.fst) := by
  have hc2a : interopHkdf hkdfSalt interop.shared.toList (interop.info infoC2A) = interopC2A := if_pos ⟨rfl, rfl, rfl⟩
  have ha2c : interopHkdf hkdfSalt interop.shared.toList (interop.info infoA2C) = interopA2C := by
    decide
  have hne : interopC2A ≠ interopA2C := by decide
  have hall (h) (hh : h ∈ interopSetup.map Prod.fst) : h = interop := by
    rcases List.mem_cons.1 hh with rfl | hh
    · rfl
    · exact List.mem_singleton.1 hh
  intro h hh h' hh' r r' heq
  rw [hall h hh, hall h' hh'] at heq ⊢
  cases r <;> cases r'
  · exact ⟨rfl, rfl⟩
  · exact absurd (hc2a.symm.trans (heq.trans ha2c)) hne
  · exact absurd (hc2a.symm.trans (heq.symm.trans ha2c)) hne
  · exact ⟨rfl, rfl⟩

theorem interop_only (k : ℕ) (r : Role) (h : interopSetup[k]? = some (interop, r)) : k = 0 ∨ k = 1 := by
  have hlt := (List.getElem?_eq_some_iff.1 h).1
  simp only [interopSetup, List.length_cons, List.length_nil] at hlt
  omega

/-- The controller seals `hello`; the agent is handed the frame twice. -/
def interopRun : List Op :=
  [.sealMsg 0 (ascii "hello"), .openFrame 1 (toBeBytes 0 ++ interopCt),
    .openFrame 1 (toBeBytes 0 ++ interopCt)]

set_option maxRecDepth 8000 in
theorem delivers_interop :
    let t := run interopCipher interopHkdf interopSetup interopRun
    acceptedTexts 1 t.2 = [ascii "hello"] ∧ Delivers interopCipher t 0 1 (encryptedTexts 0 t.2) :=
  ⟨by decide, (delivers interopCipher interopCipher_ideal interopHkdf interopSetup interop_separates
    (r := .controller) rfl rfl interop_only interopRun).1⟩

/-! ### The exhausted counter -/

theorem interopEncrypt_ne {msg : Bytes} (h : msg ≠ ascii "hello") (k : Key) (nonce aad : Bytes) :
    interopCipher.encrypt k nonce aad msg = some (msg ++ List.replicate tagLen 0) :=
  if_neg fun heq => h heq.2.2.2

/-- The controller seals the empty plaintext `n` times. -/
def sealEmpty (n : ℕ) : List Op := List.replicate n (.sealMsg 0 [])

/-- The controller after `n` seals. -/
def sealer (n : ℕ) : SecureChannel :=
  { SecureChannel.new interopHkdf interop .controller with sendCounter := UInt64.ofNat n }

def opener : SecureChannel := .new interopHkdf interop .agent

theorem sealer_seal_empty {n : ℕ} (hn : n < 2 ^ 64 - 1) (log : Log) :
    (sealer n).seal interopCipher [] log =
      (.ok (toBeBytes (UInt64.ofNat n) ++ List.replicate tagLen 0), sealer (n + 1),
        log ++ [(sealer n).sealing []]) := by
  have hnext : checkedAdd (sealer n).sendCounter 1 = some (UInt64.ofNat (n + 1)) := by
    rw [checkedAdd, if_pos, UInt64.ofNat_add]
    · rfl
    · rw [sealer, UInt64.toNat_ofNat', UInt64.toNat_one]
      omega
  unfold SecureChannel.seal
  dsimp only
  rw [interopEncrypt_ne (by decide)]
  dsimp only
  rw [hnext]
  rfl

/-- The last counter: `seal` encrypts, and returns no frame. -/
theorem sealer_seal_exhausted (log : Log) :
    (sealer (2 ^ 64 - 1)).seal interopCipher [7] log =
      (.error .counterExhausted, sealer (2 ^ 64 - 1), log ++ [(sealer (2 ^ 64 - 1)).sealing [7]]) := by
  have hnext : checkedAdd (sealer (2 ^ 64 - 1)).sendCounter 1 = none :=
    checkedAdd_one_eq_none.2 (by rw [sealer, UInt64.toNat_ofNat']; rfl)
  unfold SecureChannel.seal
  dsimp only
  rw [interopEncrypt_ne (by decide)]
  dsimp only
  rw [hnext]
  rfl

/-- The bytes of the frame that was not returned open. -/
theorem opener_open_exhausted (log : Log) :
    (opener.open interopCipher (toBeBytes u64Max ++ ([7] ++ List.replicate tagLen 0))
      (log ++ [(sealer (2 ^ 64 - 1)).sealing [7]])).1 = .ok [7] := by
  refine SecureChannel.open_ok ?_ ?_ ?_
  · rw [List.length_append, List.length_append, length_toBeBytes, List.length_replicate]
    exact Nat.add_le_add_left (Nat.le_add_left _ _) _
  · rintro last ⟨⟩
  · rw [counterOf_append, List.drop_left' (length_toBeBytes u64Max)]
    refine interopCipher_ideal.decrypt_eq_some.2 ⟨?_, interopEncrypt_ne (by decide) _ _ _⟩
    exact List.mem_append_right _ (List.mem_singleton_self _)

/-- Up to the last counter, every seal returns a frame with the empty plaintext. -/
theorem run_sealEmpty (n : ℕ) (hn : n ≤ 2 ^ 64 - 1) :
    ∃ log evs, run interopCipher interopHkdf interopSetup (sealEmpty n) =
        (⟨[sealer n, opener], log⟩, evs) ∧
      acceptedTexts 1 evs = [] ∧ ∀ text ∈ sealedTexts 0 evs, text = [] := by
  induction n with
  | zero => exact ⟨[], [], rfl, rfl, by rintro text ⟨⟩⟩
  | succ n ih =>
    obtain ⟨log, evs, hrun, haccepted, hsealed⟩ := ih (Nat.le_of_succ_le hn)
    refine ⟨log ++ [(sealer n).sealing []], evs ++ [.sealed 0 []
      (.ok (toBeBytes (UInt64.ofNat n) ++ List.replicate tagLen 0))], ?_, ?_, ?_⟩
    · rw [sealEmpty, List.replicate_succ', run, Run.exec_append]
      rw [run, sealEmpty] at hrun
      rw [hrun]
      simp only [List.foldl_cons, List.foldl_nil, Run.observe, step, event, List.getElem?_cons_zero,
        sealer_seal_empty (Nat.lt_of_succ_le hn), List.set_cons_zero, Option.map_some,
        Option.toList_some]
    · rw [acceptedTexts, List.filterMap_append, List.map_append]
      exact (List.append_nil _).trans haccepted
    · intro text htext
      rw [sealedTexts, List.filterMap_append, List.map_append] at htext
      rcases List.mem_append.1 htext with htext | htext
      · exact hsealed text htext
      · exact List.mem_singleton.1 htext

/-- After the last frame, `seal` encrypts one more plaintext and refuses to return it; the agent is
handed those very bytes. -/
def exhaustedRun : List Op :=
  sealEmpty (2 ^ 64 - 1) ++
    [.sealMsg 0 [7], .openFrame 1 (toBeBytes u64Max ++ ([7] ++ List.replicate tagLen 0))]

/-- What is opened need not have been sealed: at the end of its counter space a channel encrypts a
plaintext whose frame it does not return. -/
theorem exhausted_delivery :
    interopCipher.Ideal tagLen ∧ Separates interopHkdf (interopSetup.map Prod.fst) ∧
      let t := run interopCipher interopHkdf interopSetup exhaustedRun
      ¬ Delivers interopCipher t 0 1 (sealedTexts 0 t.2) := by
  refine ⟨interopCipher_ideal, interop_separates, fun h => ?_⟩
  obtain ⟨log, evs, hrun, haccepted, hsealed⟩ := run_sealEmpty (2 ^ 64 - 1) le_rfl
  have hend : run interopCipher interopHkdf interopSetup exhaustedRun =
      (step interopCipher ⟨[sealer (2 ^ 64 - 1), opener], log ++ [(sealer (2 ^ 64 - 1)).sealing [7]]⟩
          (.openFrame 1 (toBeBytes u64Max ++ ([7] ++ List.replicate tagLen 0))),
        evs ++ [.sealed 0 [7] (.error .counterExhausted)] ++
          [.opened 1 (toBeBytes u64Max ++ ([7] ++ List.replicate tagLen 0)) (.ok [7])]) := by
    rw [exhaustedRun, run, Run.exec_append]
    rw [run] at hrun
    rw [hrun]
    simp only [List.foldl_cons, List.foldl_nil, Run.observe, step, event, List.getElem?_cons_zero,
      List.getElem?_cons_succ, sealer_seal_exhausted, opener_open_exhausted, List.set_cons_zero,
      Option.map_some, Option.toList_some]
  have hsub := h.inOrder
  rw [hend] at hsub
  have hmem : [7] ∈ sealedTexts 0 (evs ++ [.sealed 0 [7] (.error .counterExhausted)] ++
      [.opened 1 (toBeBytes u64Max ++ ([7] ++ List.replicate tagLen 0)) (.ok [7])]) := by
    refine hsub.subset ?_
    rw [acceptedTexts, List.filterMap_append, List.map_append]
    exact List.mem_append_right _ (List.mem_singleton_self _)
  simp only [sealedTexts, List.filterMap_append, List.map_append, List.mem_append] at hmem
  rcases hmem with (hmem | hmem) | hmem
  · exact absurd (hsealed [7] hmem) (by decide)
  · cases hmem
  · cases hmem

end DeskSync.Agent
