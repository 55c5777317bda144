import DeskSync.Mobile.Channel

/-!
# Nonces of the mobile channel

`seal` reads the send counter before its `await` and increments it after. Two overlapping calls read the
same counter and encrypt two plaintexts under one key and nonce (`overlapping_seals`).

`sealsAlone` rules this out: a call that encrypts starts while no other `seal` is suspended, and before
the 64-bit counter has gone round. It is exact: a run uses every nonce at most once if and only if it
keeps to it (`nonceUnique_iff_sealsAlone`). Under it the nonces used are those of `0, 1, 2, …` in order
(`Numbered`).
-/

namespace DeskSync.Mobile

open Elements Proc

/-! ### Counters that are used once -/

/-- The request and the counter of the encryption a step makes. -/
def encryption (G : AesGcm) (ch : SecureChannel) (w : World) : Step → Option (ℕ × Int64)
  | .advance i _ =>
    match w.threads[i]? with
    | some ⟨.sealMsg plaintext, .call .sendCounter _⟩ =>
      (ch.encrypt G w.store.sendCounter plaintext).map fun _ => (i, w.store.sendCounter)
    | _ => none
  | _ => none

/-- The channel and the encryptions made so far under its send key. -/
abbrev Traced := World × List (ℕ × Int64)

def tracedStep (G : AesGcm) (ch : SecureChannel) : Traced → Step → Traced :=
  Run.observe (system G ch).step (encryption G ch)

/-- No nonce is used twice, and the frames returned carry distinct counters. -/
structure NonceUnique (t : Traced) : Prop where
  nonces : (t.2.map fun e => nonceFor e.2).Nodup
  frames : ∀ (i j : ℕ) (plaintext plaintext' frame frame' : Bytes),
    t.1.threads[i]? = some ⟨.sealMsg plaintext, .ret (.ok frame)⟩ →
    t.1.threads[j]? = some ⟨.sealMsg plaintext', .ret (.ok frame')⟩ →
    i ≠ j → readCounter frame ≠ readCounter frame'

/-! ### The condition -/

/-- The call is a `seal` suspended in `encrypt`. -/
def isSealing : Thread Request Reply Response → Bool
  | ⟨.sealMsg _, .call .incSendCounter _⟩ => true
  | _ => false

/-- The call is a `seal` that has returned a frame. -/
def isSealed : Thread Request Reply Response → Bool
  | ⟨.sealMsg _, .ret (.ok _)⟩ => true
  | _ => false

def sealingCount (w : World) : ℕ := w.threads.countP isSealing

def sealedCount (w : World) : ℕ := w.threads.countP isSealed

/-- A `seal` that gets to encrypt starts while no other is suspended, and after fewer than `2 ^ 64` have
returned a frame. -/
def sealsAlone (G : AesGcm) (ch : SecureChannel) (w : World) : Step → Bool
  | .advance i _ =>
    match w.threads[i]? with
    | some ⟨.sealMsg plaintext, .call .sendCounter _⟩ =>
      (ch.encrypt G w.store.sendCounter plaintext).isNone ||
        sealingCount w == 0 && sealedCount w < 2 ^ 64
    | _ => true
  | _ => true

/-! ### Counting -/

variable {G : AesGcm} {ch : SecureChannel} {w : World} {h : List (ℕ × Int64)}

/-- An encryption is the first block of a `seal`. -/
theorem encryption_some (hw : w.All (At G ch)) {l : Step} {e : ℕ × Int64}
    (h : encryption G ch w l = some e) : ∃ i plaintext box, l = .advance i () ∧
      w.threads[i]? = some ⟨.sealMsg plaintext, ch.seal G plaintext⟩ ∧
      ch.encrypt G w.store.sendCounter plaintext = some box ∧ e = (i, w.store.sendCounter) ∧
      (system G ch).step w l =
        { w with threads := w.threads.set i ⟨.sealMsg plaintext, sealing w.store.sendCounter box⟩ } := by
  cases l with
  | spawn q e => cases h
  | env v => exact v.elim
  | advance i e =>
    cases hi : w.threads[i]? with
    | none =>
      simp only [encryption, hi] at h
      cases h
    | some t =>
      obtain ⟨q, p⟩ := t
      simp only [encryption, hi] at h
      cases hw i q p hi with
      | sealStart plaintext =>
        obtain ⟨box, hbox, rfl⟩ := Option.map_eq_some_iff.1 h
        refine ⟨i, plaintext, box, rfl, hi, hbox, rfl, ?_⟩
        refine ((system G ch).step_advance (c := .sendCounter) hi e).trans ?_
        dsimp only [system, exec, Prog.ret_bind, Prog.bind]
        rw [hbox]
        rfl
      | failed => cases q <;> cases h
      | _ => cases h

/-- The guard speaks about the steps that encrypt. -/
theorem sealsAlone_iff {l : Step} : sealsAlone G ch w l = true ↔
    ∀ e, encryption G ch w l = some e → sealingCount w = 0 ∧ sealedCount w < 2 ^ 64 := by
  cases l with
  | spawn q e => exact iff_of_true rfl nofun
  | env v => exact v.elim
  | advance i e =>
    simp only [sealsAlone, encryption]
    cases hi : w.threads[i]? with
    | none => exact iff_of_true rfl nofun
    | some t =>
      obtain ⟨q, p⟩ := t
      cases q with
      | openFrame frame => exact iff_of_true rfl nofun
      | sealMsg plaintext =>
        cases p with
        | ret r => exact iff_of_true rfl nofun
        | call c k =>
          cases c with
          | sendCounter =>
            cases henc : ch.encrypt G w.store.sendCounter plaintext <;> simp [henc]
          | _ => exact iff_of_true rfl nofun

/-- The invariant of the runs in which seals are alone: the nonces used are those of `0, 1, 2, …`, the
last of them by the suspended seal if there is one. -/
structure Numbered (G : AesGcm) (ch : SecureChannel) (t : Traced) : Prop where
  points : t.1.All (At G ch)
  counter : t.1.store.sendCounter = Int64.ofNat (sealedCount t.1)
  used : t.2.map Prod.snd = (List.range (sealedCount t.1 + sealingCount t.1)).map Int64.ofNat
  alone : sealingCount t.1 ≤ 1
  bound : sealedCount t.1 + sealingCount t.1 ≤ 2 ^ 64
  own : ∀ i plaintext counter box,
    t.1.threads[i]? = some ⟨.sealMsg plaintext, sealing counter box⟩ ∨
      t.1.threads[i]? = some ⟨.sealMsg plaintext, .ret (.ok (frameOf counter box))⟩ →
    (i, counter) ∈ t.2

theorem ofNat_inj {n m : ℕ} (hn : n < 2 ^ 64) (hm : m < 2 ^ 64) (heq : Int64.ofNat n = Int64.ofNat m) :
    n = m := by
  have hu : UInt64.ofNat n = UInt64.ofNat m := congrArg Int64.toUInt64 heq
  rw [← UInt64.toNat_ofNat_of_lt' hn, hu, UInt64.toNat_ofNat_of_lt' hm]

theorem Numbered.nonceUnique {t : Traced} (ht : Numbered G ch t) : NonceUnique t := by
  have hnodup : (t.2.map fun e => nonceFor e.2).Nodup := by
    rw [show (fun e : ℕ × Int64 => nonceFor e.2) = nonceFor ∘ Prod.snd from rfl, ← List.map_map, ht.used]
    refine List.Nodup.map nonceFor_injective (List.Nodup.map_on ?_ List.nodup_range)
    intro n hn m hm heq
    have hb := ht.bound
    rw [List.mem_range] at hn hm
    exact ofNat_inj (by omega) (by omega) heq
  refine ⟨hnodup, fun i j plaintext plaintext' frame frame' hi hj hij heq => hij ?_⟩
  -- a returned frame carries the counter its call encrypted under
  have hown {i plaintext frame} (hi : t.1.threads[i]? = some ⟨.sealMsg plaintext, .ret (.ok frame)⟩) :
      (i, readCounter frame) ∈ t.2 := by
    cases ht.points i _ _ hi with
    | sealed _ counter box =>
      rw [frameOf, List.append_assoc, readCounter_append]
      exact ht.own i plaintext counter box (.inr hi)
  have hi' := hown hi
  rw [heq] at hi'
  exact (Prod.mk.inj (List.inj_on_of_nodup_map hnodup hi' (hown hj) rfl)).1

/-- A step that encrypts nothing and finishes no `seal`. -/
theorem Numbered.quiet {w' : World} (ht : Numbered G ch (w, h)) (hat : w'.All (At G ch))
    (hcounter : w'.store.sendCounter = w.store.sendCounter)
    (hsealing : sealingCount w' = sealingCount w) (hsealed : sealedCount w' = sealedCount w)
    (hback : ∀ (i : ℕ) t, w'.threads[i]? = some t → isSealing t = true ∨ isSealed t = true →
      w.threads[i]? = some t) : Numbered G ch (w', h) where
  points := hat
  counter := by
    dsimp only
    rw [hcounter, hsealed]
    exact ht.counter
  used := by
    dsimp only
    rw [hsealing, hsealed]
    exact ht.used
  alone := hsealing ▸ ht.alone
  bound := by
    dsimp only
    rw [hsealing, hsealed]
    exact ht.bound
  own := by
    rintro i plaintext counter box (hi | hi)
    · exact ht.own i plaintext counter box (.inl (hback i _ hi (.inl rfl)))
    · exact ht.own i plaintext counter box (.inr (hback i _ hi (.inr rfl)))

/-- A block of a call that is no `seal`, or a `seal` that fails to encrypt. -/
theorem Numbered.quiet_set {i : ℕ} {t t' : Thread Request Reply Response} {s' : Counters}
    (ht : Numbered G ch (w, h)) (hat : (⟨s', w.threads.set i t'⟩ : World).All (At G ch))
    (hi : w.threads[i]? = some t) (hcounter : s'.sendCounter = w.store.sendCounter)
    (hold : isSealing t = false ∧ isSealed t = false)
    (hnew : isSealing t' = false ∧ isSealed t' = false) :
    Numbered G ch (⟨s', w.threads.set i t'⟩, h) := by
  refine ht.quiet hat hcounter ?_ ?_ fun j t'' hj hflag => ?_
  · have hcount := countP_set (p := isSealing) (b := t') hi
    rw [hold.1, hnew.1] at hcount
    exact Nat.add_right_cancel hcount
  · have hcount := countP_set (p := isSealed) (b := t') hi
    rw [hold.2, hnew.2] at hcount
    exact Nat.add_right_cancel hcount
  · rcases set_cases hj with ⟨-, rfl⟩ | ⟨-, hj⟩
    · rw [hnew.1, hnew.2] at hflag
      rcases hflag with hflag | hflag <;> cases hflag
    · exact hj

theorem start_quiet (G : AesGcm) (ch : SecureChannel) (q : Request) : isSealing ⟨q, (system G ch).start q ()⟩ = false ∧
    isSealed ⟨q, (system G ch).start q ()⟩ = false := by
  cases q <;> exact ⟨rfl, rfl⟩

theorem Numbered.spawn (ht : Numbered G ch (w, h)) (q : Request)
    (hat : ({ w with threads := w.threads ++ [⟨q, (system G ch).start q ()⟩] } : World).All (At G ch)) :
    Numbered G ch ({ w with threads := w.threads ++ [⟨q, (system G ch).start q ()⟩] }, h) := by
  obtain ⟨hsealing, hsealed⟩ := start_quiet G ch q
  refine ht.quiet hat rfl ?_ ?_ fun j t hj hflag => ?_
  · rw [sealingCount, List.countP_append, List.countP_singleton, hsealing]
    rfl
  · rw [sealedCount, List.countP_append, List.countP_singleton, hsealed]
    rfl
  · rcases lt_or_ge j w.threads.length with hlt | hge
    · rwa [List.getElem?_append_left hlt] at hj
    · rw [List.getElem?_append_right hge] at hj
      rw [List.mem_singleton.1 (List.mem_of_getElem? hj), hsealing, hsealed] at hflag
      rcases hflag with hflag | hflag <;> cases hflag

theorem frameOf_counter {counter counter' : Int64} {box box' : SecretBox}
    (heq : frameOf counter box = frameOf counter' box') : counter = counter' := by
  rw [← readCounter_append counter (box.cipherText ++ box.mac), ← List.append_assoc]
  rw [frameOf, frameOf] at heq
  rw [heq, List.append_assoc, readCounter_append]

theorem sealing_counter {counter counter' : Int64} {box box' : SecretBox}
    (heq : sealing counter box = sealing counter' box') : counter = counter' := by
  have hframe := congrFun (eq_of_heq (Prog.call.inj heq).2) ()
  exact frameOf_counter (Except.ok.inj (Prog.ret.inj hframe))

/-- A `seal` starts to encrypt, alone. -/
theorem Numbered.encrypt {i : ℕ} {plaintext : Bytes} {box : SecretBox} (ht : Numbered G ch (w, h))
    (hi : w.threads[i]? = some ⟨.sealMsg plaintext, ch.seal G plaintext⟩)
    (halone : sealingCount w = 0) (hbound : sealedCount w < 2 ^ 64)
    (hat : (⟨w.store, w.threads.set i ⟨.sealMsg plaintext, sealing w.store.sendCounter box⟩⟩ : World).All
      (At G ch)) :
    Numbered G ch (⟨w.store, w.threads.set i ⟨.sealMsg plaintext, sealing w.store.sendCounter box⟩⟩,
      h ++ [(i, w.store.sendCounter)]) := by
  have hcounter := ht.counter
  have hused := ht.used
  dsimp only at hcounter hused
  set w' : World := ⟨w.store, w.threads.set i ⟨.sealMsg plaintext, sealing w.store.sendCounter box⟩⟩
  have hsealing : sealingCount w' = 1 := by
    have hcount := countP_set (p := isSealing)
      (b := ⟨.sealMsg plaintext, sealing w.store.sendCounter box⟩) hi
    exact (hcount.trans (congrArg (· + 1) halone))
  have hsealed : sealedCount w' = sealedCount w := by
    have hcount := countP_set (p := isSealed) (b := ⟨.sealMsg plaintext, sealing w.store.sendCounter box⟩) hi
    exact hcount
  refine ⟨hat, ?_, ?_, ?_, ?_, ?_⟩
  · dsimp only
    rw [hsealed]
    exact hcounter
  · dsimp only
    rw [hsealed, hsealing, List.map_append, hused, halone, List.range_succ, List.map_append,
      List.map_singleton, List.map_singleton, hcounter]
    rfl
  · exact hsealing.le
  · dsimp only
    rw [hsealed, hsealing]
    exact hbound
  · intro j plaintext' counter box' hj
    by_cases hij : i = j
    · subst hij
      simp only [w', List.getElem?_set_self (List.getElem?_eq_some_iff.1 hi).1] at hj
      rcases hj with hj | hj
      · obtain ⟨-, heq⟩ := Thread.mk.inj (Option.some.inj hj)
        rw [← sealing_counter heq]
        exact List.mem_append_right _ (List.mem_singleton_self _)
      · cases (Thread.mk.inj (Option.some.inj hj)).2
    · simp only [w', List.getElem?_set_ne hij] at hj
      exact List.mem_append_left _ (ht.own j plaintext' counter box' hj)

/-- A suspended `seal` increments the counter and returns its frame. -/
theorem Numbered.finish {i : ℕ} {plaintext : Bytes} {counter : Int64} {box : SecretBox}
    (ht : Numbered G ch (w, h))
    (hi : w.threads[i]? = some ⟨.sealMsg plaintext, sealing counter box⟩)
    (hat : (⟨{ w.store with sendCounter := w.store.sendCounter + 1 },
      w.threads.set i ⟨.sealMsg plaintext, .ret (.ok (frameOf counter box))⟩⟩ : World).All (At G ch)) :
    Numbered G ch (⟨{ w.store with sendCounter := w.store.sendCounter + 1 },
      w.threads.set i ⟨.sealMsg plaintext, .ret (.ok (frameOf counter box))⟩⟩, h) := by
  have hcounter := ht.counter
  have hused := ht.used
  have halone := ht.alone
  have hbound := ht.bound
  dsimp only at hcounter hused halone hbound
  set w' : World := ⟨{ w.store with sendCounter := w.store.sendCounter + 1 },
    w.threads.set i ⟨.sealMsg plaintext, .ret (.ok (frameOf counter box))⟩⟩
  have hsealing : sealingCount w' + 1 = sealingCount w := by
    have hcount := countP_set (p := isSealing) (b := ⟨.sealMsg plaintext, .ret (.ok (frameOf counter box))⟩) hi
    exact hcount
  have hsealed : sealedCount w' = sealedCount w + 1 := by
    have hcount := countP_set (p := isSealed) (b := ⟨.sealMsg plaintext, .ret (.ok (frameOf counter box))⟩) hi
    exact hcount
  have hsum : sealedCount w' + sealingCount w' = sealedCount w + sealingCount w := by omega
  refine ⟨hat, ?_, ?_, ?_, ?_, ?_⟩
  · dsimp only
    rw [hsealed, Int64.ofNat_add, ← hcounter]
    rfl
  · dsimp only
    rw [hsum]
    exact hused
  · dsimp only
    omega
  · dsimp only
    rw [hsum]
    exact hbound
  · intro j plaintext' counter' box' hj
    by_cases hij : i = j
    · subst hij
      simp only [w', List.getElem?_set_self (List.getElem?_eq_some_iff.1 hi).1] at hj
      rcases hj with hj | hj
      · cases (Thread.mk.inj (Option.some.inj hj)).2
      · have heq := (Thread.mk.inj (Option.some.inj hj)).2
        rw [← frameOf_counter (Except.ok.inj (Prog.ret.inj heq))]
        exact ht.own i plaintext counter box (.inl hi)
    · simp only [w', List.getElem?_set_ne hij] at hj
      exact ht.own j plaintext' counter' box' hj

/-! ### Steps and runs -/

theorem numbered_step (t : Traced) (l : Step) (ht : Numbered G ch t) (hg : sealsAlone G ch t.1 l = true) :
    Numbered G ch (tracedStep G ch t l) := by
  obtain ⟨w, h⟩ := t
  have hat := at_step ht.points l
  cases henc : encryption G ch w l with
  | some e =>
    obtain ⟨i, plaintext, box, rfl, hi, hbox, rfl, hs⟩ := encryption_some ht.points henc
    obtain ⟨halone, hbound⟩ := sealsAlone_iff.1 hg _ henc
    rw [tracedStep, Run.observe, henc]
    dsimp only at hat ⊢
    rw [hs] at hat ⊢
    exact ht.encrypt hi halone hbound hat
  | none =>
    rw [tracedStep, Run.observe, henc, Option.toList_none, List.append_nil]
    dsimp only at hat ⊢
    rcases step_cases ht.points l with hs | ⟨q, hs⟩ | ⟨i, t, s', t', rfl, hi, hmove, hs⟩
    · rw [hs]
      exact ht
    · rw [hs] at hat ⊢
      exact ht.spawn q hat
    · rw [hs] at hat ⊢
      cases hmove with
      | encrypts plaintext box hbox =>
        simp only [encryption, hi] at henc
        change (ch.encrypt G w.store.sendCounter plaintext).map _ = none at henc
        rw [hbox] at henc
        cases henc
      | seals plaintext counter box => exact ht.finish hi hat
      | refuses plaintext => exact ht.quiet_set hat hi rfl ⟨rfl, rfl⟩ ⟨rfl, rfl⟩
      | decrypts frame clear => exact ht.quiet_set hat hi rfl ⟨rfl, rfl⟩ ⟨rfl, rfl⟩
      | rejects frame e => exact ht.quiet_set hat hi rfl ⟨rfl, rfl⟩ ⟨rfl, rfl⟩
      | opens frame clear => exact ht.quiet_set hat hi rfl ⟨rfl, rfl⟩ ⟨rfl, rfl⟩

/-- A step after which every nonce is still used once was taken with the seals alone. -/
theorem sealsAlone_of_nonceUnique (t : Traced) (l : Step) (ht : Numbered G ch t)
    (hu : NonceUnique (tracedStep G ch t l)) : sealsAlone G ch t.1 l = true := by
  obtain ⟨w, h⟩ := t
  refine sealsAlone_iff.2 fun e henc => ?_
  obtain ⟨i, plaintext, box, rfl, -, -, rfl, -⟩ := encryption_some ht.points henc
  have hnodup := hu.nonces
  have hused := ht.used
  have halone := ht.alone
  have hbound := ht.bound
  dsimp only at hused halone hbound ⊢
  rw [tracedStep, Run.observe, henc] at hnodup
  -- the nonce of the counter `n` has not been used before
  have hnew (n : ℕ) (hn : n < sealedCount w + sealingCount w) :
      Int64.ofNat n ≠ w.store.sendCounter := by
    intro heq
    have hmem : Int64.ofNat n ∈ h.map Prod.snd := by
      rw [hused]
      exact List.mem_map_of_mem (List.mem_range.2 hn)
    obtain ⟨e', he', hsnd⟩ := List.mem_map.1 hmem
    simp only [Option.toList_some, List.map_append, List.nodup_append] at hnodup
    refine hnodup.2.2 _ (List.mem_map_of_mem he') _ (List.mem_singleton_self _) ?_
    rw [hsnd, heq]
  have hcounter : w.store.sendCounter = Int64.ofNat (sealedCount w) := ht.counter
  constructor
  · by_contra hsealing
    exact hnew (sealedCount w) (by omega) hcounter.symm
  · by_contra hround
    have hwrap : sealedCount w = 2 ^ 64 := by omega
    refine hnew 0 (by omega) ?_
    rw [hcounter, hwrap]
    rfl

theorem numbered_init : Numbered G ch (fresh, []) where
  points := Pool.All.nil _
  counter := rfl
  used := rfl
  alone := Nat.zero_le _
  bound := Nat.zero_le _
  own := by rintro i plaintext counter box (⟨⟨⟩⟩ | ⟨⟨⟩⟩)

/-- A run of overlapping calls on a channel uses every nonce at most once, in every state it reaches, if
and only if its seals encrypt alone. -/
theorem nonceUnique_iff_sealsAlone (G : AesGcm) (ch : SecureChannel) (l : List Step) :
    Run.Always (tracedStep G ch) NonceUnique (fresh, []) l ↔
      Run.Guarded (system G ch).step (fun w l => sealsAlone G ch w l = true) fresh l :=
  (Run.always_iff_guarded (fun _ ht => ht.nonceUnique) numbered_step sealsAlone_of_nonceUnique
    numbered_init l).trans
    (Run.guarded_observe (g := fun w l => sealsAlone G ch w l = true) (encryption G ch) [])

/-! ### Two plaintexts under one nonce -/

/-- The second call starts while the first is suspended. -/
def overlapping : List Step :=
  [.spawn (.sealMsg [1]) (), .spawn (.sealMsg [2]) (), .advance 0 (), .advance 1 (), .advance 0 (),
    .advance 1 ()]

/-- Both frames of `overlapping` carry the counter `0`. -/
theorem overlapping_seals :
    ¬ Run.Always (tracedStep sampleCipher sampleChannel) NonceUnique (fresh, []) overlapping := by
  intro h
  exact h.last.frames 0 1 [1] [2] _ _ rfl rfl (by decide) (by decide)

end DeskSync.Mobile
