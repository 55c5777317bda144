import DeskSync.Mobile.Channel

/-!
# Replay protection of the mobile channel

`open` compares the counter of a frame with `_recvLast` before its `await` and stores it after. Two
overlapping calls on one frame both pass the comparison and both accept it, and a call on an older frame
that finishes last moves `_recvLast` back (`overlapping_opens`).

`finishesAbove` rules this out: a call that comes back from a successful `decrypt` still finds
`_recvLast` below its counter, as the comparison before the `await` did. Under it the accepted counters
are distinct and `_recvLast` only rises (`replayProtected_of_finishesAbove`).
-/

namespace DeskSync.Mobile

open Elements Proc

/-! ### Frames that are accepted -/

/-- The run of one channel from its construction. -/
def run (G : AesGcm) (ch : SecureChannel) (l : List Step) : World := Run.exec (system G ch).step fresh l

/-- The call `i` has accepted the frame. -/
def Accepted (w : World) (i : ℕ) (frame : Bytes) : Prop :=
  ∃ clear, w.threads[i]? = some ⟨.openFrame frame, .ret (.ok clear)⟩

/-- `_recvLast` has not fallen, nor been lost. -/
def NotBelow (s s' : Counters) : Prop := ∀ last ∈ s.recvLast, ∃ last' ∈ s'.recvLast, last ≤ last'

/-- No frame is accepted by two calls, and `_recvLast` never decreases. -/
structure ReplayProtected (G : AesGcm) (ch : SecureChannel) (l : List Step) : Prop where
  once : ∀ i j frame, Accepted (run G ch l) i frame → Accepted (run G ch l) j frame → i = j
  rising : ∀ l₁ l₂, l = l₁ ++ l₂ → NotBelow (run G ch l₁).store (run G ch l).store

/-! ### The condition -/

/-- An `open` that comes back from `decrypt` finds `_recvLast` below its counter. -/
def finishesAbove (w : World) : Step → Bool
  | .advance i _ =>
    match w.threads[i]? with
    | some ⟨.openFrame _, .call (.setRecvLast counter) _⟩ => w.store.recvLast.all (· < counter)
    | _ => true
  | _ => true

/-! ### Steps -/

theorem int64_le_refl (n : Int64) : n ≤ n := Int64.le_iff_toInt_le.2 (le_refl _)

theorem int64_le_trans {n m k : Int64} (h : n ≤ m) (h' : m ≤ k) : n ≤ k :=
  Int64.le_iff_toInt_le.2 ((Int64.le_iff_toInt_le.1 h).trans (Int64.le_iff_toInt_le.1 h'))

theorem int64_le_of_lt {n m : Int64} (h : n < m) : n ≤ m :=
  Int64.le_iff_toInt_le.2 (Int64.lt_iff_toInt_lt.1 h).le

theorem int64_not_lt_of_le {n m : Int64} (h : n ≤ m) : ¬ m < n := fun hlt =>
  absurd (Int64.lt_iff_toInt_lt.1 hlt) (not_lt.2 (Int64.le_iff_toInt_le.1 h))

theorem NotBelow.refl (s : Counters) : NotBelow s s := fun last h => ⟨last, h, int64_le_refl _⟩

theorem NotBelow.trans {s s' s'' : Counters} (h : NotBelow s s') (h' : NotBelow s' s'') :
    NotBelow s s'' := by
  intro last hlast
  obtain ⟨last', hlast', hle⟩ := h last hlast
  obtain ⟨last'', hlast'', hle'⟩ := h' last' hlast'
  exact ⟨last'', hlast'', int64_le_trans hle hle'⟩

variable {G : AesGcm} {ch : SecureChannel} {w : World}

/-- The guard at a call that is about to store its counter. -/
theorem finishesAbove_opening {i : ℕ} {frame clear : Bytes}
    (hi : w.threads[i]? = some ⟨.openFrame frame, opening (readCounter frame) clear⟩)
    (hg : finishesAbove w (.advance i ()) = true) : ∀ last ∈ w.store.recvLast, last < readCounter frame := by
  simp only [finishesAbove, hi] at hg
  change w.store.recvLast.all (· < readCounter frame) = true at hg
  intro last hlast
  rw [Option.mem_def.1 hlast, Option.all_some] at hg
  exact of_decide_eq_true hg

theorem notBelow_step (hw : w.All (At G ch)) {l : Step} (hg : finishesAbove w l = true) :
    NotBelow w.store ((system G ch).step w l).store := by
  rcases step_cases hw l with hs | ⟨q, hs⟩ | ⟨i, t, s', t', rfl, hi, hmove, hs⟩
  · rw [hs]
    exact .refl _
  · rw [hs]
    exact .refl _
  · rw [hs]
    cases hmove with
    | opens frame clear =>
      intro last hlast
      exact ⟨_, rfl, int64_le_of_lt (finishesAbove_opening hi hg last hlast)⟩
    | _ => exact .refl _

/-- The accepted counters are distinct, and `_recvLast` is not below any of them. -/
structure Climbed (G : AesGcm) (ch : SecureChannel) (w : World) : Prop where
  points : w.All (At G ch)
  below : ∀ i frame, Accepted w i frame → ∃ last ∈ w.store.recvLast, readCounter frame ≤ last
  distinct : ∀ i j frame frame', Accepted w i frame → Accepted w j frame' → i ≠ j →
    readCounter frame ≠ readCounter frame'

/-- A step that finishes no `open`. -/
theorem Climbed.quiet {w' : World} (hw : Climbed G ch w) (hat : w'.All (At G ch))
    (hlast : w'.store.recvLast = w.store.recvLast)
    (hback : ∀ i frame, Accepted w' i frame → Accepted w i frame) : Climbed G ch w' where
  points := hat
  below := by
    rw [hlast]
    exact fun i frame hi => hw.below i frame (hback i frame hi)
  distinct := fun i j frame frame' hi hj => hw.distinct i j frame frame' (hback i frame hi) (hback j frame' hj)

theorem accepted_set {i j : ℕ} {t : Thread Request Reply Response} {s : Counters} {frame : Bytes}
    (h : Accepted ⟨s, w.threads.set i t⟩ j frame) :
    (i = j ∧ ∃ clear, t = ⟨.openFrame frame, .ret (.ok clear)⟩) ∨ i ≠ j ∧ Accepted w j frame := by
  obtain ⟨clear, hj⟩ := h
  rcases set_cases hj with ⟨hij, heq⟩ | ⟨hij, hj⟩
  · exact .inl ⟨hij, clear, heq.symm⟩
  · exact .inr ⟨hij, clear, hj⟩

theorem accepted_spawn {q : Request} {j : ℕ} {frame : Bytes}
    (h : Accepted { w with threads := w.threads ++ [⟨q, (system G ch).start q ()⟩] } j frame) :
    Accepted w j frame := by
  obtain ⟨clear, hj⟩ := h
  rcases lt_or_ge j w.threads.length with hlt | hge
  · rw [List.getElem?_append_left hlt] at hj
    exact ⟨clear, hj⟩
  · rw [List.getElem?_append_right hge] at hj
    have heq := List.mem_singleton.1 (List.mem_of_getElem? hj)
    cases q with
    | sealMsg plaintext => cases heq
    | openFrame frame' =>
      -- a call has returned a plaintext only after a block of its own
      obtain ⟨-, heq⟩ := Thread.mk.inj heq
      unfold system SecureChannel.open at heq
      dsimp only at heq
      split_ifs at heq <;> cases heq

theorem climbed_step (w : World) (l : Step) (hw : Climbed G ch w) (hg : finishesAbove w l = true) :
    Climbed G ch ((system G ch).step w l) := by
  have hat := at_step hw.points l
  rcases step_cases hw.points l with hs | ⟨q, hs⟩ | ⟨i, t, s', t', rfl, hi, hmove, hs⟩
  · rw [hs]
    exact hw
  · rw [hs] at hat ⊢
    exact hw.quiet hat rfl fun j frame => accepted_spawn
  · rw [hs] at hat ⊢
    cases hmove with
    | opens frame clear =>
      have habove := finishesAbove_opening hi hg
      -- every frame accepted before has a smaller counter
      have hlt (j frame') (hj : Accepted w j frame') : readCounter frame' ≠ readCounter frame := by
        obtain ⟨last, hlast, hle⟩ := hw.below j frame' hj
        intro heq
        rw [heq] at hle
        exact int64_not_lt_of_le hle (habove last hlast)
      refine ⟨hat, fun j frame' hj => ⟨_, rfl, ?_⟩, fun j k f f' hj hk hjk => ?_⟩
      · obtain ⟨-, _, heq⟩ | ⟨-, hj⟩ := accepted_set hj
        · cases heq
          exact int64_le_refl _
        · obtain ⟨last, hlast, hle⟩ := hw.below j frame' hj
          exact int64_le_trans hle (int64_le_of_lt (habove last hlast))
      · obtain ⟨rfl, _, heq⟩ | ⟨-, hj⟩ := accepted_set hj <;>
          obtain ⟨rfl, _, heq'⟩ | ⟨-, hk⟩ := accepted_set hk
        · exact absurd rfl hjk
        · cases heq
          exact (hlt k f' hk).symm
        · cases heq'
          exact hlt j f hj
        · exact hw.distinct j k f f' hj hk hjk
    | _ =>
      refine hw.quiet hat rfl fun j frame hj => ?_
      obtain ⟨-, _, heq⟩ | ⟨-, hj⟩ := accepted_set hj
      · cases heq
      · exact hj

/-! ### Runs -/

theorem climbed_fresh : Climbed G ch fresh where
  points := Pool.All.nil _
  below := by rintro i frame ⟨clear, ⟨⟩⟩
  distinct := by rintro i j frame frame' ⟨clear, ⟨⟩⟩

theorem at_run (G : AesGcm) (ch : SecureChannel) (l : List Step) : (run G ch l).All (At G ch) :=
  Run.invariant (I := fun w : World => w.All (At G ch)) (fun _ l hw => at_step hw l) (Pool.All.nil _) l

/-- In every run in which the calls come back from `decrypt` with `_recvLast` still below their counter,
no frame is accepted by two calls and `_recvLast` never decreases. -/
theorem replayProtected_of_finishesAbove (G : AesGcm) (ch : SecureChannel) (l : List Step)
    (h : Run.Guarded (system G ch).step (fun w l => finishesAbove w l = true) fresh l) :
    ReplayProtected G ch l where
  once := by
    intro i j frame hi hj
    by_contra hij
    exact (h.invariant climbed_step climbed_fresh).distinct i j frame frame hi hj hij rfl
  rising := by
    rintro l₁ l₂ rfl
    have hend : Pool.All (At G ch) (run G ch (l₁ ++ l₂)) ∧
        NotBelow (run G ch l₁).store (run G ch (l₁ ++ l₂)).store := by
      rw [run, Run.exec_append]
      refine (Run.guarded_append.1 h).2.invariant
        (I := fun w : World => w.All (At G ch) ∧ NotBelow (run G ch l₁).store w.store) ?_
        ⟨at_run G ch l₁, .refl _⟩
      rintro w l ⟨hat, hle⟩ hg
      exact ⟨at_step hat l, hle.trans (notBelow_step hat hg)⟩
    exact hend.2

/-! ### One frame, two calls -/

/-- The frame with the counter `n` and an empty plaintext. -/
def frameAt (n : Int64) : Bytes := frameOf n ⟨[], nonceFor n ++ [0, 0, 0, 0]⟩

def openStep (i : ℕ) : Step := .advance i ()

/-- Two calls on one frame: both compare its counter before either stores it. -/
def overlappingOpens : List Step :=
  [.spawn (.openFrame (frameAt 1)) (), .spawn (.openFrame (frameAt 1)) (), openStep 0, openStep 1,
    openStep 0, openStep 1]

theorem overlapping_opens : ¬ ReplayProtected sampleCipher sampleChannel overlappingOpens := by
  intro h
  have h01 : (0 : ℕ) = 1 := h.once 0 1 (frameAt 1) ⟨[], rfl⟩ ⟨[], rfl⟩
  exact absurd h01 (by decide)

/-- The second call starts after the first has returned. -/
def sequentialOpens : List Step :=
  [.spawn (.openFrame (frameAt 1)) (), openStep 0, openStep 0, .spawn (.openFrame (frameAt 1)) (),
    openStep 1, .spawn (.openFrame (frameAt 2)) (), openStep 2, openStep 2]

theorem replayProtected_sequentialOpens : ReplayProtected sampleCipher sampleChannel sequentialOpens :=
  replayProtected_of_finishesAbove sampleCipher sampleChannel sequentialOpens (by decide)

end DeskSync.Mobile
