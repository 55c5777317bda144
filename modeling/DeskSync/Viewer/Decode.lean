import DeskSync.Lib.Run

/-!
# The frame decode pipeline of a viewer session

`_onFrameBytes` and `_decodeLoop` of `WebRtcSession`. A run of the loop is suspended at each of the two
calls of the image codec (`Await`) and goes on when the call completes or throws. Meanwhile frames are
completed, the phase changes and the session may be closed. A frame is named by its place in the order of
arrival. What is done about the images that are replaced is left out.

`latest_frame`: in every run at most one frame is being decoded; the frames displayed follow each other in
the order of their arrival and none is displayed after `close`; while no decode is in progress and the
session is open, no frame is pending and the last that arrived was displayed or failed to decode.
`last_displayed`: as long as the session is open, completing the calls of the codec displays it.
-/

namespace DeskSync.Viewer.Decode

inductive WebRtcPhase
  | idle
  | connecting
  | connected
  | failed
  | closed
  deriving DecidableEq

/-- The fields of the session. An image is named by the frame it was decoded from. -/
structure Pipeline where
  pendingFrame : Option ℕ := none
  decoding : Bool := false
  closed : Bool := false
  videoFrame : Option ℕ := none
  phase : WebRtcPhase := .idle
  deriving DecidableEq

/-- Where a run of `_decodeLoop` is suspended, with the frame it took. -/
inductive Await
  | instantiateImageCodec (bytes : ℕ)
  | getNextFrame (bytes : ℕ)
  deriving DecidableEq

def Await.bytes : Await → ℕ
  | .instantiateImageCodec bytes => bytes
  | .getNextFrame bytes => bytes

inductive Event
  | arrived (bytes : ℕ)
  | displayed (bytes : ℕ)
  | failed (bytes : ℕ)
  | closed
  deriving DecidableEq

/-- What runs up to the next `await`: the fields it leaves, its events, and the `await` the loop is
suspended at, if it has not ended. -/
structure Block where
  pipeline : Pipeline
  events : List Event := []
  awaits : Option Await := none
  deriving DecidableEq

/-- The head of the loop, and what follows it on either side: the next frame is taken, or the loop ends
and its `finally` clears the flag. -/
def Pipeline.loopHead (p : Pipeline) : Block :=
  match p.pendingFrame with
  | some bytes =>
    if !p.closed then
      { pipeline := { p with pendingFrame := none }, awaits := some (.instantiateImageCodec bytes) }
    else { pipeline := { p with decoding := false } }
  | none => { pipeline := { p with decoding := false } }

def Pipeline.decodeLoop (p : Pipeline) : Block := { p with decoding := true }.loopHead

def Pipeline.onFrameBytes (p : Pipeline) (bytes : ℕ) : Block :=
  let p := { p with pendingFrame := some bytes }
  if p.decoding then { pipeline := p } else p.decodeLoop

/-- The rest of the body once the frame is decoded. -/
def Pipeline.decoded (p : Pipeline) (bytes : ℕ) : Block :=
  if p.closed then { pipeline := { p with decoding := false } }
  else
    let b := { p with
      videoFrame := some bytes
      phase := if p.phase = .connecting then .connected else p.phase : Pipeline }.loopHead
    { b with events := .displayed bytes :: b.events }

/-- The `catch` of the body: on to the head of the loop. -/
def Pipeline.decodeFailed (p : Pipeline) (bytes : ℕ) : Block :=
  let b := p.loopHead
  { b with events := .failed bytes :: b.events }

/-- The loop goes on after an `await` that completed, or threw. -/
def Pipeline.resume (p : Pipeline) (completed : Bool) : Await → Block
  | .instantiateImageCodec bytes =>
    if completed then { pipeline := p, awaits := some (.getNextFrame bytes) } else p.decodeFailed bytes
  | .getNextFrame bytes => if completed then p.decoded bytes else p.decodeFailed bytes

/-- `close` up to its first `await`. -/
def Pipeline.close (p : Pipeline) : Block :=
  if p.closed then { pipeline := p }
  else
    { pipeline := { p with closed := true, pendingFrame := none, phase := .closed }, events := [.closed] }

/-! ### Runs -/

/-- The fields, the number of frames that have arrived, and the runs of the loop that have not ended. -/
structure World where
  pipeline : Pipeline := {}
  arrived : ℕ := 0
  loops : List Await := []
  deriving DecidableEq

inductive Step
  /-- A frame is completed. -/
  | frame
  /-- A call of the codec, awaited by one of the loops, completes or throws. -/
  | resumes (loop : ℕ) (completed : Bool)
  | close
  /-- The calls `close` awaits have completed. -/
  | released
  /-- `start`, the state of the connection or an error of the signaling sets the phase. -/
  | phase (phase : WebRtcPhase)
  deriving DecidableEq

/-- The world when a block has run, beside the suspended loops. -/
def World.after (w : World) (b : Block) (loops : List Await) : World × List Event :=
  ({ w with pipeline := b.pipeline, loops := loops ++ b.awaits.toList }, b.events)

def World.step (w : World) : Step → World × List Event
  | .frame =>
    let (w', events) := w.after (w.pipeline.onFrameBytes w.arrived) w.loops
    ({ w' with arrived := w.arrived + 1 }, .arrived w.arrived :: events)
  | .resumes loop completed =>
    match w.loops[loop]? with
    | none => (w, [])
    | some a => w.after (w.pipeline.resume completed a) (w.loops.eraseIdx loop)
  | .close => w.after w.pipeline.close w.loops
  | .released =>
    if w.pipeline.closed then ({ w with pipeline := { w.pipeline with videoFrame := none } }, [])
    else (w, [])
  | .phase phase => ({ w with pipeline := { w.pipeline with phase := phase } }, [])

/-! ### The frames of the pipeline -/

def Event.arrival : Event → Option ℕ
  | .arrived n => some n
  | _ => none

def Event.display : Event → Option ℕ
  | .displayed n => some n
  | _ => none

/-- The displayed frames have arrived, in this order; none was displayed after `close`. -/
def Permitted (h : List Event) : Event → Prop
  | .displayed n => .arrived n ∈ h ∧ .closed ∉ h ∧ ∀ m, .displayed m ∈ h → m < n
  | _ => True

/-- The frames on their way to the display, after a history of a session that is `closed` or not: they are
newer than all displayed ones, and the last that arrived is among them or was dealt with. -/
structure OnTheWay (arrived : ℕ) (closed : Bool) (frames : List ℕ) (h : List Event) : Prop where
  follows : Run.Follows Permitted h
  arrivals : h.filterMap Event.arrival = List.range arrived
  increasing : (h.filterMap Event.display ++ frames).Pairwise (· < ·)
  bounded : ∀ n ∈ h.filterMap Event.display ++ frames, n < arrived
  ended : closed = true ↔ .closed ∈ h
  settled : closed = false → ∀ n, n + 1 = arrived → n ∈ frames ∨ .displayed n ∈ h ∨ .failed n ∈ h

theorem mem_arrivals {h : List Event} {n : ℕ} : n ∈ h.filterMap Event.arrival ↔ .arrived n ∈ h := by
  rw [List.mem_filterMap]
  constructor
  · rintro ⟨e, he, hn⟩
    cases e with
    | arrived m => exact Option.some.inj hn ▸ he
    | _ => nomatch hn
  · exact fun hn => ⟨_, hn, rfl⟩

theorem mem_displays {h : List Event} {n : ℕ} : n ∈ h.filterMap Event.display ↔ .displayed n ∈ h := by
  rw [List.mem_filterMap]
  constructor
  · rintro ⟨e, he, hn⟩
    cases e with
    | displayed m => exact Option.some.inj hn ▸ he
    | _ => nomatch hn
  · exact fun hn => ⟨_, hn, rfl⟩

/-- An event that is no arrival, and one that is no display. -/
theorem arrivals_concat (h : List Event) {e : Event} (he : e.arrival = none) :
    (h ++ [e]).filterMap Event.arrival = h.filterMap Event.arrival := by
  rw [List.filterMap_append, List.filterMap_cons_none he]
  exact List.append_nil _

theorem displays_concat (h : List Event) {e : Event} (he : e.display = none) :
    (h ++ [e]).filterMap Event.display = h.filterMap Event.display := by
  rw [List.filterMap_append, List.filterMap_cons_none he]
  exact List.append_nil _

section

variable {arrived n : ℕ} {closed : Bool} {frames kept : List ℕ} {h : List Event}

theorem OnTheWay.nil : OnTheWay 0 false [] [] where
  follows := Run.follows_nil
  arrivals := rfl
  increasing := List.Pairwise.nil
  bounded := by simp
  ended := by simp
  settled := by simp

/-- A frame arrives and takes the place of others. -/
theorem OnTheWay.arrive (hw : OnTheWay arrived closed frames h) (hkept : kept.Sublist frames) :
    OnTheWay (arrived + 1) closed (kept ++ [arrived]) (h ++ [.arrived arrived]) := by
  have hsub := hkept.append_left (h.filterMap Event.display)
  exact {
    follows := hw.follows.concat trivial
    arrivals := by
      rw [List.filterMap_append, hw.arrivals, List.range_succ]
      rfl
    increasing := by
      rw [displays_concat h rfl, ← List.append_assoc, List.pairwise_append]
      refine ⟨hw.increasing.sublist hsub, List.pairwise_singleton _ _, fun m hm k hk => ?_⟩
      rw [List.mem_singleton.1 hk]
      exact hw.bounded m (hsub.subset hm)
    bounded := by
      intro m hm
      rw [displays_concat h rfl, ← List.append_assoc, List.mem_append] at hm
      rcases hm with hm | hm
      · exact Nat.lt_succ_of_lt (hw.bounded m (hsub.subset hm))
      · rw [List.mem_singleton.1 hm]
        exact Nat.lt_succ_self _
    ended := by
      rw [hw.ended, List.mem_append]
      simp
    settled := by
      intro _ m hm
      obtain rfl : m = arrived := Nat.succ.inj hm
      exact .inl (List.mem_append_right _ (List.mem_singleton_self _)) }

theorem OnTheWay.last (hw : OnTheWay arrived closed frames h)
    (hn : (h.filterMap Event.arrival).getLast? = some n) : n + 1 = arrived := by
  rw [hw.arrivals, List.getLast?_range] at hn
  split at hn
  · nomatch hn
  · injection hn with hn
    omega

/-- The next frame leaves, displayed or failed. -/
theorem OnTheWay.settled_concat (hw : OnTheWay arrived closed (n :: frames) h) {e : Event}
    (he : e = .displayed n ∨ e = .failed n) (hc : closed = false) (m : ℕ) (hm : m + 1 = arrived) :
    m ∈ frames ∨ .displayed m ∈ h ++ [e] ∨ .failed m ∈ h ++ [e] := by
  rcases hw.settled hc m hm with hin | hdisplayed | hfailed
  · rcases List.mem_cons.1 hin with rfl | hin
    · rcases he with rfl | rfl
      · exact .inr (.inl (by simp))
      · exact .inr (.inr (by simp))
    · exact .inl hin
  · exact .inr (.inl (List.mem_append_left _ hdisplayed))
  · exact .inr (.inr (List.mem_append_left _ hfailed))

theorem OnTheWay.display (hw : OnTheWay arrived false (n :: frames) h) :
    OnTheWay arrived false frames (h ++ [.displayed n]) := by
  have hdisplays : (h ++ [Event.displayed n]).filterMap Event.display ++ frames =
      h.filterMap Event.display ++ n :: frames := by
    rw [List.filterMap_append, List.append_assoc]
    rfl
  exact {
    follows := by
      refine hw.follows.concat ⟨?_, ?_, fun m hm => ?_⟩
      · rw [← mem_arrivals, hw.arrivals, List.mem_range]
        exact hw.bounded n (by simp)
      · exact fun hc => Bool.false_ne_true (hw.ended.2 hc)
      · exact (List.pairwise_append.1 hw.increasing).2.2 m (mem_displays.2 hm) n (List.mem_cons_self ..)
    arrivals := (arrivals_concat h rfl).trans hw.arrivals
    increasing := by
      rw [hdisplays]
      exact hw.increasing
    bounded := by
      rw [hdisplays]
      exact hw.bounded
    ended := by
      rw [hw.ended, List.mem_append]
      simp
    settled := hw.settled_concat (.inl rfl) }

theorem OnTheWay.fail (hw : OnTheWay arrived closed (n :: frames) h) :
    OnTheWay arrived closed frames (h ++ [.failed n]) := by
  have hsub := (List.sublist_cons_self n frames).append_left (h.filterMap Event.display)
  exact {
    follows := hw.follows.concat trivial
    arrivals := (arrivals_concat h rfl).trans hw.arrivals
    increasing := by
      rw [displays_concat h rfl]
      exact hw.increasing.sublist hsub
    bounded := by
      rw [displays_concat h rfl]
      exact fun m hm => hw.bounded m (hsub.subset hm)
    ended := by
      rw [hw.ended, List.mem_append]
      simp
    settled := hw.settled_concat (.inr rfl) }

/-- Once the session is closed, frames may be dropped. -/
theorem OnTheWay.drop (hw : OnTheWay arrived true frames h) (hkept : kept.Sublist frames) :
    OnTheWay arrived true kept h where
  follows := hw.follows
  arrivals := hw.arrivals
  increasing := hw.increasing.sublist (hkept.append_left _)
  bounded := fun m hm => hw.bounded m ((hkept.append_left _).subset hm)
  ended := hw.ended
  settled := nofun

theorem OnTheWay.close (hw : OnTheWay arrived closed frames h) (hkept : kept.Sublist frames) :
    OnTheWay arrived true kept (h ++ [.closed]) where
  follows := hw.follows.concat trivial
  arrivals := (arrivals_concat h rfl).trans hw.arrivals
  increasing := by
    rw [displays_concat h rfl]
    exact hw.increasing.sublist (hkept.append_left _)
  bounded := by
    rw [displays_concat h rfl]
    exact fun m hm => hw.bounded m ((hkept.append_left _).subset hm)
  ended := by simp
  settled := nofun

end

/-! ### The loop -/

/-- The frames being decoded, then the pending one. -/
def inFlight (loops : List Await) (pendingFrame : Option ℕ) : List ℕ :=
  loops.map Await.bytes ++ pendingFrame.toList

/-- At most one loop runs, the flag says whether, and the slot is empty when none runs. -/
structure Inv (p : World × List Event) : Prop where
  single : p.1.loops.length ≤ 1
  decoding : p.1.pipeline.decoding = true ↔ p.1.loops ≠ []
  idle : p.1.loops = [] → p.1.pipeline.closed = false → p.1.pipeline.pendingFrame = none
  onTheWay : OnTheWay p.1.arrived p.1.pipeline.closed (inFlight p.1.loops p.1.pipeline.pendingFrame) p.2

/-- What a block of the only loop leaves. -/
def Leaves (arrived : ℕ) (h : List Event) (b : Block) : Prop :=
  Inv (⟨b.pipeline, arrived, b.awaits.toList⟩, h ++ b.events)

theorem loopHead_leaves {p : Pipeline} {arrived : ℕ} {h : List Event} (hd : p.decoding = true)
    (hw : OnTheWay arrived p.closed p.pendingFrame.toList h) : Leaves arrived h p.loopHead := by
  obtain ⟨pending, decoding, closed, videoFrame, phase⟩ := p
  obtain rfl : decoding = true := hd
  unfold Leaves Pipeline.loopHead
  simp only at hw ⊢
  cases pending with
  | none =>
    simp only [List.append_nil, Option.toList_none]
    exact ⟨by simp, by simp, fun _ _ => rfl, hw⟩
  | some bytes =>
    cases closed with
    | false =>
      simp only [Bool.not_false, if_true, List.append_nil]
      exact ⟨by simp, by simp, by simp, hw⟩
    | true =>
      simp only [Bool.not_true, Bool.false_eq_true, if_false, List.append_nil]
      exact ⟨by simp, by simp, by simp, hw⟩

theorem Leaves.cons {arrived : ℕ} {h : List Event} {b : Block} {e : Event}
    (hb : Leaves arrived (h ++ [e]) b) : Leaves arrived h { b with events := e :: b.events } := by
  unfold Leaves at hb ⊢
  rwa [List.append_assoc] at hb

/-- The only loop goes on. -/
theorem resume_leaves {p : Pipeline} {arrived : ℕ} {h : List Event} (a : Await) (completed : Bool)
    (hd : p.decoding = true) (hw : OnTheWay arrived p.closed (a.bytes :: p.pendingFrame.toList) h) :
    Leaves arrived h (p.resume completed a) := by
  have hfailed : Leaves arrived h (p.decodeFailed a.bytes) := (loopHead_leaves hd hw.fail).cons
  have hdecoded : Leaves arrived h (p.decoded a.bytes) := by
    unfold Pipeline.decoded
    by_cases hc : p.closed = true
    · rw [if_pos hc]
      rw [hc] at hw
      have hdrop := hw.drop (List.sublist_cons_self _ _)
      rw [← hc] at hdrop
      refine ⟨by simp, by simp, fun _ ho => ?_, by simpa [inFlight] using hdrop⟩
      exact absurd (hc.symm.trans ho) (by decide)
    · rw [if_neg hc]
      rw [Bool.not_eq_true] at hc
      rw [hc] at hw
      refine Leaves.cons (loopHead_leaves hd ?_)
      simpa only [hc] using hw.display
  cases a with
  | instantiateImageCodec bytes =>
    cases completed with
    | false => exact hfailed
    | true =>
      refine ⟨by simp [Pipeline.resume], by simp [Pipeline.resume, hd], by simp [Pipeline.resume], ?_⟩
      simpa [Pipeline.resume, inFlight, Await.bytes] using hw
  | getNextFrame bytes =>
    cases completed with
    | false => exact hfailed
    | true => exact hdecoded

theorem Inv.frame {pl : Pipeline} {arrived : ℕ} {loops : List Await} {h : List Event}
    (hp : Inv (⟨pl, arrived, loops⟩, h)) :
    Inv (Run.record World.step (⟨pl, arrived, loops⟩, h) .frame) := by
  match loops, hp.single with
  | [], _ =>
    have hd : pl.decoding = false := Bool.eq_false_iff.2 fun hd => hp.decoding.1 hd rfl
    let p : Pipeline := { pl with pendingFrame := some arrived, decoding := true }
    have hstep : World.step ⟨pl, arrived, []⟩ .frame =
        (⟨p.loopHead.pipeline, arrived + 1, p.loopHead.awaits.toList⟩,
          .arrived arrived :: p.loopHead.events) := by
      simp [World.step, World.after, Pipeline.onFrameBytes, Pipeline.decodeLoop, hd, p]
    have hw : OnTheWay (arrived + 1) p.closed p.pendingFrame.toList (h ++ [.arrived arrived]) :=
      hp.onTheWay.arrive (List.nil_sublist _)
    rw [Run.record, hstep, List.append_cons]
    exact loopHead_leaves rfl hw
  | [a], _ =>
    have hd : pl.decoding = true := hp.decoding.2 (List.cons_ne_nil a [])
    have hstep : World.step ⟨pl, arrived, [a]⟩ .frame =
        (⟨{ pl with pendingFrame := some arrived }, arrived + 1, [a]⟩, [.arrived arrived]) := by
      simp [World.step, World.after, Pipeline.onFrameBytes, hd]
    have hkept : [a.bytes].Sublist (inFlight [a] pl.pendingFrame) := List.sublist_append_left _ _
    rw [Run.record, hstep]
    exact ⟨le_rfl, by simp [hd], by simp, hp.onTheWay.arrive hkept⟩

theorem Inv.step {p : World × List Event} (hp : Inv p) (s : Step) :
    Inv (Run.record World.step p s) := by
  obtain ⟨⟨pl, arrived, loops⟩, h⟩ := p
  cases s with
  | frame => exact hp.frame
  | resumes loop completed =>
    match loops, loop, hp.single with
    | [], _, _ => simpa [Run.record, World.step] using hp
    | [a], 0, _ => exact resume_leaves a completed (hp.decoding.2 (List.cons_ne_nil a [])) hp.onTheWay
    | [a], loop + 1, _ => simpa [Run.record, World.step] using hp
  | close =>
    simp only [Run.record, World.step, World.after, Pipeline.close]
    split
    · simpa using hp
    · have hkept := List.sublist_append_left (loops.map Await.bytes) pl.pendingFrame.toList
      refine ⟨by simpa using hp.single, by simpa using hp.decoding, by simp, ?_⟩
      simpa [inFlight] using hp.onTheWay.close hkept
  | released =>
    simp only [Run.record, World.step]
    split
    · exact ⟨hp.single, hp.decoding, hp.idle, by simpa using hp.onTheWay⟩
    · simpa using hp
  | phase phase => exact ⟨hp.single, hp.decoding, hp.idle, by
      simpa [Run.record, World.step] using hp.onTheWay⟩

theorem inv_start : Inv ({}, []) := ⟨by simp, by simp, by simp, .nil⟩

/-- The calls of the codec complete, `k` of them. -/
def complete (k : ℕ) : List Step := List.replicate k (.resumes 0 true)

section Completes
variable {pl : Pipeline}

/-- An image that is there is displayed, and the loop takes the pending frame, if there is one. -/
theorem decoded_displays (hopen : pl.closed = false) (n : ℕ) :
    (pl.decoded n).events = [.displayed n] ∧
    (pl.decoded n).awaits = pl.pendingFrame.map .instantiateImageCodec ∧
    (pl.decoded n).pipeline.videoFrame = some n ∧ (pl.decoded n).pipeline.closed = false ∧
    (pl.decoded n).pipeline.pendingFrame = none := by
  cases hpending : pl.pendingFrame with
  | none => simp [Pipeline.decoded, Pipeline.loopHead, hopen, hpending]
  | some m => simp [Pipeline.decoded, Pipeline.loopHead, hopen, hpending]

/-- The frame that is being decoded is displayed, and the pending one taken. -/
theorem complete_first (hopen : pl.closed = false) (arrived : ℕ) (a : Await) (h : List Event) :
    ∃ k, ∃ pl' : Pipeline, Run.exec (Run.record World.step) (⟨pl, arrived, [a]⟩, h) (complete k) =
        (⟨pl', arrived, (pl.pendingFrame.map .instantiateImageCodec).toList⟩, h ++ [.displayed a.bytes]) ∧
      pl'.videoFrame = some a.bytes ∧ pl'.closed = false ∧ pl'.pendingFrame = none := by
  obtain ⟨hevents, hawaits, hpipeline⟩ := decoded_displays hopen a.bytes
  have hstep (h : List Event) : Run.record World.step (⟨pl, arrived, [.getNextFrame a.bytes]⟩, h) (.resumes 0 true) =
      (⟨(pl.decoded a.bytes).pipeline, arrived, (pl.pendingFrame.map .instantiateImageCodec).toList⟩,
        h ++ [.displayed a.bytes]) := by
    rw [← hevents, ← hawaits]
    rfl
  cases a with
  | instantiateImageCodec n =>
    have hfirst : Run.record World.step (⟨pl, arrived, [.instantiateImageCodec n]⟩, h) (.resumes 0 true) =
        (⟨pl, arrived, [.getNextFrame n]⟩, h) := by
      simp [Run.record, World.step, World.after, Pipeline.resume]
    refine ⟨2, _, ?_, hpipeline⟩
    simp only [complete, List.replicate, List.foldl_cons, List.foldl_nil, hfirst]
    exact hstep h
  | getNextFrame n => exact ⟨1, _, hstep h, hpipeline⟩

/-- In an open session, when the calls of the codec complete, all frames in flight are displayed, the newest last. -/
theorem complete_displays (hopen : pl.closed = false) (arrived : ℕ) (a : Await) (h : List Event) :
    ∃ k, ∃ pl' : Pipeline, Run.exec (Run.record World.step) (⟨pl, arrived, [a]⟩, h) (complete k) =
        (⟨pl', arrived, []⟩, h ++ (inFlight [a] pl.pendingFrame).map .displayed) ∧
      pl'.videoFrame = (inFlight [a] pl.pendingFrame).getLast? := by
  obtain ⟨k, pl', hfirst, hvideo, hopen', hnone⟩ := complete_first hopen arrived a h
  cases hpending : pl.pendingFrame with
  | none =>
    rw [hpending] at hfirst
    exact ⟨k, pl', hfirst, hvideo⟩
  | some m =>
    obtain ⟨k', pl'', hsecond, hvideo', -⟩ := complete_first hopen' arrived (.instantiateImageCodec m)
      (h ++ [.displayed a.bytes])
    rw [hpending] at hfirst
    rw [hnone, List.append_assoc] at hsecond
    refine ⟨k + k', pl'', ?_, hvideo'⟩
    rw [complete, List.replicate_add, Run.exec_append]
    exact (congrArg (Run.exec _ · _) hfirst).trans hsecond

end Completes

/-- From every open state of a run, when the calls of the codec complete, the last frame that has arrived is
displayed, unless it has failed to decode. -/
theorem last_displayed (steps : List Step) {n : ℕ}
    (hopen : (Run.exec (Run.record World.step) ({}, []) steps).1.pipeline.closed = false)
    (hn : ((Run.exec (Run.record World.step) ({}, []) steps).2.filterMap Event.arrival).getLast? = some n)
    (hdecodes : .failed n ∉ (Run.exec (Run.record World.step) ({}, []) steps).2) :
    ∃ k, .displayed n ∈ (Run.exec (Run.record World.step) ({}, []) (steps ++ complete k)).2 := by
  have hinv := Run.invariant (I := Inv) (fun _ s hp => hp.step s) inv_start steps
  simp only [Run.exec_append]
  generalize Run.exec (Run.record World.step) ({}, []) steps = p at hopen hn hdecodes hinv ⊢
  obtain ⟨⟨pl, arrived, loops⟩, h⟩ := p
  have hw := hinv.onTheWay
  rcases hw.settled hopen n (hw.last hn) with hin | hdone | hfailed
  · match loops, hinv.single with
    | [], _ =>
      have hnone : pl.pendingFrame = none := hinv.idle rfl hopen
      rw [hnone] at hin
      nomatch hin
    | [a], _ =>
      obtain ⟨k, pl', hrun, -⟩ := complete_displays hopen arrived a h
      refine ⟨k, ?_⟩
      rw [hrun]
      exact List.mem_append_right _ (List.mem_map_of_mem hin)
  · exact ⟨0, hdone⟩
  · exact absurd hfailed hdecodes

end DeskSync.Viewer.Decode
