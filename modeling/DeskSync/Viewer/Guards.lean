import DeskSync.Viewer.Session

/-!
# The negotiation guards of a viewer session

The guards hold in every run: one `createOffer`, one answer applied, and no `addCandidate` before it
(`guarded_run`). That no candidate is lost holds in the runs in which no `addCandidate` of the loop over
`_pendingRemoteIce` throws while a buffered candidate is left (`flushesAll`): the error leaves the loop,
and what it leaves in the buffer is never looked at again (`lost_candidate`).
-/

namespace DeskSync.Viewer

open Mobile (SignalPayload)

/-! ### Calls in order -/

/-- No envelope waits and no handler is in progress. -/
def World.Idle (w : World) : Prop := w.chain = [] ∧ w.running = none

instance (w : World) : Decidable w.Idle := inferInstanceAs (Decidable (_ ∧ _))

/-- The candidate an event hands to `addCandidate`. -/
def added : Event → Option RTCIceCandidate
  | .calls (.addCandidate c) => some c
  | _ => none

def received : Event → Option RTCIceCandidate
  | .received c => some c
  | _ => none

/-- `setRemoteDescription` has completed. -/
def isApplied : Event → Bool
  | .completed (.setRemoteDescription _) => true
  | _ => false

structure Negotiates (p : World × List Event) : Prop where
  offersOnce : p.2.countP (fun e => e = .calls .createOffer) ≤ 1
  appliesOnce : p.2.countP isApplied ≤ 1
  addsAfterAnswer : Run.Follows (fun h e => added e ≠ none → ∃ e' ∈ h, isApplied e' = true) p.2
  addsAll : p.1.Idle → (∃ e ∈ p.2, isApplied e = true) → p.1.session.closed = false →
    p.2.filterMap added = p.2.filterMap received

/-! ### The condition -/

/-- An `addCandidate` of the loop over `_pendingRemoteIce` throws on the last candidate only. -/
def flushesAll (p : World × List Event) : Step → Bool
  | .throws =>
    match p.1.running with
    | some (.flush _ next len) => next = len
    | _ => true
  | _ => true

/-! ### The guards -/

/-- What the fields say about the history. -/
structure Guards (p : World × List Event) : Prop where
  offers : p.2.countP (fun e => e = .calls .createOffer) = if p.1.session.offerSent then 1 else 0
  applies : p.2.countP isApplied = if p.1.session.remoteDescriptionSet then 1 else 0
  applying : ∀ sdp, p.1.running = some (.setRemoteDescription sdp) →
    p.1.session.remoteDescriptionSet = false
  flushing : ∀ c next len, p.1.running = some (.flush c next len) →
    p.1.session.remoteDescriptionSet = true
  adds : Run.Follows (fun h e => added e ≠ none → ∃ e' ∈ h, isApplied e' = true) p.2

theorem Guards.applied {p : World × List Event} (h : Guards p)
    (hset : p.1.session.remoteDescriptionSet = true) : ∃ e ∈ p.2, isApplied e = true := by
  have hcount := h.applies
  rw [hset, if_pos rfl] at hcount
  exact List.countP_pos_iff.1 (by omega)

/-- A step that leaves `_offerSent` and `_remoteDescriptionSet`, and whose events are no guarded call. -/
theorem Guards.quiet {w w' : World} {h : List Event} (hw : Guards (w, h)) (evs : List Event)
    (hoffer : w'.session.offerSent = w.session.offerSent)
    (hset : w'.session.remoteDescriptionSet = w.session.remoteDescriptionSet)
    (hrun : ∀ sdp, w'.running = some (.setRemoteDescription sdp) →
      w.session.remoteDescriptionSet = false)
    (hflush : ∀ c next len, w'.running = some (.flush c next len) →
      w.session.remoteDescriptionSet = true)
    (hevs : ∀ e ∈ evs, e ≠ .calls .createOffer ∧ isApplied e = false ∧
      (added e ≠ none → w.session.remoteDescriptionSet = true)) :
    Guards (w', h ++ evs) := by
  constructor
  · have hzero : evs.countP (fun e => e = .calls .createOffer) = 0 := by
      refine List.countP_eq_zero.2 fun e he => ?_
      simpa using (hevs e he).1
    rw [List.countP_append, hzero, hoffer]
    exact hw.offers
  · have hzero : evs.countP isApplied = 0 := by
      refine List.countP_eq_zero.2 fun e he => ?_
      simpa using (hevs e he).2.1
    rw [List.countP_append, hzero, hset]
    exact hw.applies
  · intro sdp hsdp
    rw [hset]
    exact hrun sdp hsdp
  · intro c next len hc
    rw [hset]
    exact hflush c next len hc
  · refine hw.adds.append_list fun l₁ e l₂ heq hadd => ?_
    have he : e ∈ evs := by rw [heq]; simp
    obtain ⟨e', he', happ⟩ := hw.applied ((hevs e he).2.2 hadd)
    exact ⟨e', List.mem_append_left _ he', happ⟩

/-- What the loop does next: its iterator throws, it ends, or it hands out the next candidate. -/
theorem flush_cases (s : Session) (next len : ℕ) :
    (s.pendingRemoteIce.length ≠ len ∧ s.flush next len = { session := s }) ∨
    (s.pendingRemoteIce.length = len ∧ len ≤ next ∧
      s.flush next len = { session := { s with pendingRemoteIce := [] } }) ∨
    (s.pendingRemoteIce.length = len ∧ ∃ c, s.pendingRemoteIce[next]? = some c ∧
      s.flush next len = { session := s, awaits := some (.flush c (next + 1) len) }) := by
  unfold Session.flush
  by_cases hlen : s.pendingRemoteIce.length ≠ len
  · rw [if_pos hlen]
    exact .inl ⟨hlen, rfl⟩
  rw [if_neg hlen]
  rw [not_not] at hlen
  cases hget : s.pendingRemoteIce[next]? with
  | none => exact .inr (.inl ⟨hlen, hlen ▸ List.getElem?_eq_none_iff.1 hget, rfl⟩)
  | some c => exact .inr (.inr ⟨hlen, c, rfl, rfl⟩)

/-- The loop changes no guard and calls nothing but `addCandidate`. -/
theorem Guards.flush {s : Session} {chain : List SignalPayload} {r : Option Await} {h : List Event}
    (hw : Guards (⟨s, chain, r⟩, h)) (hset : s.remoteDescriptionSet = true) (next len : ℕ) :
    Guards (⟨(s.flush next len).session, chain, (s.flush next len).awaits⟩,
      h ++ (s.flush next len).events) := by
  rcases flush_cases s next len with ⟨-, hs⟩ | ⟨-, -, hs⟩ | ⟨-, c, -, hs⟩
  · rw [hs]
    exact hw.quiet [] rfl rfl (by simp) (by simp) (by simp)
  · rw [hs]
    exact hw.quiet [] rfl rfl (by simp) (by simp) (by simp)
  · rw [hs]
    refine hw.quiet [.calls (.addCandidate c)] rfl rfl (by simp) (fun _ _ _ _ => hset) ?_
    simp [isApplied, hset]

/-- An answer has been applied. -/
theorem Guards.apply {w : World} {h : List Event} {sdp : String} (hw : Guards (w, h))
    (hrun : w.running = some (.setRemoteDescription sdp)) :
    Guards (⟨{ w.session with remoteDescriptionSet := true }, w.chain, none⟩,
      h ++ [.completed (.setRemoteDescription sdp)]) := by
  have hset := hw.applying sdp hrun
  constructor
  · simpa [List.countP_append] using hw.offers
  · have happ := hw.applies
    rw [hset] at happ
    simpa [List.countP_append, isApplied] using happ
  · simp
  · simp
  · exact hw.adds.concat (by simp [added])

theorem guards_handle {w : World} {h : List Event} (hw : Guards (w, h)) (payload : SignalPayload)
    (chain : List SignalPayload) :
    Guards (⟨(w.session.handleSignal payload).session, chain, (w.session.handleSignal payload).awaits⟩,
      h ++ (w.session.handleSignal payload).events) := by
  have hquiet : Guards (⟨w.session, chain, none⟩, h ++ []) :=
    hw.quiet [] rfl rfl (by simp) (by simp) (by simp)
  unfold Session.handleSignal
  by_cases hc : w.session.closed
  · rw [if_pos hc]
    exact hquiet
  rw [if_neg hc]
  have hclose : Guards (⟨w.session.close.session, chain, w.session.close.awaits⟩,
      h ++ w.session.close.events) := by
    unfold Session.close
    rw [if_neg hc]
    exact hw.quiet [] rfl rfl (by simp) (by simp) (by simp)
  cases payload with
  | offer sdp => exact hquiet
  | heartbeat => exact hquiet
  | unknown kind => exact hquiet
  | bye => exact hclose
  | peerLeft role => exact hclose
  | peerJoined role =>
    dsimp only
    split_ifs with hoff
    · exact hquiet
    · have hzero := hw.offers
      rw [if_neg hoff] at hzero
      constructor
      · simpa [Block.events, Await.call, List.countP_append] using hzero
      · simpa [Block.events, Await.call, List.countP_append, isApplied] using hw.applies
      · simp
      · simp
      · exact hw.adds.concat (by simp [added])
  | answer sdp =>
    dsimp only
    split_ifs with hset
    · exact hquiet
    · refine hw.quiet [.calls (.setRemoteDescription sdp)] rfl rfl (fun _ _ => by simpa using hset)
        (by simp) ?_
      simp [isApplied, added]
  | iceCandidate candidate idx mid =>
    dsimp only
    split_ifs with hset
    · refine hw.quiet [.calls (.addCandidate (nativeCandidate candidate idx mid))] rfl rfl (by simp)
        (by simp) ?_
      simp [isApplied, hset]
    · exact hw.quiet [] rfl rfl (by simp) (by simp) (by simp)

theorem guards_resume {w : World} {h : List Event} (hw : Guards (w, h)) {a : Await}
    (ha : w.running = some a) (sdp : String) :
    Guards (⟨(w.session.resume sdp a).session, w.chain, (w.session.resume sdp a).awaits⟩,
      h ++ ((a.call.map .completed).toList ++ (w.session.resume sdp a).events)) := by
  cases a with
  | createOffer =>
    refine hw.quiet [.completed .createOffer, .calls (.setLocalDescription sdp)] rfl rfl (by simp [Session.resume])
      (by simp [Session.resume]) ?_
    simp [isApplied, added]
  | setLocalDescription offer =>
    refine hw.quiet [.completed (.setLocalDescription offer), .sends (.offer offer)] rfl rfl
      (by simp [Session.resume]) (by simp [Session.resume]) ?_
    simp [isApplied, added]
  | setRemoteDescription remote =>
    rw [← List.append_assoc]
    exact (hw.apply ha).flush rfl 0 _
  | flush c next len =>
    have hset := hw.flushing c next len ha
    rw [← List.append_assoc]
    refine Guards.flush (r := none) (hw.quiet [.completed (.addCandidate c)] rfl rfl (by simp) (by simp) ?_)
      hset next len
    simp [isApplied, added]
  | addCandidate c =>
    refine hw.quiet [.completed (.addCandidate c)] rfl rfl (by simp [Session.resume])
      (by simp [Session.resume]) ?_
    simp [isApplied, added]
  | close => exact hw.quiet [] rfl rfl (by simp [Session.resume]) (by simp [Session.resume]) (by simp)

theorem guards_step (p : World × List Event) (l : Step) (hp : Guards p) :
    Guards (Run.record World.step p l) := by
  obtain ⟨w, h⟩ := p
  cases l with
  | deliver payload =>
    refine hp.quiet _ rfl rfl (hp.applying ·) (hp.flushing · · ·) fun e he => ?_
    obtain ⟨c, -, rfl⟩ := Option.map_eq_some_iff.1 (Option.mem_toList.1 he)
    simp [isApplied, added]
  | next =>
    cases hrun : w.running with
    | some a => simpa [Run.record, World.step, hrun] using hp
    | none =>
      cases hchain : w.chain with
      | nil => simpa [Run.record, World.step, hrun, hchain] using hp
      | cons payload chain =>
        simpa [Run.record, World.step, hrun, hchain] using guards_handle hp payload chain
  | completes sdp =>
    cases hrun : w.running with
    | none => simpa [Run.record, World.step, hrun] using hp
    | some a => simpa [Run.record, World.step, hrun] using guards_resume hp hrun sdp
  | throws => exact hp.quiet [] rfl rfl (by simp [World.step]) (by simp [World.step]) (by simp)
  | close =>
    have hkeeps : w.session.close.session.offerSent = w.session.offerSent ∧
        w.session.close.session.remoteDescriptionSet = w.session.remoteDescriptionSet := by
      unfold Session.close
      split_ifs <;> exact ⟨rfl, rfl⟩
    exact hp.quiet [] hkeeps.1 hkeeps.2 (hp.applying ·) (hp.flushing · · ·) (by simp)

theorem guards_init : Guards ({}, []) where
  offers := rfl
  applies := rfl
  applying := by simp
  flushing := by simp
  adds := Run.follows_nil

/-- Every run has one `createOffer` and one applied answer at most, and no `addCandidate` before it. -/
theorem guards_run (l : List Step) : Guards (run l) :=
  Run.invariant guards_step guards_init l

/-! ### The buffer -/

/-- Where the candidates received so far are: passed on, buffered, or waiting in the chain. -/
structure Buffered (w : World) (h : List Event) : Prop where
  waiting : w.session.remoteDescriptionSet = false → h.filterMap added = [] ∧
    w.session.pendingRemoteIce ++ w.chain.filterMap candidateOf = h.filterMap received
  flushing : ∀ c next len, w.running = some (.flush c next len) →
    w.session.pendingRemoteIce.length = len ∧ next ≤ len ∧
    h.filterMap added = w.session.pendingRemoteIce.take next ∧
    w.session.pendingRemoteIce ++ w.chain.filterMap candidateOf = h.filterMap received
  passing : w.session.remoteDescriptionSet = true →
    (∀ c next len, w.running ≠ some (.flush c next len)) →
    h.filterMap added ++ w.chain.filterMap candidateOf = h.filterMap received

/-- The guards hold, and until the session closes no candidate is lost. -/
structure Kept (p : World × List Event) : Prop where
  guards : Guards p
  buffered : p.1.session.closed = false → Buffered p.1 p.2

/-- A step that neither starts nor leaves the loop over the buffer and leaves what it holds. -/
theorem Buffered.quiet {w w' : World} {h evs : List Event} (hw : Buffered w h)
    (hset : w'.session.remoteDescriptionSet = w.session.remoteDescriptionSet)
    (hpend : w'.session.pendingRemoteIce = w.session.pendingRemoteIce)
    (hchain : w'.chain.filterMap candidateOf = w.chain.filterMap candidateOf)
    (hrun : ∀ c next len, w'.running = some (.flush c next len) ↔ w.running = some (.flush c next len))
    (hadd : evs.filterMap added = []) (hrec : evs.filterMap received = []) :
    Buffered w' (h ++ evs) := by
  constructor
  · intro hs
    rw [hset] at hs
    rw [hpend, hchain, List.filterMap_append, List.filterMap_append, hadd, hrec, List.append_nil,
      List.append_nil]
    exact hw.waiting hs
  · intro c next len hc
    rw [hpend, hchain, List.filterMap_append, List.filterMap_append, hadd, hrec, List.append_nil,
      List.append_nil]
    exact hw.flushing c next len ((hrun c next len).1 hc)
  · intro hs hnot
    rw [hset] at hs
    rw [hchain, List.filterMap_append, List.filterMap_append, hadd, hrec, List.append_nil,
      List.append_nil]
    exact hw.passing hs fun c next len hc => hnot c next len ((hrun c next len).2 hc)

/-- The loop goes on with what the buffer still holds. -/
theorem Buffered.flush {s : Session} {chain : List SignalPayload} {h : List Event} {n : ℕ}
    (hset : s.remoteDescriptionSet = true)
    (hadd : h.filterMap added = s.pendingRemoteIce.take n)
    (hrec : s.pendingRemoteIce ++ chain.filterMap candidateOf = h.filterMap received) :
    Buffered ⟨(s.flush n s.pendingRemoteIce.length).session, chain,
      (s.flush n s.pendingRemoteIce.length).awaits⟩
      (h ++ (s.flush n s.pendingRemoteIce.length).events) := by
  rcases flush_cases s n s.pendingRemoteIce.length with ⟨hne, -⟩ | ⟨-, hle, hs⟩ | ⟨-, c, hc, hs⟩
  · exact absurd rfl hne
  · rw [hs]
    constructor
    · simp [hset]
    · simp
    · intro _ _
      rw [List.take_of_length_le hle] at hadd
      simpa [Block.events, hadd] using hrec
  · obtain ⟨hlt, hget⟩ := List.getElem?_eq_some_iff.1 hc
    rw [hs]
    constructor
    · simp [hset]
    · intro c' n' len' heq
      obtain ⟨rfl, rfl, rfl⟩ := Await.flush.inj (Option.some.inj heq)
      refine ⟨rfl, hlt, ?_, ?_⟩
      · rw [List.filterMap_append, hadd, ← hget, ← List.take_append_getElem hlt]
        rfl
      · rw [List.filterMap_append]
        simpa [Block.events, Await.call, received, List.filterMap_cons] using hrec
    · intro _ hnot
      exact absurd rfl (hnot c (n + 1) _)

/-- The first envelope of the chain brings no candidate and its handler suspends outside the loop, or
ends. -/
theorem Buffered.start {w : World} {h : List Event} (hw : Buffered w h) {payload : SignalPayload}
    {chain : List SignalPayload} (hchain : w.chain = payload :: chain) (hidle : w.running = none)
    (hcand : candidateOf payload = none) {s' : Session} {r : Option Await} {evs : List Event}
    (hset : s'.remoteDescriptionSet = w.session.remoteDescriptionSet)
    (hpend : s'.pendingRemoteIce = w.session.pendingRemoteIce)
    (hrun : ∀ c next len, r ≠ some (.flush c next len)) (hadd : evs.filterMap added = [])
    (hrec : evs.filterMap received = []) : Buffered ⟨s', chain, r⟩ (h ++ evs) := by
  refine hw.quiet hset hpend ?_ (fun c next len => ?_) hadd hrec
  · rw [hchain, List.filterMap_cons, hcand]
  · rw [hidle]
    exact ⟨fun hr => absurd hr (hrun c next len), nofun⟩

/-- Handling an envelope does not open a closed session. -/
theorem open_of_handle {s : Session} {payload : SignalPayload}
    (h : (s.handleSignal payload).session.closed = false) : s.closed = false := by
  by_contra hc
  unfold Session.handleSignal at h
  rw [if_pos (by simpa using hc)] at h
  exact hc h

theorem closed_close (s : Session) : s.close.session.closed = true := by
  unfold Session.close
  split_ifs with hc
  · exact hc
  · rfl

theorem closed_resume (s : Session) (sdp : String) (a : Await) :
    (s.resume sdp a).session.closed = s.closed := by
  have hflush (s : Session) (next len : ℕ) : (s.flush next len).session.closed = s.closed := by
    rcases flush_cases s next len with ⟨-, hs⟩ | ⟨-, -, hs⟩ | ⟨-, c, -, hs⟩ <;> rw [hs]
  cases a with
  | setRemoteDescription remote => exact hflush _ _ _
  | flush c next len => exact hflush _ _ _
  | _ => rfl

theorem buffered_handle {w : World} {h : List Event} (hw : Buffered w h) {payload : SignalPayload}
    {chain : List SignalPayload} (hchain : w.chain = payload :: chain) (hidle : w.running = none)
    (hopen : w.session.closed = false)
    (hopen' : (w.session.handleSignal payload).session.closed = false) :
    Buffered ⟨(w.session.handleSignal payload).session, chain, (w.session.handleSignal payload).awaits⟩
      (h ++ (w.session.handleSignal payload).events) := by
  have hcloses := closed_close w.session
  unfold Session.handleSignal at hopen' ⊢
  rw [if_neg (by simp [hopen])] at hopen' ⊢
  cases payload with
  | offer sdp => exact hw.start hchain hidle rfl rfl rfl nofun rfl rfl
  | heartbeat => exact hw.start hchain hidle rfl rfl rfl nofun rfl rfl
  | unknown kind => exact hw.start hchain hidle rfl rfl rfl nofun rfl rfl
  | bye => rw [hcloses] at hopen'; cases hopen'
  | peerLeft role => rw [hcloses] at hopen'; cases hopen'
  | peerJoined role =>
    dsimp only
    split_ifs
    · exact hw.start hchain hidle rfl rfl rfl nofun rfl rfl
    · exact hw.start hchain hidle rfl rfl rfl (by simp) rfl rfl
  | answer sdp =>
    dsimp only
    split_ifs
    · exact hw.start hchain hidle rfl rfl rfl nofun rfl rfl
    · exact hw.start hchain hidle rfl rfl rfl (by simp) rfl rfl
  | iceCandidate candidate idx mid =>
    have hcands : w.chain.filterMap candidateOf =
        nativeCandidate candidate idx mid :: chain.filterMap candidateOf := by
      rw [hchain, List.filterMap_cons]
      rfl
    dsimp only
    split_ifs with hset
    · -- passed on at once
      have hpass := hw.passing hset (by simp [hidle])
      rw [hcands] at hpass
      constructor
      · simp [hset]
      · simp
      · intro _ _
        simpa [Block.events, Await.call, added, received, List.filterMap_cons] using hpass
    · -- buffered
      have hset' : w.session.remoteDescriptionSet = false := by simpa using hset
      obtain ⟨hadd, hrec⟩ := hw.waiting hset'
      rw [hcands] at hrec
      constructor
      · intro _
        refine ⟨?_, ?_⟩
        · rw [List.filterMap_append, hadd]
          rfl
        · simpa [Block.events] using hrec
      · simp
      · simp [hset']

theorem buffered_resume {w : World} {h : List Event} (hg : Guards (w, h)) (hw : Buffered w h)
    {a : Await} (ha : w.running = some a) (sdp : String) :
    Buffered ⟨(w.session.resume sdp a).session, w.chain, (w.session.resume sdp a).awaits⟩
      (h ++ ((a.call.map .completed).toList ++ (w.session.resume sdp a).events)) := by
  cases a with
  | createOffer => exact hw.quiet rfl rfl rfl (by simp [Session.resume, ha]) rfl rfl
  | setLocalDescription offer => exact hw.quiet rfl rfl rfl (by simp [Session.resume, ha]) rfl rfl
  | addCandidate c => exact hw.quiet rfl rfl rfl (by simp [Session.resume, ha]) rfl rfl
  | close => exact hw.quiet rfl rfl rfl (by simp [Session.resume, ha]) rfl rfl
  | setRemoteDescription remote =>
    obtain ⟨hadd, hrec⟩ := hw.waiting (hg.applying remote ha)
    rw [← List.append_assoc]
    refine Buffered.flush (n := 0) rfl ?_ ?_
    · rw [List.filterMap_append, hadd]
      rfl
    · rw [List.filterMap_append, ← hrec]
      simp [Await.call, received]
  | flush c next len =>
    obtain ⟨hlen, -, hadd, hrec⟩ := hw.flushing c next len ha
    subst hlen
    rw [← List.append_assoc]
    refine Buffered.flush (hg.flushing c next _ ha) ?_ ?_
    · rw [List.filterMap_append, hadd]
      simp [Await.call, added]
    · rw [List.filterMap_append, hrec]
      simp [Await.call, received]

/-- The handler ends with an error: in the loop, on its last candidate. -/
theorem Buffered.throws {w : World} {h : List Event} (hw : Buffered w h)
    (hflush : flushesAll (w, h) .throws = true) : Buffered { w with running := none } h := by
  constructor
  · exact hw.waiting
  · simp
  · intro hset _
    by_cases hloop : ∃ c next len, w.running = some (.flush c next len)
    · obtain ⟨c, next, len, hrun⟩ := hloop
      obtain ⟨hlen, -, hadd, hrec⟩ := hw.flushing c next len hrun
      simp only [flushesAll, hrun, decide_eq_true_eq] at hflush
      rw [hadd, hflush, ← hlen, List.take_length]
      exact hrec
    · exact hw.passing hset fun c next len hrun => hloop ⟨c, next, len, hrun⟩

theorem kept_step (p : World × List Event) (l : Step) (hp : Kept p) (hl : flushesAll p l = true) :
    Kept (Run.record World.step p l) := by
  refine ⟨guards_step p l hp.guards, fun hopen => ?_⟩
  obtain ⟨w, h⟩ := p
  cases l with
  | deliver payload =>
    have hw := hp.buffered hopen
    have hadd : (h ++ ((candidateOf payload).map Event.received).toList).filterMap added =
        h.filterMap added := by
      cases candidateOf payload <;> simp [added, List.filterMap_cons]
    have hrec : (h ++ ((candidateOf payload).map Event.received).toList).filterMap received =
        h.filterMap received ++ [payload].filterMap candidateOf := by
      cases hc : candidateOf payload <;> simp [received, hc]
    simp only [Run.record, World.step]
    constructor
    · intro hset
      obtain ⟨hadd', hrec'⟩ := hw.waiting hset
      rw [hadd, hrec, List.filterMap_append, ← List.append_assoc, hrec']
      exact ⟨hadd', rfl⟩
    · intro c next len hc
      obtain ⟨hlen, hnext, hadd', hrec'⟩ := hw.flushing c next len hc
      rw [hadd, hrec, List.filterMap_append, ← List.append_assoc, hrec']
      exact ⟨hlen, hnext, hadd', rfl⟩
    · intro hset hnot
      rw [hadd, hrec, List.filterMap_append, ← List.append_assoc, hw.passing hset hnot]
  | next =>
    cases hrun : w.running with
    | some a =>
      simp only [Run.record, World.step, hrun, List.append_nil] at hopen ⊢
      exact hp.buffered hopen
    | none =>
      cases hchain : w.chain with
      | nil =>
        simp only [Run.record, World.step, hrun, hchain, List.append_nil] at hopen ⊢
        exact hp.buffered hopen
      | cons payload chain =>
        simp only [Run.record, World.step, hrun, hchain] at hopen ⊢
        have hopen' := open_of_handle hopen
        exact buffered_handle (hp.buffered hopen') hchain hrun hopen' hopen
  | completes sdp =>
    cases hrun : w.running with
    | none =>
      simp only [Run.record, World.step, hrun, List.append_nil] at hopen ⊢
      exact hp.buffered hopen
    | some a =>
      simp only [Run.record, World.step, hrun] at hopen ⊢
      rw [closed_resume] at hopen
      exact buffered_resume hp.guards (hp.buffered hopen) hrun sdp
  | throws =>
    simp only [Run.record, World.step, List.append_nil]
    exact (hp.buffered hopen).throws hl
  | close =>
    have hclosed : w.session.close.session.closed = false := hopen
    rw [closed_close] at hclosed
    cases hclosed

theorem kept_init : Kept ({}, []) where
  guards := guards_init
  buffered := by
    intro _
    constructor <;> simp

/-- In every run in which no `addCandidate` of the loop over `_pendingRemoteIce` throws while a buffered
candidate is left, the guards hold and no candidate is lost. -/
theorem negotiates_of_flushesAll (l : List Step)
    (h : Run.Guarded (Run.record World.step) (fun p l => flushesAll p l = true) ({}, []) l) :
    Negotiates (run l) := by
  have hkept : Kept (run l) := h.invariant kept_step kept_init
  generalize run l = p at hkept
  obtain ⟨w, hist⟩ := p
  constructor
  · rw [hkept.guards.offers]
    split_ifs <;> omega
  · rw [hkept.guards.applies]
    split_ifs <;> omega
  · exact hkept.guards.adds
  · rintro ⟨hchain, hrun⟩ ⟨e, he, happ⟩ hopen
    dsimp only at hchain hrun
    have hset : w.session.remoteDescriptionSet = true := by
      by_contra hset
      have hzero := hkept.guards.applies
      rw [if_neg hset] at hzero
      exact List.countP_eq_zero.1 hzero e he happ
    have hpass := (hkept.buffered hopen).passing hset (by simp [hrun])
    simpa [hchain] using hpass

/-! ### A lost candidate -/

def sampleCandidate (n : ℤ) : SignalPayload := .iceCandidate "candidate" n none

/-- Two candidates arrive, then the answer; `addCandidate` of the first throws. -/
def failingFlush : List Step :=
  [.deliver (.peerJoined "agent"), .next, .completes "offer", .completes "",
    .deliver (sampleCandidate 0), .deliver (sampleCandidate 1), .deliver (.answer "answer"),
    .next, .next, .next, .completes "", .throws]

theorem lost_candidate : ¬ Negotiates (run failingFlush) := by
  intro h
  have hall := h.addsAll (by decide) (by decide) (by decide)
  exact absurd hall (by decide)

/-- The same, but only the last of them throws; a third candidate arrives after the answer. -/
def flushingLast : List Step :=
  [.deliver (.peerJoined "agent"), .next, .completes "offer", .completes "",
    .deliver (sampleCandidate 0), .deliver (sampleCandidate 1), .deliver (.answer "answer"),
    .next, .next, .next, .completes "", .completes "", .throws, .deliver (sampleCandidate 2), .next,
    .throws]

theorem negotiates_flushingLast : Negotiates (run flushingLast) :=
  negotiates_of_flushesAll flushingLast (by decide)

end DeskSync.Viewer
