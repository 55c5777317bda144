import DeskSync.Signaling.Store

/-!
# Soundness of the hub

However the sections of any number of connections interleave, the map and the peers stay as the hub
needs them, and no queue is closed twice or written to after it was closed: `hub_sound`. That a room
holds at most one peer for each role is the type of `Room`.
-/

namespace DeskSync.Signaling

open Proc

variable {Raw : Type} {c : Codec Raw}

structure Sound (p : World Raw × List (Event Raw)) : Prop where
  occupied : ∀ sessionID r, p.1.store.rooms sessionID = some r → ∃ role q, r role = some q
  keys : ∀ sessionID r role q, p.1.store.rooms sessionID = some r → r role = some q →
    q.sessionID = sessionID ∧ q.role = role
  opened : ∀ sessionID r role q, p.1.store.rooms sessionID = some r → r role = some q →
    ∃ st, p.1.store.peers[q.id]? = some st ∧ st.closed = false
  neverAgain : ∀ q, .closed q ∈ p.2 → ∀ sessionID r role q', p.1.store.rooms sessionID = some r →
    r role = some q' → q'.id ≠ q.id
  nothingAfterClose : Run.Follows (fun h e => ∀ i q msg sender, e = .put i q msg sender →
    ∀ q', .closed q' ∈ h → q'.id ≠ q.id) p.2
  closedOnce : Run.Follows (fun h e => ∀ q, e = .closed q → ∀ q', .closed q' ∈ h → q'.id ≠ q.id) p.2
  calm : p.1.store.panicked = false

/-! ### The invariant -/

/-- The stages fit the connections, what a connection is about to close is out of the map, and what was
closed stays closed and out of it. -/
structure Kept (c : Codec Raw) (X : ℕ → Stage Raw) (p : World Raw × List (Event Raw)) : Prop where
  staged : Staged c p.1 X
  rep : Represents p.1.store
  leaving : ∀ i q rest phase g, X i = .up q rest phase (some g) → Gone p.1.store g
  closed : ∀ q, .closed q ∈ p.2 → Shut p.1.store q ∧ Gone p.1.store q

theorem put_not_shut {s : Store Raw} {q : Peer} {msg : Raw} (h : (s.enqueue q msg).1 = true) :
    ¬ Shut s q := by
  rintro ⟨st, hst, hc⟩
  simp [Store.enqueue, hst, hc] at h

/-- What an event says about the section it happens in. -/
theorem eventOf_closed {i : ℕ} {a : Access Raw} {s : Store Raw} {q : Peer}
    (h : eventOf i a s = some (.closed q)) :
    a = .close q ∧ ∃ st, s.peers[q.id]? = some st ∧ st.closed = false := by
  cases a with
  | close p =>
    simp only [eventOf] at h
    split at h
    · rename_i st hst
      split_ifs at h with hc
      obtain rfl := Event.closed.inj (Option.some.inj h)
      exact ⟨rfl, st, hst, by simpa using hc⟩
    · cases h
  | join sessionID role => simp [eventOf] at h
  | leave p => simp [eventOf] at h
  | target sender => simp [eventOf] at h
  | enqueue p msg sender => simp [eventOf] at h
  | accept p nonce => simp [eventOf] at h
  | read p => simp [eventOf] at h

theorem eventOf_put {i j : ℕ} {a : Access Raw} {s : Store Raw} {q : Peer} {msg : Raw}
    {sender : Option Peer} (h : eventOf i a s = some (.put j q msg sender)) :
    j = i ∧ a = .enqueue q msg sender ∧ (s.enqueue q msg).1 = true := by
  cases a with
  | enqueue p m snd =>
    simp only [eventOf] at h
    split_ifs at h with hput
    obtain ⟨rfl, rfl, rfl, rfl⟩ := Event.put.inj (Option.some.inj h)
    exact ⟨rfl, rfl, hput⟩
  | close p =>
    simp only [eventOf] at h
    split at h
    · split_ifs at h
      cases h
    · cases h
  | join sessionID role => simp [eventOf] at h
  | leave p => simp [eventOf] at h
  | target sender => simp [eventOf] at h
  | accept p nonce => simp [eventOf] at h
  | read p => simp [eventOf] at h

theorem represents_exec {s : Store Raw} (hs : Represents s) {x x' : Stage Raw} {a : Access Raw}
    (hnext : Next c x a (exec () a s).1 x')
    (hgone : ∀ q rest phase g, x = .up q rest phase (some g) → Gone s g) :
    Represents (exec () a s).2 := by
  cases a with
  | join sessionID role => exact represents_join hs sessionID role
  | leave p => exact represents_leave hs p
  | target sender => exact hs
  | enqueue p msg sender => exact hs.quiet (quiet_enqueue hs p msg)
  | close p =>
    cases hnext with
    | closes q rest phase => exact represents_close hs (hgone q rest phase p rfl)
  | accept p nonce => exact hs.quiet (quiet_accept s p nonce)
  | read p => exact hs

/-- The only stage that is about to close a peer follows a `Leave` that took it out of the map. -/
theorem gone_next {s : Store Raw} (hs : Represents s) {x : Stage Raw} {a : Access Raw} {q g : Peer}
    {rest : List Raw} {phase : Phase Raw}
    (hnext : Next c x a (exec () a s).1 (.up q rest phase (some g))) : Gone (exec () a s).2 g := by
  generalize hr : (exec () a s).1 = r at hnext
  cases hnext with
  | removes q rest phase p other => exact gone_leave hs hr

theorem shut_close {s : Store Raw} (hs : Represents s) {q : Peer}
    (h : ∃ st, s.peers[q.id]? = some st ∧ st.closed = false) : Shut (s.close q) q := by
  obtain ⟨st, hst, hopen⟩ := h
  rcases close_cases hs q with ⟨-, hc⟩ | ⟨st', hst', -, hclose⟩
  · rw [hc st hst] at hopen
    cases hopen
  · rw [hclose]
    exact ⟨_, List.getElem?_set_self (List.getElem?_eq_some_iff.1 hst').1, rfl⟩

/-- A step that leaves the stages of the connections, or starts one. -/
theorem Kept.quiet {X X' : ℕ → Stage Raw} {w w' : World Raw} {h : List (Event Raw)}
    (hp : Kept c X (w, h)) (hw : Quiet w.store w'.store) (hst : Staged c w' X')
    (hX : ∀ i q rest phase g, X' i = .up q rest phase (some g) → X i = .up q rest phase (some g)) :
    Kept c X' (w', h) where
  staged := hst
  rep := hp.rep.quiet hw
  leaving := fun i q rest phase g hi => (hp.leaving i q rest phase g (hX i q rest phase g hi)).quiet hw
  closed := fun q hq => ⟨(hp.closed q hq).1.quiet hw, (hp.closed q hq).2.quiet hw⟩

/-- A step that runs the next section of a connection. -/
theorem Kept.advance {X : ℕ → Stage Raw} {w w' : World Raw} {h : List (Event Raw)}
    (hp : Kept c X (w, h)) {i : ℕ} {a : Access Raw} {x' : Stage Raw}
    {threads : List (Thread (Request Raw) (@Reply Raw) Unit)}
    (hw : w' = ⟨(exec () a w.store).2, threads⟩)
    (hnext : Next c (X i) a (exec () a w.store).1 x')
    (hst : Staged c w' (Function.update X i x')) :
    Kept c (Function.update X i x') (w', h ++ (eventOf i a w.store).toList) := by
  refine ⟨hst, ?_, fun j q' rest phase g hj => ?_, fun g hg => ?_⟩
  · rw [hw]
    exact represents_exec hp.rep hnext (hp.leaving i)
  · rw [hw]
    rw [Function.update_apply] at hj
    split_ifs at hj
    · subst hj
      exact gone_next hp.rep hnext
    · exact gone_exec hp.rep (hp.leaving j q' rest phase g hj) a
  · rw [hw]
    rcases List.mem_append.1 hg with hg | hg
    · exact ⟨shut_exec hp.rep (hp.closed g hg).1 a, gone_exec hp.rep (hp.closed g hg).2 a⟩
    · obtain ⟨rfl, hopen⟩ := eventOf_closed (Option.mem_toList.1 hg)
      refine ⟨shut_close hp.rep hopen, ?_⟩
      generalize hx : X i = x at hnext
      cases hnext with
      | closes q' rest phase => exact gone_exec hp.rep (hp.leaving i q' rest phase g hx) _

theorem kept_step {X : ℕ → Stage Raw} {p : World Raw × List (Event Raw)} (hp : Kept c X p)
    (l : Step Raw) : ∃ X', Kept c X' (Run.observe (hub c).step event p l) := by
  obtain ⟨w, h⟩ := p
  unfold Run.observe
  rcases step_cases hp.staged (addressed_exec hp.rep) l with
    ⟨hw, hev⟩ | ⟨q, hw, hev, hst⟩ | ⟨id, hw, hev, hst⟩ | ⟨i, q, a, k, x', -, hi, hw, hev, hnext, hst⟩
  · rw [hw, hev, Option.toList_none, List.append_nil]
    exact ⟨X, hp⟩
  · rw [hev, Option.toList_none, List.append_nil]
    refine ⟨_, hp.quiet (hw ▸ .refl _) hst fun i q' rest phase g hi => ?_⟩
    rw [Function.update_apply] at hi
    split_ifs at hi
    · cases hi
    · exact hi
  · rw [hev, Option.toList_none, List.append_nil]
    exact ⟨_, hp.quiet (hw ▸ quiet_drain w.store id) hst fun _ _ _ _ _ hi => hi⟩
  · rw [hev]
    exact ⟨_, hp.advance hw hnext hst⟩

theorem kept_run (c : Codec Raw) (l : List (Step Raw)) : ∃ X, Kept c X (run c l) := by
  refine Run.invariant (I := fun p : World Raw × List (Event Raw) => ∃ X, Kept c X p) ?_ ?_ l
  · rintro p l ⟨X, hp⟩
    exact kept_step hp l
  · refine ⟨noStages, staged_fresh c, represents_empty, ?_, ?_⟩
    · intro i q rest phase g hi
      cases hi
    · simp

/-! ### The result -/

theorem registered_of_room {s : Store Raw} {sessionID : String} {r : Room} {role : Role} {q : Peer}
    (hr : s.rooms sessionID = some r) (hq : r role = some q) :
    s.registered sessionID role = some q := by
  rw [Store.registered, hr]
  exact hq

/-- An event is the one of the section that a connection runs. -/
theorem event_section {w : World Raw} {l : Step Raw} {e : Event Raw} (h : event w l = some e) :
    ∃ i a, eventOf i a w.store = some e := by
  cases l with
  | spawn q e => cases h
  | env id => cases h
  | advance i e =>
    simp only [event] at h
    split at h
    · exact ⟨i, _, h⟩
    · cases h

/-- Every run of the hub is sound. -/
theorem hub_sound (c : Codec Raw) (l : List (Step Raw)) : Sound (run c l) := by
  obtain ⟨X, hkept⟩ := kept_run c l
  have hrep := hkept.rep
  have hfollows : Run.Follows (fun (h : List (Event Raw)) e =>
      (∀ i q msg sender, e = .put i q msg sender → ∀ q', .closed q' ∈ h → q'.id ≠ q.id) ∧
      (∀ q, e = .closed q → ∀ q', .closed q' ∈ h → q'.id ≠ q.id)) (run c l).2 := by
    refine Run.follows_observe
      (K := fun p : World Raw × List (Event Raw) => ∃ X, Kept c X p) ?_ ?_ ?_ l
    · rintro p l ⟨X, hp⟩
      exact kept_step hp l
    · rintro ⟨w, h⟩ l ⟨X, hp⟩ e he
      obtain ⟨i, a, hev⟩ := event_section he
      constructor
      · rintro j q msg sender rfl q' hq' hid
        obtain ⟨-, -, hput⟩ := eventOf_put hev
        obtain ⟨st, hst, hc⟩ := (hp.closed q' hq').1
        exact put_not_shut hput ⟨st, hid ▸ hst, hc⟩
      · rintro q rfl q' hq' hid
        obtain ⟨-, st, hst, hopen⟩ := eventOf_closed hev
        obtain ⟨st', hst', hc⟩ := (hp.closed q' hq').1
        rw [hid, hst] at hst'
        obtain rfl := Option.some.inj hst'
        rw [hopen] at hc
        cases hc
    · exact kept_run c []
  constructor
  · intro sessionID r hr
    obtain ⟨role, q, hq⟩ := hrep.occupied sessionID (by simp [hr])
    rw [Store.registered, hr] at hq
    exact ⟨role, q, hq⟩
  · exact fun sessionID r role q hr hq => hrep.keys _ _ _ (registered_of_room hr hq)
  · intro sessionID r role q hr hq
    have hreg := registered_of_room hr hq
    have hlt := hrep.bound _ _ _ hreg
    refine ⟨_, List.getElem?_eq_getElem hlt, ?_⟩
    exact hrep.opened _ _ _ hreg _ (List.getElem?_eq_getElem hlt)
  · exact fun q hq sessionID r role q' hr hq' =>
      (hkept.closed q hq).2.2 _ _ _ (registered_of_room hr hq')
  · exact hfollows.mono fun h e he => he.1
  · exact hfollows.mono fun h e he => he.2
  · exact hrep.calm

end DeskSync.Signaling
