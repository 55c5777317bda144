import DeskSync.Signaling.Relay
import DeskSync.Signaling.Json

/-!
# Peers that have been removed

A peer is out of the map after its own `Leave`, or after another connection has found its queue full and
dropped it. In the first case its connection has ended. In the second its reader goes on, and what it
reads is still relayed to the other peer: `dropped_peer_relays`.

`silenced_of_heeds`: if a connection whose peer was removed before it read its message finds no other
peer to relay it to, nothing it reads after the removal is delivered.
-/

namespace DeskSync.Signaling

open Proc

variable {Raw : Type} {c : Codec Raw}

def removes (p : Peer) : Event Raw → Bool
  | .removed q => q = p
  | _ => false

def reads (i : ℕ) : Event Raw → Bool
  | .read j => j = i
  | _ => false

/-- The connection `i` has read a message after `p` was removed. -/
def readAfter (i : ℕ) (p : Peer) : List (Event Raw) → Bool
  | [] => false
  | e :: h => (removes p e && h.any (reads i)) || readAfter i p h

/-- No message is delivered that the connection of a peer has read after that peer was removed. -/
def Silenced (h : List (Event Raw)) : Prop :=
  Run.Follows (fun h e => ∀ i q msg sender, e = .put i q msg (some sender) →
    readAfter i sender h = false) h

/-- A connection that relays what it has read after its peer was removed finds no one to relay it to. -/
def Heeds (p : World Raw × List (Event Raw)) : Step Raw → Prop
  | .advance i _ =>
    match p.1.threads[i]? with
    | some ⟨_, .call (.target sender) _⟩ =>
      readAfter i sender p.2 = true → (p.1.store.target sender).isNone
    | _ => True
  | _ => True

instance (p : World Raw × List (Event Raw)) (l : Step Raw) : Decidable (Heeds p l) := by
  unfold Heeds
  split
  · split <;> infer_instance
  · infer_instance

theorem readAfter_append (i : ℕ) (p : Peer) (h h' : List (Event Raw)) :
    readAfter i p (h ++ h') =
      (readAfter i p h || (h.any (removes p) && h'.any (reads i)) || readAfter i p h') := by
  induction h with
  | nil => simp [readAfter]
  | cons e h ih =>
    simp only [List.cons_append, readAfter, ih, List.any_append, List.any_cons]
    cases removes p e <;> cases h.any (reads i) <;> cases h'.any (reads i) <;>
      cases h.any (removes p) <;> simp

theorem eventOf_read {i j : ℕ} {a : Access Raw} {s : Store Raw} (h : eventOf i a s = some (.read j)) :
    j = i ∧ ∃ p, a = .read p := by
  cases a with
  | read p =>
    obtain rfl := Event.read.inj (Option.some.inj h)
    exact ⟨rfl, p, rfl⟩
  | close p =>
    simp only [eventOf] at h
    split at h
    · split_ifs at h
      cases h
    · cases h
  | enqueue p msg sender =>
    simp only [eventOf] at h
    split_ifs at h
    cases h
  | join sessionID role => simp [eventOf] at h
  | leave p => simp [eventOf] at h
  | target sender => simp [eventOf] at h
  | accept p nonce => simp [eventOf] at h

/-- Only a read of the connection makes it one that has read after the removal. -/
theorem readAfter_eventOf {i j : ℕ} {a : Access Raw} {s : Store Raw} {p : Peer} {h : List (Event Raw)}
    (hread : readAfter i p h = false) (ha : i = j → ∀ q, a ≠ .read q) :
    readAfter i p (h ++ (eventOf j a s).toList) = false := by
  have hnone : (eventOf j a s).toList.any (reads i) = false := by
    cases he : eventOf j a s with
    | none => rfl
    | some e =>
      cases e with
      | read k =>
        obtain ⟨rfl, q, rfl⟩ := eventOf_read he
        have hne : ¬ k = i := fun heq => ha heq.symm q rfl
        simp [reads, hne]
      | _ => rfl
  have hlast : readAfter i p (eventOf j a s).toList = false := by
    cases eventOf j a s <;> simp [readAfter]
  rw [readAfter_append, hread, hnone, hlast]
  simp

/-! ### The invariant -/

/-- A connection that is relaying a message has read it before its peer was removed, if that was. -/
structure Heeding (c : Codec Raw) (X : ℕ → Stage Raw) (p : World Raw × List (Event Raw)) : Prop where
  kept : Kept c X p
  relaying : ∀ i q rest t raw gone, X i = .up q rest (.relaying t raw) gone →
    readAfter i q p.2 = false

theorem Heeding.advance {X : ℕ → Stage Raw} {w w' : World Raw} {h : List (Event Raw)}
    (hp : Heeding c X (w, h)) {i : ℕ} {a : Access Raw} {x' : Stage Raw}
    (hnext : Next c (X i) a (exec () a w.store).1 x')
    (hkept : Kept c (Function.update X i x') (w', h ++ (eventOf i a w.store).toList))
    (hheeds : ∀ sender, a = .target sender → readAfter i sender h = true →
      w.store.target sender = none) :
    Heeding c (Function.update X i x') (w', h ++ (eventOf i a w.store).toList) := by
  refine ⟨hkept, fun j q rest t raw gone hj => ?_⟩
  by_cases hji : j = i
  · subst hji
    rw [Function.update_self] at hj
    subst hj
    generalize hx : X j = x at hnext
    generalize hr : (exec () a w.store).1 = r at hnext
    cases hnext with
    | targets p rest raw env t henv hkind ht =>
      -- it has just found someone, so it had no reason not to
      have hread : readAfter j q h = false := by
        rw [Bool.eq_false_iff]
        intro htrue
        have hnone : w.store.target q = none := hheeds q rfl htrue
        have hr : w.store.target q = some t := hr
        rw [hnone] at hr
        cases hr
      exact readAfter_eventOf hread (by simp)
    | announces p rest phase o msg r hc => exact readAfter_eventOf (hp.relaying _ _ _ _ _ _ hx) (by simp)
    | finds p rest phase q => exact readAfter_eventOf (hp.relaying _ _ _ _ _ _ hx) (by simp)
    | removes p rest phase q other => exact readAfter_eventOf (hp.relaying _ _ _ _ _ _ hx) (by simp)
    | closes p rest phase q => exact readAfter_eventOf (hp.relaying _ _ _ _ _ _ hx) (by simp)
  · rw [Function.update_of_ne hji] at hj
    exact readAfter_eventOf (hp.relaying j q rest t raw gone hj) fun heq => absurd heq hji

theorem heeding_step {X : ℕ → Stage Raw} {p : World Raw × List (Event Raw)} (hp : Heeding c X p)
    (l : Step Raw) (hl : Heeds p l) : ∃ X', Heeding c X' (Run.observe (hub c).step event p l) := by
  obtain ⟨w, h⟩ := p
  unfold Run.observe
  rcases step_cases hp.kept.staged (addressed_exec hp.kept.rep) l with
    ⟨hw, hev⟩ | ⟨q, hw, hev, hst⟩ | ⟨id, hw, hev, hst⟩ | ⟨i, q, a, k, x', rfl, hi, hw, hev, hnext, hst⟩
  · rw [hw, hev, Option.toList_none, List.append_nil]
    exact ⟨X, hp⟩
  · rw [hev, Option.toList_none, List.append_nil]
    have hup (i : ℕ) (q' : Peer) (rest : List Raw) (phase : Phase Raw) (g : Option Peer)
        (hi : Function.update X w.threads.length q.initial i = .up q' rest phase g) :
        X i = .up q' rest phase g := by
      rw [Function.update_apply] at hi
      split_ifs at hi
      · cases hi
      · exact hi
    exact ⟨_, hp.kept.quiet (hw ▸ .refl _) hst fun i q' rest phase g => hup i q' rest phase (some g),
      fun i q' rest t raw gone hi => hp.relaying i q' rest t raw gone (hup _ _ _ _ _ hi)⟩
  · rw [hev, Option.toList_none, List.append_nil]
    exact ⟨X, hp.kept.quiet (hw ▸ quiet_drain w.store id) hst fun _ _ _ _ _ hi => hi, hp.relaying⟩
  · rw [hev]
    refine ⟨_, hp.advance hnext (hp.kept.advance hw hnext hst) fun sender ha hread => ?_⟩
    subst ha
    simp only [Heeds, hi] at hl
    exact Option.isNone_iff_eq_none.1 (hl hread)

/-! ### The result -/

/-- A run in which no connection relays what it has read after its peer was removed to someone it finds
delivers nothing of it. -/
theorem silenced_of_heeds (c : Codec Raw) {l : List (Step Raw)}
    (h : Run.Guarded (Run.observe (hub c).step event) Heeds (fresh, []) l) :
    Silenced (run c l).2 := by
  refine h.follows (K := fun p : World Raw × List (Event Raw) => ∃ X, Heeding c X p) ?_ ?_ ?_
  · rintro p l ⟨X, hp⟩ hl
    exact heeding_step hp l hl
  · rintro ⟨w, h⟩ l ⟨X, hp⟩ - e he i q msg sender rfl
    rcases step_cases hp.kept.staged (addressed_exec hp.kept.rep) l with
      ⟨-, hev⟩ | ⟨-, -, hev, -⟩ | ⟨-, -, hev, -⟩ | ⟨j, req, a, k, x', -, -, -, hev, hnext, -⟩
    · rw [hev] at he
      cases he
    · rw [hev] at he
      cases he
    · rw [hev] at he
      cases he
    · rw [hev] at he
      obtain ⟨rfl, rfl, -⟩ := eventOf_put he
      generalize hx : X i = x at hnext
      cases hnext with
      | relays p rest raw t r => exact hp.relaying _ _ _ _ _ _ hx
  · exact ⟨noStages, ⟨staged_fresh c, represents_empty, nofun, by simp⟩, nofun⟩

/-- The phone leaves and comes back, and the agent answers it. -/
def rejoins : List (Step Json) :=
  [.spawn (.serve "s1" .agent [.text (message 0 [("kind", .str "answer"), ("sdp", .str "sdp")])]) (),
    .advance 0 (), .spawn (.serve "s1" .controller [.text (message 0 [("kind", .str "bye")])]) ()] ++
    List.replicate 10 (.advance 1 ()) ++
    [.spawn (.serve "s1" .controller []) (), .advance 2 (), .advance 2 (), .advance 2 ()] ++
    List.replicate 4 (.advance 0 ())

theorem silenced_rejoins : Silenced (run (codec Json.documents) rejoins).2 :=
  silenced_of_heeds _ (by decide +kernel)

/-! ### A dropped peer -/

/-- The agent does not take its messages. The phone sends one candidate more than its queue holds, which
drops the agent, and only then the agent answers. -/
def drops : List (Step Json) :=
  [.spawn (.serve "s1" .agent [.text (message 0 [("kind", .str "answer"), ("sdp", .str "sdp")])]) (),
    .advance 0 (),
    .spawn (.serve "s1" .controller ((List.range outboundBuffer).map fun n =>
      .text (message n [("kind", .str "ice_candidate")]))) ()] ++
    List.replicate (3 + 4 * outboundBuffer + 3) (.advance 1 ()) ++ List.replicate 4 (.advance 0 ())

/-- Some message is delivered that a connection has read after its peer was removed. -/
def speaksAfter : List (Event Raw) → List (Event Raw) → Bool
  | _, [] => false
  | h, .put i q msg (some sender) :: h' =>
    readAfter i sender h || speaksAfter (h ++ [.put i q msg (some sender)]) h'
  | h, e :: h' => speaksAfter (h ++ [e]) h'

theorem not_silenced {h h' : List (Event Raw)} (hs : speaksAfter h h' = true) :
    ¬ Silenced (h ++ h') := by
  intro hsilenced
  induction h' generalizing h with
  | nil => cases hs
  | cons e h' ih =>
    rw [List.append_cons] at hsilenced
    cases e with
    | put i q msg sender =>
      cases sender with
      | none => exact ih hs hsilenced
      | some sender =>
        rw [speaksAfter, Bool.or_eq_true] at hs
        rcases hs with hread | hs
        · have hfalse := hsilenced h (.put i q msg (some sender)) h' (by simp) i q msg sender rfl
          rw [hread] at hfalse
          cases hfalse
        · exact ih hs hsilenced
    | _ => exact ih hs hsilenced

set_option maxRecDepth 20000 in
theorem dropped_peer_relays : ¬ Silenced (run (codec Json.documents) drops).2 :=
  not_silenced (h := []) (by decide +kernel)

end DeskSync.Signaling
