import DeskSync.Lib.Proc

/-!
# Handlers among others

Between two calls of a handler the others make theirs. A `Contract` says what the handlers of a system grant
each other: an invariant `inv` of the store, an order `le` in which the store only grows, and for each request
the condition `pre` under which it makes a call and what holds when it returns (`post`). Both conditions are
stable, so what a handler has found out stays true while it waits.

`Prog.Safe` says of one handler that it keeps to the contract, whatever the others do between its calls;
`Contract.run`: if every handler does, the invariant holds in every state of every run.
-/

namespace DeskSync.Proc

open Elements

variable {σ Q E V C : Type} {R : C → Type} {α β : Type}

namespace Prog

theorem Only.mono {P P' : C → Prop} (hP : ∀ c, P c → P' c) {p : Prog R α} (h : p.Only P) : p.Only P' := by
  induction p with
  | ret a => trivial
  | call c k ih => exact ⟨hP c h.1, fun r => ih r (h.2 r)⟩

section Safe
variable (exec : E → (c : C) → σ → R c × σ) (inv : σ → Prop) (le : σ → σ → Prop) (pre : C → σ → Prop)

/-- The handler makes its calls where `pre` holds and returns where `post` does, if the store only grows and
keeps `inv` between its calls. -/
def Safe (post : α → σ → Prop) : Prog R α → σ → Prop
  | ret a, s => post a s
  | call c k, s =>
    pre c s ∧ ∀ e s', le s s' → inv s' → Safe post (k (exec e c s').1) (exec e c s').2

variable {exec inv le pre} {post : α → σ → Prop}

@[simp] theorem safe_call {c : C} {k : R c → Prog R α} {s : σ} :
    Safe exec inv le pre post (call c k) s ↔
      pre c s ∧ ∀ e s', le s s' → inv s' → Safe exec inv le pre post (k (exec e c s').1) (exec e c s').2 :=
  Iff.rfl

/-- A safe handler waits. -/
theorem Safe.later (htrans : ∀ a b c, le a b → le b c → le a c)
    (hpre : ∀ c s s', pre c s → le s s' → pre c s') (hpost : ∀ a s s', post a s → le s s' → post a s')
    {p : Prog R α} {s s' : σ} (h : Safe exec inv le pre post p s) (hle : le s s') :
    Safe exec inv le pre post p s' := by
  cases p with
  | ret a => exact hpost a s s' h hle
  | call c k => exact ⟨hpre c s s' h.1 hle, fun e s'' hle' hinv => h.2 e s'' (htrans s s' s'' hle hle') hinv⟩

theorem Safe.bind {p : Prog R α} {f : α → Prog R β} {post' : β → σ → Prop} {s : σ}
    (h : Safe exec inv le pre post p s) (hf : ∀ a s, post a s → Safe exec inv le pre post' (f a) s) :
    Safe exec inv le pre post' (p >>= f) s := by
  induction p generalizing s with
  | ret a => exact hf a s h
  | call c k ih => exact ⟨h.1, fun e s' hle hinv => ih _ (h.2 e s' hle hinv)⟩

theorem Safe.map {p : Prog R α} (g : α → β) {post' : β → σ → Prop} {s : σ}
    (h : Safe exec inv le pre post p s) (hg : ∀ a s, post a s → post' (g a) s) :
    Safe exec inv le pre post' (g <$> p) s :=
  h.bind hg

end Safe

end Prog

/-- What the handlers of a system grant each other. -/
structure Contract (S : System σ Q R α E V) where
  inv : σ → Prop
  le : σ → σ → Prop
  pre : Q → C → σ → Prop
  post : Q → α → σ → Prop
  refl : ∀ s, le s s
  trans : ∀ a b c, le a b → le b c → le a c
  pre_later : ∀ q c s s', pre q c s → le s s' → pre q c s'
  post_later : ∀ q a s s', post q a s → le s s' → post q a s'
  exec : ∀ q e c s, inv s → pre q c s → inv (S.exec e c s).2 ∧ le s (S.exec e c s).2
  env : ∀ v s, inv s → inv (S.env v s) ∧ le s (S.env v s)

namespace Contract

variable {S : System σ Q R α E V} (K : Contract S)

/-- The handler keeps to the contract. -/
def Keeps (q : Q) (p : Prog R α) (s : σ) : Prop := p.Safe S.exec K.inv K.le (K.pre q) (K.post q) s

/-- The invariant holds, and every handler in flight keeps to the contract. -/
structure Holds (w : Pool σ Q R α) : Prop where
  inv : K.inv w.store
  keeps : w.All fun q p => K.Keeps q p w.store

variable {K}

theorem Keeps.later {q : Q} {p : Prog R α} {s s' : σ} (h : K.Keeps q p s) (hle : K.le s s') :
    K.Keeps q p s' :=
  Prog.Safe.later K.trans (K.pre_later q) (K.post_later q) h hle

theorem Holds.step {w : Pool σ Q R α} (h : K.Holds w)
    (hstart : ∀ q e s, K.inv s → K.Keeps q (S.start q e) s) (l : Label Q E V) :
    K.Holds (S.step w l) ∧ K.le w.store (S.step w l).store := by
  rcases S.step_cases w l with hs | ⟨q, e, rfl, hs⟩ | ⟨i, e, q, c, k, rfl, hi, hs⟩ | ⟨v, rfl, hs⟩
  · rw [hs]
    exact ⟨h, K.refl _⟩
  · rw [hs]
    refine ⟨⟨h.inv, fun j q' p hj => ?_⟩, K.refl _⟩
    rcases getElem?_concat_cases hj with hj | ⟨-, ht⟩
    · exact h.keeps j q' p hj
    · cases ht
      exact hstart q e _ h.inv
  · rw [hs]
    have hcall := h.keeps i q _ hi
    obtain ⟨hinv, hle⟩ := K.exec q e c _ h.inv hcall.1
    refine ⟨⟨hinv, fun j q' p hj => ?_⟩, hle⟩
    rcases set_cases hj with ⟨-, ht⟩ | ⟨-, hj⟩
    · cases ht
      exact hcall.2 e _ (K.refl _) h.inv
    · exact (h.keeps j q' p hj).later hle
  · rw [hs]
    obtain ⟨hinv, hle⟩ := K.env v _ h.inv
    exact ⟨⟨hinv, fun j q p hj => (h.keeps j q p hj).later hle⟩, hle⟩

/-- The store grows from outside. -/
theorem Holds.grow {w : Pool σ Q R α} (h : K.Holds w) {s : σ} (hs : K.inv s) (hle : K.le w.store s) :
    K.Holds { w with store := s } :=
  ⟨hs, fun i q p hi => (h.keeps i q p hi).later hle⟩

/-- If every handler keeps to the contract when it starts, the contract holds in every run. -/
theorem run (hstart : ∀ q e s, K.inv s → K.Keeps q (S.start q e) s) {s : σ} (hs : K.inv s)
    (l : List (Label Q E V)) : K.Holds (S.run s l) :=
  Run.invariant (I := K.Holds) (fun _ l h => (h.step hstart l).1) ⟨hs, Pool.All.nil s⟩ l

/-- What a returned request was promised. -/
theorem Holds.returned {w : Pool σ Q R α} (h : K.Holds w) {i : ℕ} {q : Q} {a : α}
    (hi : w.threads[i]? = some ⟨q, .ret a⟩) : K.post q a w.store :=
  h.keeps i q _ hi

end Contract

end DeskSync.Proc
