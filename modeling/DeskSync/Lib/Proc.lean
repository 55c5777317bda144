import DeskSync.Lib.Elements
import DeskSync.Lib.Run

/-!
# Request handlers over atomic calls, alone and interleaved

A handler is a tree (`Prog`): it returns, or makes one call on a shared store and goes on with the
reply. The same handler has two semantics. `Prog.run` makes its calls one after the other, and a
`Pool` of handlers in flight interleaves them: one step starts a request, lets one handler make its
pending call, or is a step of the environment on the store. Everything a call reads besides the store
(clocks, random draws, faults) comes with the label, so a list of labels determines the run.

Facts about a handler are stated over its transitions. `Prog.Steps spec T p`: every transition of `p`
that answers a call `c` with a reply `r` allowed by `spec` and goes on as `q` satisfies `T c r q`.
`Steps` is proved once, by unfolding the handler; a transition keeps it (`Prog.Steps.next`), hence it
holds of every handler in flight (`Pool.All.step`), and an invariant of a pool is shown from
`System.step_cases`, which says once what a step can do. Where a handler goes through stages,
`Prog.Conforms` says that it follows a protocol whose states are the stages.
-/

namespace DeskSync.Proc

open Elements

variable {C : Type} {R : C → Type} {α β : Type}

/-- A handler over the calls `C`: it returns, or makes a call and goes on with the reply. -/
inductive Prog {C : Type} (R : C → Type) (α : Type) : Type where
  | ret (a : α)
  | call (c : C) (k : R c → Prog R α)

namespace Prog

@[simp] def bind : Prog R α → (α → Prog R β) → Prog R β
  | ret a, f => f a
  | call c k, f => call c fun r => (k r).bind f

instance : Monad (Prog R) where
  pure := ret
  bind := bind

/-- One call, whose reply is the result. -/
def perform (c : C) : Prog R (R c) := call c ret

@[simp] theorem pure_eq (a : α) : (pure a : Prog R α) = ret a := rfl

@[simp] theorem ret_bind (a : α) (f : α → Prog R β) : (ret a >>= f) = f a := rfl

@[simp] theorem call_bind (c : C) (k : R c → Prog R α) (f : α → Prog R β) :
    (call c k >>= f) = call c fun r => k r >>= f := rfl

@[simp] theorem perform_bind (c : C) (f : R c → Prog R β) :
    (perform c >>= f) = call c f := rfl

@[simp] theorem map_ret (g : α → β) (a : α) : (g <$> (ret a : Prog R α)) = ret (g a) := rfl

@[simp] theorem map_call (g : α → β) (c : C) (k : R c → Prog R α) :
    (g <$> call c k) = call c fun r => g <$> k r := rfl

/-- The call a handler is suspended at. -/
def pending : Prog R α → Option C
  | ret _ => none
  | call c _ => some c

/-- What a handler has returned. -/
def result : Prog R α → Option α
  | ret a => some a
  | call _ _ => none

@[simp] theorem pending_call (c : C) (k : R c → Prog R α) : (call c k).pending = some c := rfl
@[simp] theorem pending_ret (a : α) : (ret a : Prog R α).pending = none := rfl
@[simp] theorem result_call (c : C) (k : R c → Prog R α) : (call c k).result = none := rfl
@[simp] theorem result_ret (a : α) : (ret a : Prog R α).result = some a := rfl

/-- The handler with its calls made among others, `f c` instead of `c`. -/
def lift {D : Type} {S : D → Type} (f : C → D) (g : ∀ c, S (f c) → R c) : Prog R α → Prog S α
  | ret a => ret a
  | call c k => call (f c) fun r => lift f g (k (g c r))

/-- The handler over calls that may throw. It catches nothing. -/
def throwing {ε : Type} : Prog R α → Prog (fun c => Except ε (R c)) (Except ε α)
  | ret a => ret (.ok a)
  | call c k => call c fun
    | .ok r => throwing (k r)
    | .error e => ret (.error e)

/-! ### Alone -/

section Run
variable {σ E : Type} (exec : E → (c : C) → σ → R c × σ)

/-- The handler runs without interruption; `es n` is what its `n`-th call reads from outside. -/
def run : (ℕ → E) → Prog R α → σ → α × σ
  | _, ret a, s => (a, s)
  | es, call c k, s => run (fun n => es (n + 1)) (k (exec (es 0) c s).1) (exec (es 0) c s).2

@[simp] theorem run_ret (es : ℕ → E) (a : α) (s : σ) : run exec es (ret a) s = (a, s) := rfl

@[simp] theorem run_call (es : ℕ → E) (c : C) (k : R c → Prog R α) (s : σ) :
    run exec es (call c k) s =
      run exec (fun n => es (n + 1)) (k (exec (es 0) c s).1) (exec (es 0) c s).2 := rfl

/-- A handler that returns after its first call leaves the store that call leaves. -/
theorem run_call_ret {es : ℕ → E} {p : Prog R α} {c : C} {k : R c → Prog R α} {s : σ}
    (hp : p = call c k) (h : ∀ r, ∃ a, k r = ret a) : (run exec es p s).2 = (exec (es 0) c s).2 := by
  obtain ⟨a, ha⟩ := h (exec (es 0) c s).1
  rw [hp, run_call, ha, run_ret]

theorem run_map (g : α → β) (es : ℕ → E) (p : Prog R α) (s : σ) :
    run exec es (g <$> p) s = (g (run exec es p s).1, (run exec es p s).2) := by
  induction p generalizing es s with
  | ret a => rfl
  | call c k ih => exact ih _ _ _

end Run

/-! ### Transitions -/

/-- Every transition of the handler on a reply allowed by `spec` satisfies `T`. -/
def Steps (spec : (c : C) → R c → Prop) (T : (c : C) → R c → Prog R α → Prop) : Prog R α → Prop
  | ret _ => True
  | call c k => ∀ r, spec c r → T c r (k r) ∧ Steps spec T (k r)

variable {spec spec' : (c : C) → R c → Prop} {T T' : (c : C) → R c → Prog R α → Prop}

@[simp] theorem steps_ret (a : α) : Steps spec T (ret a) := trivial

theorem Steps.next {c : C} {k : R c → Prog R α} (h : Steps spec T (call c k)) {r : R c}
    (hr : spec c r) : Steps spec T (k r) := (h r hr).2

theorem Steps.trans {c : C} {k : R c → Prog R α} (h : Steps spec T (call c k)) {r : R c}
    (hr : spec c r) : T c r (k r) := (h r hr).1

theorem Steps.mono (hspec : ∀ c r, spec' c r → spec c r) (hT : ∀ c r q, T c r q → T' c r q)
    {p : Prog R α} (h : Steps spec T p) : Steps spec' T' p := by
  induction p with
  | ret a => trivial
  | call c k ih => exact fun r hr => ⟨hT _ _ _ (h.trans (hspec _ _ hr)), ih r (h.next (hspec _ _ hr))⟩

/-! ### Calls -/

/-- Whatever the replies, the handler makes only calls with `P`. -/
def Only (P : C → Prop) : Prog R α → Prop
  | ret _ => True
  | call c k => P c ∧ ∀ r, Only P (k r)

variable {P : C → Prop}

@[simp] theorem only_ret (a : α) : Only P (ret a : Prog R α) := trivial

@[simp] theorem only_call {c : C} {k : R c → Prog R α} :
    Only P (call c k) ↔ P c ∧ ∀ r, Only P (k r) := Iff.rfl

theorem Only.bind {p : Prog R α} {f : α → Prog R β} (h : Only P p) (hf : ∀ a, Only P (f a)) :
    Only P (p >>= f) := by
  induction p with
  | ret a => exact hf a
  | call c k ih => exact ⟨h.1, fun r => ih r (h.2 r)⟩

theorem Only.map {p : Prog R α} (g : α → β) (h : Only P p) : Only P (g <$> p) :=
  h.bind fun _ => trivial

theorem only_lift {D : Type} {S : D → Type} {f : D → C} {g : ∀ d, R (f d) → S d} (hf : ∀ d, P (f d))
    (p : Prog S α) : Only P (p.lift f g) := by
  induction p with
  | ret a => trivial
  | call d k ih => exact ⟨hf d, fun r => ih _⟩

/-- Whatever the replies, `T` holds of every call of the handler and what comes after it. -/
def Resumes (T : (c : C) → (R c → Prog R α) → Prop) : Prog R α → Prop
  | ret _ => True
  | call c k => T c k ∧ ∀ r, Resumes T (k r)

/-! ### Uninterrupted runs -/

section Along
variable {σ E : Type} (exec : E → (c : C) → σ → R c × σ) {pre pre' : E → C → σ → Prop}

/-- Every call of the uninterrupted run is made where `pre` holds of it. -/
def Along (pre : E → C → σ → Prop) : (ℕ → E) → Prog R α → σ → Prop
  | _, ret _, _ => True
  | es, call c k, s =>
    pre (es 0) c s ∧ Along pre (fun n => es (n + 1)) (k (exec (es 0) c s).1) (exec (es 0) c s).2

variable {exec}

theorem Only.along {p : Prog R α} (h : Only P p) (hpre : ∀ e c s, P c → pre e c s) (es : ℕ → E)
    (s : σ) : Along exec pre es p s := by
  induction p generalizing es s with
  | ret a => trivial
  | call c k ih => exact ⟨hpre _ c s h.1, ih _ (h.2 _) _ _⟩

theorem Along.map (g : α → β) {es : ℕ → E} {p : Prog R α} {s : σ} (h : Along exec pre es p s) :
    Along exec pre es (g <$> p) s := by
  induction p generalizing es s with
  | ret a => trivial
  | call c k ih => exact ⟨h.1, ih _ h.2⟩

/-- A predicate on the store kept by the calls made where `pre` holds is kept by the run. -/
theorem Along.invariant {I : σ → Prop} (hexec : ∀ e c s, pre e c s → I s → I (exec e c s).2)
    {es : ℕ → E} {p : Prog R α} {s : σ} (h : Along exec pre es p s) (hs : I s) :
    I (run exec es p s).2 := by
  induction p generalizing es s with
  | ret a => exact hs
  | call c k ih => exact ih _ h.2 (hexec _ c s h.1 hs)

/-- `I` holds in every state of the uninterrupted run. -/
def Throughout (exec : E → (c : C) → σ → R c × σ) (I : σ → Prop) : (ℕ → E) → Prog R α → σ → Prop
  | _, ret _, s => I s
  | es, call c k, s =>
    I s ∧ Throughout exec I (fun n => es (n + 1)) (k (exec (es 0) c s).1) (exec (es 0) c s).2

variable {I : σ → Prop}

theorem Throughout.head {es : ℕ → E} {p : Prog R α} {s : σ} (h : Throughout exec I es p s) : I s := by
  cases p with
  | ret a => exact h
  | call c k => exact h.1

end Along

/-! ### Results -/

/-- Whatever the replies allowed by `spec`, the handler returns a result with `post`. -/
def Post (spec : (c : C) → R c → Prop) (post : α → Prop) : Prog R α → Prop
  | ret a => post a
  | call c k => ∀ r, spec c r → Post spec post (k r)

variable {post : α → Prop}

@[simp] theorem post_ret {a : α} : Post spec post (ret a) ↔ post a := Iff.rfl

@[simp] theorem post_call {c : C} {k : R c → Prog R α} :
    Post spec post (call c k) ↔ ∀ r, spec c r → Post spec post (k r) := Iff.rfl

theorem post_true (p : Prog R α) : Post spec (fun _ => True) p := by
  induction p with
  | ret a => trivial
  | call c k ih => exact fun r _ => ih r

theorem Post.bind {p : Prog R α} {f : α → Prog R β} {post' : β → Prop} (h : Post spec post p)
    (hf : ∀ a, post a → Post spec post' (f a)) : Post spec post' (p >>= f) := by
  induction p with
  | ret a => exact hf a h
  | call c k ih => exact fun r hr => ih r (h r hr)

theorem Post.map {p : Prog R α} {g : α → β} {post' : β → Prop} (h : Post spec post p)
    (hg : ∀ a, post a → post' (g a)) : Post spec post' (g <$> p) :=
  h.bind fun a ha => hg a ha

theorem Post.run {σ E : Type} {exec : E → (c : C) → σ → R c × σ} {p : Prog R α} (h : Post spec post p)
    (hexec : ∀ e c s, spec c (exec e c s).1) (es : ℕ → E) (s : σ) : post (p.run exec es s).1 := by
  induction p generalizing es s with
  | ret a => exact h
  | call c k ih => exact ih _ (h _ (hexec _ _ _)) _ _

/-! ### Protocols -/

section Conforms
variable {X : Type} {next : X → (c : C) → R c → X → Prop}

/-- The handler follows a protocol from the protocol state `x`: a call answered by a reply that `spec`
allows leads on as `next` says, and the handler returns in a protocol state with `fin`. -/
def Conforms (spec : (c : C) → R c → Prop) (next : X → (c : C) → R c → X → Prop)
    (fin : X → α → Prop) : X → Prog R α → Prop
  | x, ret a => fin x a
  | x, call c k => ∀ r, spec c r → ∃ x', next x c r x' ∧ Conforms spec next fin x' (k r)

variable {fin : X → α → Prop}

@[simp] theorem conforms_ret {x : X} {a : α} : Conforms spec next fin x (ret a) ↔ fin x a := Iff.rfl

theorem Conforms.mono {x : X} {p : Prog R α} {fin' : X → α → Prop} (h : Conforms spec next fin x p)
    (hf : ∀ x a, fin x a → fin' x a) : Conforms spec next fin' x p := by
  induction p generalizing x with
  | ret a => exact hf x a h
  | call c k ih =>
    intro r hr
    obtain ⟨x', hx, hk⟩ := h r hr
    exact ⟨x', hx, ih r hk⟩

theorem Conforms.bind {x : X} {p : Prog R α} {f : α → Prog R β} {fin' : X → β → Prop}
    (h : Conforms spec next fin x p) (hf : ∀ x a, fin x a → Conforms spec next fin' x (f a)) :
    Conforms spec next fin' x (p >>= f) := by
  induction p generalizing x with
  | ret a => exact hf x a h
  | call c k ih =>
    intro r hr
    obtain ⟨x', hx, hk⟩ := h r hr
    exact ⟨x', hx, ih r hk⟩

/-- A handler whose calls may throw follows its protocol as long as none does. -/
theorem Conforms.throwing {ε : Type} {x : X} {p : Prog R α} {spec' : (c : C) → Except ε (R c) → Prop}
    {next' : X → (c : C) → Except ε (R c) → X → Prop} {fin' : X → Except ε α → Prop}
    (h : Conforms spec next fin x p) (hspec : ∀ c r, spec' c (.ok r) → spec c r)
    (hnext : ∀ x c r x', next x c r x' → next' x c (.ok r) x')
    (hthrows : ∀ x c e, ∃ x', next' x c (.error e) x' ∧ fin' x' (.error e))
    (hfin : ∀ x a, fin x a → fin' x (.ok a)) : Conforms spec' next' fin' x p.throwing := by
  induction p generalizing x with
  | ret a => exact hfin x a h
  | call c k ih =>
    rw [Prog.throwing]
    intro r hr
    cases r with
    | error e => exact hthrows x c e
    | ok r =>
      obtain ⟨x', hx, hk⟩ := h r (hspec c r hr)
      exact ⟨x', hnext x c r x' hx, ih r hk⟩

/-- A protocol state that every call leads back to is kept to the end. -/
theorem Post.conforms {x : X} {p : Prog R α} {post : α → Prop} (h : Post spec post p)
    (hstay : ∀ c r, next x c r x) (hfin : ∀ a, post a → fin x a) : Conforms spec next fin x p := by
  induction p with
  | ret a => exact hfin a h
  | call c k ih => exact fun r hr => ⟨x, hstay c r, ih r (h r hr)⟩

end Conforms

end Prog

/-! ### Interleaved -/

/-- A request and what is left of its handler. -/
structure Thread (Q : Type) {C : Type} (R : C → Type) (α : Type) where
  req : Q
  prog : Prog R α

/-- The shared store and every request started so far, in the order they were started. -/
structure Pool (σ Q : Type) {C : Type} (R : C → Type) (α : Type) where
  store : σ
  threads : List (Thread Q R α)

inductive Label (Q E V : Type) where
  | spawn (q : Q) (e : E)
  | advance (i : ℕ) (e : E)
  | env (v : V)

/-- Handlers, the store's calls and the environment's own steps. -/
structure System (σ Q : Type) {C : Type} (R : C → Type) (α E V : Type) where
  start : Q → E → Prog R α
  exec : E → (c : C) → σ → R c × σ
  env : V → σ → σ

variable {σ Q E V : Type}

namespace System

/-- One step. Advancing a request that has returned, or was never started, changes nothing. -/
def step (S : System σ Q R α E V) (w : Pool σ Q R α) : Label Q E V → Pool σ Q R α
  | .spawn q e => { w with threads := w.threads ++ [⟨q, S.start q e⟩] }
  | .advance i e =>
    match w.threads[i]? with
    | some ⟨q, .call c k⟩ =>
      { store := (S.exec e c w.store).2, threads := w.threads.set i ⟨q, k (S.exec e c w.store).1⟩ }
    | _ => w
  | .env v => { w with store := S.env v w.store }

/-- A run of the pool from the given store with no request started. -/
abbrev run (S : System σ Q R α E V) (s : σ) (l : List (Label Q E V)) : Pool σ Q R α :=
  Run.exec S.step ⟨s, []⟩ l

variable (S : System σ Q R α E V)

theorem step_advance {w : Pool σ Q R α} {i : ℕ} {q : Q} {c : C} {k : R c → Prog R α}
    (h : w.threads[i]? = some ⟨q, .call c k⟩) (e : E) :
    S.step w (.advance i e) =
      { store := (S.exec e c w.store).2
        threads := w.threads.set i ⟨q, k (S.exec e c w.store).1⟩ } := by
  simp only [step, h]

/-- What a step can do. -/
theorem step_cases (w : Pool σ Q R α) (l : Label Q E V) :
    S.step w l = w ∨
    (∃ q e, l = .spawn q e ∧
      S.step w l = { w with threads := w.threads ++ [⟨q, S.start q e⟩] }) ∨
    (∃ i e q c k, l = .advance i e ∧ w.threads[i]? = some ⟨q, .call c k⟩ ∧
      S.step w l = { store := (S.exec e c w.store).2
                     threads := w.threads.set i ⟨q, k (S.exec e c w.store).1⟩ }) ∨
    (∃ v, l = .env v ∧ S.step w l = { w with store := S.env v w.store }) := by
  cases l with
  | spawn q e => exact .inr (.inl ⟨q, e, rfl, rfl⟩)
  | env v => exact .inr (.inr (.inr ⟨v, rfl, rfl⟩))
  | advance i e =>
    cases h : w.threads[i]? with
    | none => left; simp only [step, h]
    | some t =>
      obtain ⟨q, p⟩ := t
      cases p with
      | ret a => left; simp only [step, h]
      | call c k => exact .inr (.inr (.inl ⟨i, e, q, c, k, rfl, h, S.step_advance h e⟩))

/-- Where a request in flight after a step comes from: it was there, it has just been started, or it
has just made its pending call. -/
theorem thread_cases {w : Pool σ Q R α} {l : Label Q E V} {j : ℕ} {t : Thread Q R α}
    (h : (S.step w l).threads[j]? = some t) :
    w.threads[j]? = some t ∨
    (∃ q e, l = .spawn q e ∧ j = w.threads.length ∧ t = ⟨q, S.start q e⟩) ∨
    (∃ e q c k, l = .advance j e ∧ w.threads[j]? = some ⟨q, .call c k⟩ ∧
      t = ⟨q, k (S.exec e c w.store).1⟩) := by
  rcases S.step_cases w l with hs | ⟨q, e, rfl, hs⟩ | ⟨i, e, q, c, k, rfl, hi, hs⟩ | ⟨v, rfl, hs⟩
  · left; rwa [hs] at h
  · rw [hs] at h
    rcases getElem?_concat_cases h with h | ⟨rfl, rfl⟩
    · exact .inl h
    · exact .inr (.inl ⟨q, e, rfl, rfl, rfl⟩)
  · rw [hs] at h
    rcases set_cases h with ⟨rfl, rfl⟩ | ⟨-, h⟩
    · exact .inr (.inr ⟨e, q, c, k, rfl, hi, rfl⟩)
    · exact .inl h
  · left; rwa [hs] at h

/-- Where a request in flight goes: it stays as it is, or makes its pending call. -/
theorem thread_next {w : Pool σ Q R α} (l : Label Q E V) {j : ℕ} {q : Q} {p : Prog R α}
    (h : w.threads[j]? = some ⟨q, p⟩) :
    (S.step w l).threads[j]? = some ⟨q, p⟩ ∨
    ∃ e c k, l = .advance j e ∧ p = .call c k ∧
      (S.step w l).threads[j]? = some ⟨q, k (S.exec e c w.store).1⟩ := by
  have hlt := (List.getElem?_eq_some_iff.1 h).1
  rcases S.step_cases w l with hs | ⟨q', e, rfl, hs⟩ | ⟨i, e, q', c, k, rfl, hi, hs⟩ | ⟨v, rfl, hs⟩
  · left; rwa [hs]
  · left; rw [hs]; simpa only [List.getElem?_append_left hlt] using h
  · rw [hs]
    by_cases hij : i = j
    · subst hij
      rw [h] at hi
      obtain ⟨rfl, rfl⟩ := Thread.mk.inj (Option.some.inj hi)
      exact .inr ⟨e, c, k, rfl, rfl, List.getElem?_set_self hlt⟩
    · left; simpa only [List.getElem?_set_ne hij] using h
  · left; rwa [hs]

end System

/-- `P` holds of every request started so far. -/
def Pool.All (P : Q → Prog R α → Prop) (w : Pool σ Q R α) : Prop :=
  ∀ (i : ℕ) q p, w.threads[i]? = some ⟨q, p⟩ → P q p

theorem Pool.All.nil {P : Q → Prog R α → Prop} (s : σ) :
    Pool.All P (⟨s, []⟩ : Pool σ Q R α) := by
  intro i q p h
  cases h

/-- A local predicate: it holds of the handler a request starts with, and making the pending call
keeps it. -/
theorem Pool.All.step {S : System σ Q R α E V} {P : Q → Prog R α → Prop} {w : Pool σ Q R α}
    {l : Label Q E V} (h : w.All P) (hstart : ∀ q e, l = .spawn q e → P q (S.start q e))
    (hcall : ∀ i e q c k, l = .advance i e → w.threads[i]? = some ⟨q, .call c k⟩ →
      P q (.call c k) → P q (k (S.exec e c w.store).1)) :
    (S.step w l).All P := by
  intro j q p hj
  rcases S.thread_cases hj with hj | ⟨q', e, rfl, rfl, ht⟩ | ⟨e, q', c, k, rfl, hi, ht⟩
  · exact h j q p hj
  · cases ht
    exact hstart q e rfl
  · cases ht
    exact hcall j e q c k rfl hi (h j q _ hi)

/-- One handler goes on. -/
theorem Pool.All.set {P : Q → Prog R α → Prop} {w : Pool σ Q R α} (h : w.All P) {s : σ} {i : ℕ} {q : Q}
    {p : Prog R α} (hp : P q p) : Pool.All P (⟨s, w.threads.set i ⟨q, p⟩⟩ : Pool σ Q R α) := by
  intro j q' p' hj
  rcases set_cases hj with ⟨-, heq⟩ | ⟨-, hj⟩
  · cases heq
    exact hp
  · exact h j q' p' hj

/-! ### Protocols, interleaved -/

section Conform
variable {X : Type} {spec : (c : C) → R c → Prop} {next : X → (c : C) → R c → X → Prop}
  {fin : X → α → Prop}

/-- Every request in flight follows the protocol; `x` gives the protocol states. -/
def Pool.Conform (spec : (c : C) → R c → Prop) (next : X → (c : C) → R c → X → Prop)
    (fin : X → α → Prop) (w : Pool σ Q R α) (x : ℕ → X) : Prop :=
  ∀ (i : ℕ) q p, w.threads[i]? = some ⟨q, p⟩ → p.Conforms spec next fin (x i)

/-- What a step of a pool can do where all requests follow a protocol: a call takes its request to the
next protocol state. -/
theorem System.conform_cases (S : System σ Q R α E V) {w : Pool σ Q R α} {x : ℕ → X}
    (hw : w.Conform spec next fin x) {init : Q → E → X}
    (hstart : ∀ q e, (S.start q e).Conforms spec next fin (init q e))
    (hspec : ∀ e c, spec c (S.exec e c w.store).1) (l : Label Q E V) :
    (∃ i e, l = .advance i e ∧ (∀ q c k, w.threads[i]? ≠ some ⟨q, .call c k⟩) ∧ S.step w l = w) ∨
    (∃ q e, l = .spawn q e ∧ S.step w l = { w with threads := w.threads ++ [⟨q, S.start q e⟩] } ∧
      (S.step w l).Conform spec next fin (Function.update x w.threads.length (init q e))) ∨
    (∃ i e q c k x', l = .advance i e ∧ w.threads[i]? = some ⟨q, .call c k⟩ ∧
      S.step w l = { store := (S.exec e c w.store).2
                     threads := w.threads.set i ⟨q, k (S.exec e c w.store).1⟩ } ∧
      next (x i) c (S.exec e c w.store).1 x' ∧
      (S.step w l).Conform spec next fin (Function.update x i x')) ∨
    (∃ v, l = .env v ∧ S.step w l = { w with store := S.env v w.store } ∧
      (S.step w l).Conform spec next fin x) := by
  cases l with
  | spawn q e =>
    refine .inr (.inl ⟨q, e, rfl, rfl, fun j q' p hj => ?_⟩)
    rcases S.thread_cases hj with hj | ⟨q'', e', heq, rfl, ht⟩ | ⟨e', q'', c, k, heq, -, -⟩
    · have hlt := (List.getElem?_eq_some_iff.1 hj).1
      rw [Function.update_of_ne (Nat.ne_of_lt hlt)]
      exact hw j q' p hj
    · cases heq
      cases ht
      rw [Function.update_self]
      exact hstart q e
    · cases heq
  | env v => exact .inr (.inr (.inr ⟨v, rfl, rfl, hw⟩))
  | advance i e =>
    by_cases hi : ∃ q c k, w.threads[i]? = some ⟨q, .call c k⟩
    · obtain ⟨q, c, k, hi⟩ := hi
      obtain ⟨x', hnext, hrest⟩ := hw i q _ hi (S.exec e c w.store).1 (hspec e c)
      refine .inr (.inr (.inl ⟨i, e, q, c, k, x', rfl, hi, S.step_advance hi e, hnext, ?_⟩))
      intro j q' p hj
      rw [S.step_advance hi e] at hj
      rcases set_cases hj with ⟨rfl, heq⟩ | ⟨hij, hj⟩
      · cases heq
        rw [Function.update_self]
        exact hrest
      · rw [Function.update_of_ne (Ne.symm hij)]
        exact hw j q' p hj
    · have hnone : ∀ q c k, w.threads[i]? ≠ some ⟨q, .call c k⟩ := fun q c k h => hi ⟨q, c, k, h⟩
      refine .inl ⟨i, e, rfl, hnone, ?_⟩
      rcases S.step_cases w (.advance i e) with hs | ⟨q, e', heq, -⟩ | ⟨j, e', q, c, k, heq, hj, -⟩ |
        ⟨v, heq, -⟩
      · exact hs
      · cases heq
      · cases heq
        exact absurd hj (hnone q c k)
      · cases heq

end Conform

end DeskSync.Proc
