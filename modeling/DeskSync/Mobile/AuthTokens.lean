import DeskSync.Mobile.AuthClient

/-!
# Which token pair is stored

What holds of the stored token pair in every run in which one `onError` runs at a time (`Queued`), the
backend hands out a token only once (`Fresh`), and sign-ins, sign-outs and refreshes do not get between
each other's accesses to the storage (`Apart`).

The invariant comes in three layers, each kept by every step. `Locked`: only one operation is inside
`onError`, so a refresh is never shared. `Tracked`: an access token that was read and has been replaced is
never stored again, since the tokens an operation is about to store are new. `Settled`: without an access
token there is no refresh token, and what an operation that nobody disturbed has seen is still true.
-/

namespace DeskSync.Mobile.Auth

open Elements Proc

/-! ### What an event is -/

def Request.isRequest : Request → Bool
  | .request _ => true
  | _ => false

def Request.signsIn : Request → Bool
  | .login .. => true
  | .register .. => true
  | _ => false

theorem not_request {q : Request} (hq : q.signsIn = true) : q.isRequest ≠ true := by
  cases q with
  | request => cases hq
  | login | register | logout => exact Bool.false_ne_true

/-- The access token that is read. -/
def Event.readsAccess : Event → Option (Option String)
  | ⟨_, _, _, .read .accessToken, token⟩ => some (present token)
  | _ => none

def Event.writesAccess : Event → Bool
  | ⟨_, _, _, .write .accessToken _, _⟩ => true
  | _ => false

/-- The tokens that the backend answers. -/
def Event.answers : Event → List (Option String)
  | ⟨_, _, _, .postRefresh _, .ok (some data)⟩ => [data.accessToken, data.refreshToken]
  | ⟨_, _, _, .login .., .ok tokens⟩ => [some tokens.accessToken, some tokens.refreshToken]
  | ⟨_, _, _, .register .., .ok tokens⟩ => [some tokens.accessToken, some tokens.refreshToken]
  | _ => []

/-- A token is overwritten or removed. -/
def Event.changes : Event → Bool
  | ⟨_, _, _, .write .., _⟩ => true
  | ⟨_, _, before, .delete k, _⟩ => (present (before k)).isSome
  | _ => false

/-- A sign-in or a sign-out writes or deletes. -/
def Event.touches : Event → Bool
  | ⟨_, req, _, .write .., _⟩ => !req.isRequest
  | ⟨_, req, _, .delete _, _⟩ => !req.isRequest
  | _ => false

/-- A sign-in has stored its tokens. -/
def Event.signedIn : Event → Bool
  | ⟨_, req, _, .write .refreshToken _, _⟩ => req.signsIn
  | _ => false

/-- The tokens that were stored at first or that the backend has answered. -/
def known (store : SecureStore) (h : List Event) : List String :=
  ([store .accessToken, store .refreshToken] ++ h.flatMap Event.answers).reduceOption

/-- A sign-in or sign-out has touched the storage since `i` read the access token for the last time. -/
def disturbed (h : List Event) (i : ℕ) : Bool :=
  h.foldl (fun d b => if b.i = i ∧ b.readsAccess.isSome then false else d || b.touches) false

/-- The access token has been written since `i` read it. -/
def Replaced (h : List Event) (i : ℕ) : Prop :=
  ∃ r a : Event, [r, a].Sublist h ∧ r.i = i ∧ r.readsAccess.isSome ∧ a.writesAccess = true

/-- A sign-in has stored its tokens since `i` read the access token. -/
def Outdated (h : List Event) (i : ℕ) : Prop :=
  ∃ r a c : Event, [r, a, c].Sublist h ∧ r.i = i ∧ r.readsAccess.isSome ∧ c.i = a.i ∧
    a.writesAccess = true ∧ c.signedIn = true

/-! ### Guards -/

/-- The backend answers tokens that are not empty and that it has not handed out before. -/
def Fresh (store : SecureStore) (p : Observed) (l : Step) : Prop :=
  ∀ b ∈ event p.1 l, ∀ t ∈ b.answers, (present t).any (fun v => decide (v ∉ known store p.2)) = true

def betweenWrites (t : Thread Request Reply (Except Unit Unit)) : Bool :=
  t.req.signsIn && match t.prog.pending with
    | some (.write .refreshToken _) => true
    | _ => false

def betweenDeletes (t : Thread Request Reply (Except Unit Unit)) : Bool :=
  t.req == .logout && t.prog.pending == some (.delete .refreshToken)

/-- Where an operation may change what is stored: a request only if no sign-in or sign-out has touched the
storage since it read the access token or is about to go on doing so, a sign-out only if no sign-in is
between its writes, a sign-in only if no sign-out is between its deletes. -/
def Event.allowed (p : Observed) (b : Event) : Bool :=
  match b.req with
  | .request _ => !disturbed p.2 b.i && p.1.threads.all fun t => !betweenWrites t && !betweenDeletes t
  | .logout => p.1.threads.all fun t => !betweenWrites t
  | _ => p.1.threads.all fun t => !betweenDeletes t

def Apart (p : Observed) (l : Step) : Prop :=
  ∀ b ∈ event p.1 l, b.changes = true → b.allowed p = true

instance (store : SecureStore) (p : Observed) (l : Step) : Decidable (Fresh store p l) := by
  unfold Fresh
  infer_instance

instance (p : Observed) (l : Step) : Decidable (Apart p l) := by
  unfold Apart
  infer_instance

/-! ### Steps -/

/-- What a step does to the client, to what has happened and to the stages. -/
inductive Moves (X : ℕ → Stage) (p : Observed) : Step → (ℕ → Stage) → Observed → Prop
  | stays (i e) (h : ∀ q c k, p.1.threads[i]? ≠ some ⟨q, .call c k⟩) : Moves X p (.advance i e) X p
  | spawns (q e) : Moves X p (.spawn q e) (Function.update X p.1.threads.length q.stage)
      ({ p.1 with threads := p.1.threads ++ [⟨q, q.start⟩] }, p.2)
  | calls (i e q c k x') (r : Reply c) (hi : p.1.threads[i]? = some ⟨q, .call c k⟩)
      (hr : r = (exec e c p.1.store).1) (h : Next (X i) c r x') :
      Moves X p (.advance i e) (Function.update X i x')
        (⟨(exec e c p.1.store).2, p.1.threads.set i ⟨q, k r⟩⟩, p.2 ++ [⟨i, q, p.1.store.store, c, r⟩])

abbrev Conforming (X : ℕ → Stage) (w : World) : Prop :=
  w.Conform (fun _ _ => True) Next (fun x _ => x = .done) X

theorem moves {X : ℕ → Stage} {p : Observed} (hp : Conforming X p.1) (l : Step) :
    ∃ X', Moves X p l X' (observed p l) ∧ Conforming X' (observed p l).1 := by
  obtain ⟨w, h⟩ := p
  rcases system.conform_cases hp (fun q _ => follows_start q) (fun _ _ => trivial) l with
    ⟨i, e, rfl, hi, hw⟩ | ⟨q, e, rfl, hw, hconf⟩ | ⟨i, e, q, c, k, x', rfl, hi, hw, hnext, hconf⟩ | ⟨v, -⟩
  · have hevent : event w (.advance i e) = none := by simp only [event]
    have heq : observed (w, h) (.advance i e) = (w, h) := by
      simp only [observed, Run.observe, hw, hevent, Option.toList_none, List.append_nil]
    rw [heq]
    exact ⟨X, .stays i e hi, hp⟩
  · have heq : observed (w, h) (.spawn q e) = ({ w with threads := w.threads ++ [⟨q, q.start⟩] }, h) := by
      simp only [observed, Run.observe, hw, event, Option.toList_none, List.append_nil]
      rfl
    refine ⟨_, ?_, hconf⟩
    rw [heq]
    exact .spawns q e
  · refine ⟨_, ?_, hconf⟩
    have heq : observed (w, h) (.advance i e) =
        (⟨(exec e c w.store).2, w.threads.set i ⟨q, k (exec e c w.store).1⟩⟩,
          h ++ [⟨i, q, w.store.store, c, (exec e c w.store).1⟩]) := by
      simp only [observed, Run.observe, hw, event, hi, Option.toList_some]
      rfl
    rw [heq]
    exact .calls i e q c k x' _ hi rfl hnext
  · exact v.elim

/-! ### One `onError` at a time -/

/-- Between `turn` and `complete`. -/
def Stage.inside : Stage → Bool
  | .entered _ | .joining | .sharing | .refreshing | .posting _ | .writing .. | .rotating .. => true
  | .completing _ | .deleting | .deletingRefresh | .expiring | .leaving _ | .rereading | .fetching => true
  | _ => false

/-- Whose refresh is in flight. -/
def Stage.joined : Stage → Bool
  | .refreshing | .posting _ | .writing .. | .rotating .. | .completing _ => true
  | _ => false

/-- What the stages belong to. -/
def Stage.fits (q : Request) : Stage → Prop
  | .signingIn | .saving _ | .savingRefresh _ => q.signsIn = true
  | .loggingOut | .revoking _ | .clearingOut | .clearingOutRefresh => q = .logout
  | .done => True
  | _ => q.isRequest = true

theorem Next.inside {x x' : Stage} {c : Call} {r : Reply c} (h : Next x c r x') :
    (c = .turn ∧ x.inside = false ∧ x'.inside = true) ∨
      (c = .complete ∧ x.inside = true ∧ x'.inside = false) ∨
      (c ≠ .turn ∧ c ≠ .complete ∧ x'.inside = x.inside) := by
  cases h <;> simp [Stage.inside]

theorem Next.joins {x x' : Stage} {r : Bool} (h : Next x .joinRefresh r x') :
    x = .joining ∧ x' = if r then .sharing else .refreshing := by
  cases h <;> exact ⟨rfl, rfl⟩

theorem Next.joined {x x' : Stage} {c : Call} {r : Reply c} (h : Next x c r x') (hc : c ≠ .joinRefresh) :
    (c ≠ .refreshCompleted → x'.joined = x.joined) ∧ x' ≠ .sharing := by
  cases h <;> simp [Stage.joined] at hc ⊢

theorem Next.fits {q : Request} {x x' : Stage} {c : Call} {r : Reply c} (h : Next x c r x')
    (hx : x.fits q) : x'.fits q := by
  cases h <;> first | exact hx | trivial

theorem inside_of_joined {x : Stage} (h : x.joined = true) : x.inside = true := by
  cases x <;> first | rfl | cases h

structure Locked (X : ℕ → Stage) (w : World) : Prop where
  conform : Conforming X w
  idle : ∀ i, w.threads.length ≤ i → X i = .done
  fits : ∀ (i : ℕ) q p, w.threads[i]? = some ⟨q, p⟩ → (X i).fits q
  busy : ∀ i, (X i).inside = true → w.store.busy = true
  alone : ∀ i j, (X i).inside = true → (X j).inside = true → i = j
  inFlight : w.store.inFlight = true → ∃ i, (X i).joined = true
  unshared : ∀ i, X i ≠ .sharing

theorem exec_busy (e : Env) {c : Call} (d : Device) (h : c ≠ .turn) (h' : c ≠ .complete) :
    (exec e c d).2.busy = d.busy := by
  cases c <;> first | rfl | contradiction

theorem exec_inFlight (e : Env) {c : Call} (d : Device) (h : c ≠ .joinRefresh) (h' : c ≠ .refreshCompleted) :
    (exec e c d).2.inFlight = d.inFlight := by
  cases c <;> first | rfl | contradiction

theorem stage_start (q : Request) : q.stage.inside = false ∧ q.stage.joined = false ∧ q.stage.fits q ∧
    q.stage ≠ .sharing := by
  cases q with
  | request path =>
    simp only [Request.stage]
    split <;> exact ⟨rfl, rfl, rfl, by simp⟩
  | login | register | logout => exact ⟨rfl, rfl, rfl, by simp [Request.stage]⟩

section Step
variable {X X' : ℕ → Stage} {p p' : Observed} {l : Step}

/-- A request starts: it is not inside, and no refresh of it is in flight. -/
theorem Locked.spawn {w : World} (hp : Locked X w) {q : Request}
    (hconf : Conforming (Function.update X w.threads.length q.stage)
      { w with threads := w.threads ++ [⟨q, q.start⟩] }) :
    Locked (Function.update X w.threads.length q.stage) { w with threads := w.threads ++ [⟨q, q.start⟩] } := by
  obtain ⟨hin, hjoin, hfits, hshare⟩ := stage_start q
  have hsome {P : Stage → Prop} (hstart : ¬ P q.stage) {i : ℕ}
      (hi : P (Function.update X w.threads.length q.stage i)) : P (X i) := by
    by_cases hlen : i = w.threads.length
    · subst hlen
      rw [Function.update_self] at hi
      exact absurd hi hstart
    · rwa [Function.update_of_ne hlen] at hi
  have hin' {i : ℕ} := hsome (P := fun x => x.inside = true) (by simp [hin]) (i := i)
  refine ⟨hconf, fun i hi => ?_, fun i q' p' hi => ?_, fun i hi => hp.busy i (hin' hi),
    fun i j hi hj => hp.alone i j (hin' hi) (hin' hj), fun hfl => ?_, fun i hi => ?_⟩
  · rw [List.length_append, List.length_singleton] at hi
    rw [Function.update_of_ne (by omega)]
    exact hp.idle i (by omega)
  · rcases getElem?_concat_cases hi with hi | ⟨rfl, heq⟩
    · rw [Function.update_of_ne (Nat.ne_of_lt (List.getElem?_eq_some_iff.1 hi).1)]
      exact hp.fits i q' p' hi
    · cases heq
      rwa [Function.update_self]
  · obtain ⟨i, hi⟩ := hp.inFlight hfl
    have hne : i ≠ w.threads.length := by
      rintro rfl
      rw [hp.idle _ (Nat.le_refl _)] at hi
      cases hi
    exact ⟨i, by rwa [Function.update_of_ne hne]⟩
  · exact hp.unshared i (hsome (P := fun x => x = .sharing) hshare hi)

section Call
variable {w : World} {i : ℕ} {e : Env} {c : Call} {r : Reply c} {x' : Stage}

/-- Who is inside after a call. -/
theorem Locked.call_busy (hp : Locked X w) (hnext : Next (X i) c r x')
    (hfree : c = .turn → w.store.busy = false) :
    (∀ j, (Function.update X i x' j).inside = true → (exec e c w.store).2.busy = true) ∧
      ∀ j j', (Function.update X i x' j).inside = true → (Function.update X i x' j').inside = true →
        j = j' := by
  have hother {j : ℕ} (hj : j ≠ i) : Function.update X i x' j = X j := Function.update_of_ne hj _ _
  have hself : Function.update X i x' i = x' := Function.update_self ..
  rcases hnext.inside with ⟨rfl, -, hx'⟩ | ⟨rfl, hx, hx'⟩ | ⟨hturn, hcomplete, hx'⟩
  · have hnone (j : ℕ) : (X j).inside ≠ true := fun hj => by
      have hbusy := hp.busy j hj
      rw [hfree rfl] at hbusy
      cases hbusy
    have hmine {j : ℕ} (hj : (Function.update X i x' j).inside = true) : j = i := by
      by_contra hji
      rw [hother hji] at hj
      exact hnone j hj
    exact ⟨fun _ _ => rfl, fun j j' hj hj' => (hmine hj).trans (hmine hj').symm⟩
  · have hnone (j : ℕ) : (Function.update X i x' j).inside ≠ true := fun hj => by
      by_cases hji : j = i
      · rw [hji, hself, hx'] at hj
        cases hj
      · rw [hother hji] at hj
        exact hji (hp.alone j i hj hx)
    exact ⟨fun j hj => absurd hj (hnone j), fun j _ hj => absurd hj (hnone j)⟩
  · have hold {j : ℕ} (hj : (Function.update X i x' j).inside = true) : (X j).inside = true := by
      by_cases hji : j = i
      · rwa [hji, hself, hx', ← hji] at hj
      · rwa [hother hji] at hj
    rw [exec_busy e w.store hturn hcomplete]
    exact ⟨fun j hj => hp.busy j (hold hj), fun j j' hj hj' => hp.alone j j' (hold hj) (hold hj')⟩

/-- Whose refresh is in flight after a call. -/
theorem Locked.call_inFlight (hp : Locked X w) (hnext : Next (X i) c r x')
    (hr : r = (exec e c w.store).1) :
    ((exec e c w.store).2.inFlight = true → ∃ j, (Function.update X i x' j).joined = true) ∧
      x' ≠ .sharing := by
  by_cases hc : c = .joinRefresh
  · subst hc
    obtain ⟨hX, hx'⟩ := Next.joins hnext
    have hr : r = w.store.inFlight := hr
    cases hfl : w.store.inFlight with
    | true =>
      obtain ⟨j, hj⟩ := hp.inFlight hfl
      have hji := hp.alone j i (inside_of_joined hj) (by rw [hX]; rfl)
      rw [hji, hX] at hj
      cases hj
    | false =>
      rw [hr, hfl] at hx'
      subst hx'
      exact ⟨fun _ => ⟨i, by rw [Function.update_self]; rfl⟩, by simp⟩
  · obtain ⟨hjoined, hshare⟩ := hnext.joined hc
    refine ⟨fun hfl => ?_, hshare⟩
    by_cases hc' : c = .refreshCompleted
    · subst hc'
      cases hfl
    · rw [exec_inFlight e w.store hc hc'] at hfl
      obtain ⟨j, hj⟩ := hp.inFlight hfl
      refine ⟨j, ?_⟩
      by_cases hji : j = i
      · rwa [hji, Function.update_self, hjoined hc', ← hji]
      · rwa [Function.update_of_ne hji]

end Call

theorem Locked.step (hp : Locked X p.1) (hm : Moves X p l X' p') (hconf : Conforming X' p'.1)
    (hq : Queued p.1 l) : Locked X' p'.1 := by
  cases hm with
  | stays i e hi => exact hp
  | spawns q e => exact hp.spawn hconf
  | calls i e q c k x' r hi hr hnext =>
    have hlt := (List.getElem?_eq_some_iff.1 hi).1
    have hidle (j : ℕ) (hj : (p.1.threads.set i ⟨q, k r⟩).length ≤ j) :
        Function.update X i x' j = .done := by
      rw [List.length_set] at hj
      rw [Function.update_of_ne (by omega)]
      exact hp.idle j hj
    have hfits (j : ℕ) (q' p') (hj : (p.1.threads.set i ⟨q, k r⟩)[j]? = some ⟨q', p'⟩) :
        (Function.update X i x' j).fits q' := by
      rcases set_cases hj with ⟨rfl, heq⟩ | ⟨hij, hj⟩
      · cases heq
        rw [Function.update_self]
        exact hnext.fits (hp.fits i q _ hi)
      · rw [Function.update_of_ne (Ne.symm hij)]
        exact hp.fits j q' p' hj
    have hfree (hc : c = .turn) : p.1.store.busy = false := by
      subst hc
      simpa only [Queued, hi] using hq
    have hlock := hp.call_busy (e := e) hnext hfree
    have hflight := hp.call_inFlight hnext hr
    refine ⟨hconf, hidle, hfits, hlock.1, hlock.2, hflight.1, fun j => ?_⟩
    by_cases hji : j = i
    · rw [hji, Function.update_self]
      exact hflight.2
    · rw [Function.update_of_ne hji]
      exact hp.unshared j

end Step

/-! ### No replaced token comes back -/

/-- The tokens an operation is about to store. -/
def Stage.held : Stage → List String
  | .writing _ access refresh => access :: refresh.toList
  | .rotating _ refresh => [refresh]
  | .saving tokens => [tokens.accessToken, tokens.refreshToken]
  | .savingRefresh refresh => [refresh]
  | _ => []

/-- The access token an operation is about to store. -/
def Stage.pending : Stage → Option String
  | .writing _ access _ => some access
  | .saving tokens => some tokens.accessToken
  | _ => none

/-- What an operation in the stage may have read. -/
def Stage.hasRead (token : Option String) : Stage → Prop
  | .attaching => False
  | .sending used => token = used
  | .queued used => token = used
  | .entered used => token = used
  | _ => True

def Device.token (d : Device) (k : Key) : Option String := present (d.store k)

/-- What is stored after a call. -/
def Call.after (s : SecureStore) : Call → SecureStore
  | .write k v => Function.update s k (some v)
  | .delete k => Function.update s k none
  | _ => s

@[simp] theorem exec_store (e : Env) (c : Call) (d : Device) : (exec e c d).2.store = c.after d.store := by
  cases c <;> rfl

theorem present_eq_some {t : Option String} {v : String} : present t = some v ↔ t = some v ∧ v ≠ "" := by
  simp [present, Option.filter_eq_some_iff]

theorem Next.held {i : ℕ} {q : Request} {s : SecureStore} {x x' : Stage} {c : Call} {r : Reply c}
    (h : Next x c r x') {v : String} (hv : v ∈ x'.held) :
    v ∈ x.held ∨ some v ∈ (⟨i, q, s, c, r⟩ : Event).answers := by
  cases h with
  | answered refresh access data haccess =>
    right
    simp only [Stage.held, List.mem_cons, Option.mem_toList, present_eq_some] at hv haccess
    simp only [Event.answers, List.mem_cons, haccess.1]
    rcases hv with rfl | ⟨hv, -⟩
    · exact .inl rfl
    · exact .inr (.inl hv.symm)
  | logsIn | registers =>
    right
    simpa [Stage.held, Event.answers] using hv
  | writes posted access refresh => exact .inl (List.mem_cons_of_mem _ hv)
  | saves tokens => exact .inl (List.mem_cons_of_mem _ hv)
  | _ => cases hv

theorem Next.pending {i : ℕ} {q : Request} {s : SecureStore} {x x' : Stage} {c : Call} {r : Reply c}
    (h : Next x c r x') {a : String} (ha : x'.pending = some a) :
    some a ∈ (⟨i, q, s, c, r⟩ : Event).answers := by
  cases h with
  | answered refresh access data haccess =>
    cases ha
    exact List.mem_cons.2 (.inl (present_eq_some.1 haccess).1.symm)
  | logsIn | registers =>
    cases ha
    exact List.mem_cons_self
  | _ => cases ha

theorem Next.stores {k : Key} {v : String} {x x' : Stage} {r : Unit} (h : Next x (.write k v) r x') :
    v ∈ x.held ∧ (k = .accessToken → x.pending = some v) := by
  cases h <;> simp [Stage.held, Stage.pending]

theorem Next.hasRead {token : Option String} {x x' : Stage} {c : Call} {r : Reply c} (h : Next x c r x')
    (hx : x.hasRead token) : x'.hasRead token := by
  cases h <;> first | exact hx | trivial

theorem Next.reads {token : Option String} {x x' : Stage} (h : Next x (.read .accessToken) token x') :
    x'.hasRead (present token) := by
  cases h <;> first | rfl | trivial

structure Tracked (store : SecureStore) (X : ℕ → Stage) (p : Observed) : Prop where
  issued : ∀ r ∈ p.2, r.i < p.1.threads.length
  stored : ∀ k v, p.1.store.store k = some v → v ∈ known store p.2
  read : ∀ r ∈ p.2, ∀ v, r.readsAccess = some (some v) → v ∈ known store p.2
  held : ∀ i, ∀ v ∈ (X i).held, v ∈ known store p.2 ∧ v ≠ ""
  unread : ∀ i a, (X i).pending = some a →
    p.1.store.token .accessToken ≠ some a ∧ ∀ r ∈ p.2, r.readsAccess ≠ some (some a)
  unique : ∀ i j a, (X i).pending = some a → (X j).pending = some a → i = j
  used : ∀ r ∈ p.2, ∀ t, r.readsAccess = some t → (X r.i).hasRead t
  replaced : ∀ r a v, [r, a].Sublist p.2 → r.readsAccess = some (some v) → a.writesAccess = true →
    p.1.store.token .accessToken ≠ some v

theorem mem_known_concat {store : SecureStore} {h : List Event} {b : Event} {v : String} :
    v ∈ known store (h ++ [b]) ↔ v ∈ known store h ∨ some v ∈ b.answers := by
  simp [known, List.reduceOption_mem_iff, or_assoc]

theorem stage_start_tokens (q : Request) : q.stage.held = [] ∧ q.stage.pending = none := by
  cases q with
  | request path =>
    simp only [Request.stage]
    split <;> exact ⟨rfl, rfl⟩
  | login | register | logout => exact ⟨rfl, rfl⟩

/-- A pair of events in a history that has one more. -/
theorem sublist_pair_concat {r a b : Event} {h : List Event} (hs : [r, a].Sublist (h ++ [b])) :
    [r, a].Sublist h ∨ a = b ∧ r ∈ h := by
  rcases List.sublist_append_iff.1 hs with ⟨l₁, l₂, heq, h₁, h₂⟩
  rcases List.sublist_singleton.1 h₂ with rfl | rfl
  · rw [List.append_nil] at heq
    subst heq
    exact .inl h₁
  · obtain ⟨rfl, hab⟩ : [r] = l₁ ∧ [a] = [b] := List.append_inj' heq rfl
    cases hab
    exact .inr ⟨rfl, List.singleton_sublist.1 h₁⟩

/-- An access token that is read is the stored one. -/
theorem reads_token {i : ℕ} {q : Request} {s : SecureStore} {c : Call} {r : Reply c} {e : Env} {d : Device}
    (hr : r = (exec e c d).1) {t : Option String}
    (h : (⟨i, q, s, c, r⟩ : Event).readsAccess = some t) :
    c = .read .accessToken ∧ t = d.token .accessToken := by
  unfold Event.readsAccess at h
  split at h
  · rename_i heq
    cases heq
    cases h
    rw [hr]
    exact ⟨rfl, rfl⟩
  · cases h

theorem writes_write {b : Event} (h : b.writesAccess = true) : ∃ v, b.call = .write .accessToken v := by
  unfold Event.writesAccess at h
  split at h
  · exact ⟨_, rfl⟩
  · cases h

section Step
variable {store : SecureStore} {X X' : ℕ → Stage} {p p' : Observed} {l : Step}

theorem fresh_answer {b : Event} (hf : Fresh store p l) (hb : event p.1 l = some b) {v : String}
    (hv : some v ∈ b.answers) : v ∉ known store p.2 ∧ v ≠ "" := by
  obtain ⟨v', hpresent, hnew⟩ := (Option.any_eq_true _ _).1 (hf b hb _ hv)
  obtain ⟨heq, hne⟩ := present_eq_some.1 hpresent
  cases heq
  exact ⟨of_decide_eq_true hnew, hne⟩

theorem event_cases {w : World} {l : Step} {b : Event} (h : event w l = some b) :
    ∃ i e q c k, l = .advance i e ∧ w.threads[i]? = some ⟨q, .call c k⟩ ∧
      b = ⟨i, q, w.store.store, c, (exec e c w.store).1⟩ := by
  cases l with
  | spawn | env => cases h
  | advance i e =>
    simp only [event] at h
    split at h
    · rename_i q c k hi
      cases h
      exact ⟨i, e, q, c, k, rfl, hi, rfl⟩
    · cases h

theorem event_calls {w : World} {i : ℕ} {q : Request} {c : Call} {k : Reply c → Handler (Except Unit Unit)}
    (hi : w.threads[i]? = some ⟨q, .call c k⟩) (e : Env) :
    event w (.advance i e) = some ⟨i, q, w.store.store, c, (exec e c w.store).1⟩ := by
  simp only [event, hi]

theorem after_cases {s : SecureStore} {c : Call} {k : Key} {v : String} (h : c.after s k = some v) :
    c = .write k v ∨ s k = some v ∧ ∀ v', c ≠ .write k v' := by
  cases c with
  | write k' v' =>
    by_cases hk : k = k'
    · subst hk
      simp only [Call.after, Function.update_self, Option.some.injEq] at h
      exact .inl (by rw [h])
    · simp only [Call.after, Function.update_of_ne hk] at h
      refine .inr ⟨h, fun v'' heq => hk ?_⟩
      cases heq
      rfl
  | delete k' =>
    by_cases hk : k = k'
    · subst hk
      simp [Call.after] at h
    · simp only [Call.after, Function.update_of_ne hk] at h
      exact .inr ⟨h, nofun⟩
  | _ => exact .inr ⟨h, nofun⟩

/-- The access token after a call is one that was pending, or the one before. -/
theorem access_cases {i : ℕ} {e : Env} {c : Call} {r : Reply c} {d : Device} {x' : Stage}
    (hnext : Next (X i) c r x') {v : String} (hv : (exec e c d).2.token .accessToken = some v) :
    (X i).pending = some v ∨ d.token .accessToken = some v ∧ ∀ v', c ≠ .write .accessToken v' := by
  rw [Device.token, exec_store, present_eq_some] at hv
  rcases after_cases hv.1 with rfl | ⟨hs, hc⟩
  · exact .inl ((Next.stores hnext).2 rfl)
  · exact .inr ⟨present_eq_some.2 ⟨hs, hv.2⟩, hc⟩

theorem held_of_pending {x : Stage} {a : String} (h : x.pending = some a) : a ∈ x.held := by
  cases x <;> cases h <;> exact List.mem_cons_self

/-- What is tracked once an operation has been added, which holds no token yet. -/
theorem Tracked.spawn (hp : Tracked store X p) (q : Request) :
    Tracked store (Function.update X p.1.threads.length q.stage)
      ({ p.1 with threads := p.1.threads ++ [⟨q, q.start⟩] }, p.2) := by
  obtain ⟨hheld, hpending⟩ := stage_start_tokens q
  have hother {i : ℕ} {a : String} (hi : (Function.update X p.1.threads.length q.stage i).pending = some a) :
      (X i).pending = some a := by
    by_cases hlen : i = p.1.threads.length
    · rw [hlen, Function.update_self, hpending] at hi
      cases hi
    · rwa [Function.update_of_ne hlen] at hi
  refine ⟨fun r hr => ?_, hp.stored, hp.read, fun i v hv => ?_, fun i a ha => hp.unread i a (hother ha),
    fun i j a hi hj => hp.unique i j a (hother hi) (hother hj), fun r hr t ht => ?_, hp.replaced⟩
  · rw [List.length_append]
    exact Nat.lt_add_right _ (hp.issued r hr)
  · by_cases hlen : i = p.1.threads.length
    · rw [hlen, Function.update_self, hheld] at hv
      cases hv
    · rw [Function.update_of_ne hlen] at hv
      exact hp.held i v hv
  · rw [Function.update_of_ne (Nat.ne_of_lt (hp.issued r hr))]
    exact hp.used r hr t ht

section Call
variable {i : ℕ} {q : Request} {s : SecureStore} {e : Env} {c : Call} {r : Reply c} {x' : Stage}

/-- An access token read by now was read before the call, or by it. -/
theorem reads_concat {h : List Event} {d : Device} (hr : r = (exec e c d).1) {b : Event}
    (hb : b ∈ h ++ [⟨i, q, s, c, r⟩]) {t : Option String} (ht : b.readsAccess = some t) :
    b ∈ h ∨ b.i = i ∧ c = .read .accessToken ∧ t = d.token .accessToken := by
  rcases List.mem_append.1 hb with hb | hb
  · exact .inl hb
  · cases List.mem_singleton.1 hb
    exact .inr ⟨rfl, reads_token hr ht⟩

theorem Tracked.token_known (hp : Tracked store X p) {v : String}
    (hv : p.1.store.token .accessToken = some v) : v ∈ known store p.2 :=
  hp.stored _ _ (present_eq_some.1 hv).1

theorem Tracked.pending_known (hp : Tracked store X p) {j : ℕ} {a : String} (hj : (X j).pending = some a) :
    a ∈ known store p.2 :=
  (hp.held j a (held_of_pending hj)).1

/-- A pending token is still unread after a call, whoever holds it. -/
theorem Tracked.call_unread (hp : Tracked store X p) (hr : r = (exec e c p.1.store).1)
    (hnext : Next (X i) c r x') (hnew : ∀ a, x'.pending = some a → a ∉ known store p.2) {j : ℕ} {a : String}
    (hj : (Function.update X i x' j).pending = some a) :
    (exec e c p.1.store).2.token .accessToken ≠ some a ∧
      ∀ b ∈ p.2 ++ [⟨i, q, s, c, r⟩], b.readsAccess ≠ some (some a) := by
  by_cases hji : j = i
  · -- it has just been answered, so nothing has stored or read it
    rw [hji, Function.update_self] at hj
    refine ⟨fun hv => ?_, fun b hb ht => ?_⟩
    · rcases access_cases hnext hv with hX | ⟨htok, -⟩
      · exact hnew a hj (hp.pending_known hX)
      · exact hnew a hj (hp.token_known htok)
    · rcases reads_concat hr hb ht with hb | ⟨-, -, htok⟩
      · exact hnew a hj (hp.read b hb a ht)
      · exact hnew a hj (hp.token_known htok.symm)
  · rw [Function.update_of_ne hji] at hj
    obtain ⟨hstored, hunread⟩ := hp.unread j a hj
    refine ⟨fun hv => ?_, fun b hb ht => ?_⟩
    · rcases access_cases hnext hv with hX | ⟨htok, -⟩
      · exact hji (hp.unique j i a hj hX)
      · exact hstored htok
    · rcases reads_concat hr hb ht with hb | ⟨-, -, htok⟩
      · exact hunread b hb ht
      · exact hstored htok.symm

theorem Tracked.call_unique (hp : Tracked store X p)
    (hnew : ∀ a, x'.pending = some a → a ∉ known store p.2) {j j' : ℕ} {a : String}
    (hj : (Function.update X i x' j).pending = some a)
    (hj' : (Function.update X i x' j').pending = some a) : j = j' := by
  by_cases hji : j = i
  · rw [hji, Function.update_self] at hj
    by_cases hji' : j' = i
    · exact hji.trans hji'.symm
    · rw [Function.update_of_ne hji'] at hj'
      exact absurd (hp.pending_known hj') (hnew a hj)
  · rw [Function.update_of_ne hji] at hj
    by_cases hji' : j' = i
    · rw [hji', Function.update_self] at hj'
      exact absurd (hp.pending_known hj) (hnew a hj')
    · rw [Function.update_of_ne hji'] at hj'
      exact hp.unique j j' a hj hj'

/-- What was read before a later write of the access token is not stored after a call either. -/
theorem Tracked.call_replaced (hp : Tracked store X p) (hnext : Next (X i) c r x') {b a : Event} {v : String}
    (hs : [b, a].Sublist (p.2 ++ [⟨i, q, s, c, r⟩])) (hb : b.readsAccess = some (some v))
    (ha : a.writesAccess = true) : (exec e c p.1.store).2.token .accessToken ≠ some v := by
  intro hv
  have hpend (hmem : b ∈ p.2) : (X i).pending ≠ some v := fun hX => (hp.unread i v hX).2 b hmem hb
  rcases sublist_pair_concat hs with hs | ⟨rfl, hmem⟩
  · rcases access_cases hnext hv with hX | ⟨htok, -⟩
    · exact hpend (hs.subset List.mem_cons_self) hX
    · exact hp.replaced b a v hs hb ha htok
  · rcases access_cases hnext hv with hX | ⟨-, hc⟩
    · exact hpend hmem hX
    · obtain ⟨v', hv'⟩ := writes_write ha
      exact hc v' hv'

end Call

theorem Tracked.step (hp : Tracked store X p) (hm : Moves X p l X' p') (hf : Fresh store p l) :
    Tracked store X' p' := by
  cases hm with
  | stays i e hi => exact hp
  | spawns q e => exact hp.spawn q
  | calls i e q c k x' r hi hr hnext =>
    have hself : Function.update X i x' i = x' := Function.update_self ..
    have hother {j : ℕ} (hj : j ≠ i) : Function.update X i x' j = X j := Function.update_of_ne hj _ _
    have hfresh {v : String} := fresh_answer hf (event_calls hi e) (v := v)
    have hnew (a : String) (ha : x'.pending = some a) : a ∉ known store p.2 := by
      subst hr
      exact (hfresh (hnext.pending (i := i) (q := q) (s := p.1.store.store) ha)).1
    refine ⟨fun b hb => ?_, fun k' v hv => ?_, fun b hb v hv => ?_, fun j v hv => ?_,
      fun j a hj => hp.call_unread hr hnext hnew hj, fun j j' a hj hj' => hp.call_unique hnew hj hj',
      fun b hb t ht => ?_, fun b a v hs hb ha => hp.call_replaced hnext hs hb ha⟩
    · rw [List.length_set]
      rcases List.mem_append.1 hb with hb | hb
      · exact hp.issued b hb
      · cases List.mem_singleton.1 hb
        exact (List.getElem?_eq_some_iff.1 hi).1
    · rw [exec_store] at hv
      refine mem_known_concat.2 (.inl ?_)
      rcases after_cases hv with rfl | ⟨hs, -⟩
      · exact (hp.held i v (Next.stores hnext).1).1
      · exact hp.stored k' v hs
    · refine mem_known_concat.2 (.inl ?_)
      rcases reads_concat hr hb hv with hb | ⟨-, -, htok⟩
      · exact hp.read b hb v hv
      · exact hp.token_known htok.symm
    · by_cases hji : j = i
      · rw [hji, hself] at hv
        rcases hnext.held (i := i) (q := q) (s := p.1.store.store) hv with hv | hv
        · exact ⟨mem_known_concat.2 (.inl (hp.held i v hv).1), (hp.held i v hv).2⟩
        · subst hr
          exact ⟨mem_known_concat.2 (.inr hv), (hfresh hv).2⟩
      · rw [hother hji] at hv
        exact ⟨mem_known_concat.2 (.inl (hp.held j v hv).1), (hp.held j v hv).2⟩
    · rcases reads_concat hr hb ht with hb' | ⟨hbi, hc, htok⟩
      · by_cases hbi : b.i = i
        · rw [hbi, hself]
          exact hnext.hasRead (hbi ▸ hp.used b hb' t ht)
        · rw [hother hbi]
          exact hp.used b hb' t ht
      · subst hc
        rw [hbi, hself, htok]
        subst hr
        exact Next.reads hnext

/-! ### What an undisturbed operation has seen -/

/-- A sign-in or a sign-out between its two accesses. -/
def Stage.midway : Stage → Bool
  | .savingRefresh _ => true
  | .clearingOutRefresh => true
  | _ => false

/-- What is still true if nobody has disturbed the operation. -/
def Seen (h : List Event) (d : Device) (i : ℕ) : Stage → Prop
  | .joining | .refreshing | .completing false | .deleting => Replaced h i → d.token .accessToken = none
  | .posting posted | .writing posted .. =>
    (Replaced h i → d.token .accessToken = none) ∧ d.token .refreshToken = some posted
  | .rotating posted _ =>
    ¬ Outdated h i ∧ d.token .refreshToken = some posted ∧ d.token .accessToken ≠ none
  | .deletingRefresh => d.token .accessToken = none ∧ (Outdated h i → d.token .refreshToken = none)
  | .expiring | .leaving true | .clearing | .clearingRefresh => ∀ k, d.token k = none
  | _ => True

structure Settled (X : ℕ → Stage) (p : Observed) : Prop where
  saving : ∀ i refresh, X i = .savingRefresh refresh → p.1.store.token .accessToken ≠ none
  clearing : ∀ i, X i = .clearingOutRefresh → p.1.store.store .accessToken = none
  paired : (∃ a ∈ p.2, a.writesAccess = true) → (∀ i, (X i).midway = false) →
    (∀ i, X i ≠ .deletingRefresh) → p.1.store.token .accessToken = none →
    p.1.store.token .refreshToken = none
  seen : ∀ i, disturbed p.2 i = false → (∀ j, (X j).midway = false) → Seen p.2 p.1.store i (X i)

/-- An operation that is not done has a call to make. -/
theorem Locked.pending {w : World} (hX : Locked X w) {j : ℕ} (hj : X j ≠ .done) :
    ∃ q c k, w.threads[j]? = some ⟨q, .call c k⟩ ∧ (X j).fits q ∧ ∃ r x', Next (X j) c r x' := by
  have hlt : j < w.threads.length := by
    by_contra hge
    exact hj (hX.idle j (Nat.le_of_not_lt hge))
  obtain ⟨⟨q, pr⟩, ht⟩ : ∃ t, w.threads[j]? = some t := ⟨_, List.getElem?_eq_getElem hlt⟩
  have hconf := hX.conform j q pr ht
  cases pr with
  | ret a => exact absurd hconf hj
  | call c k =>
    obtain ⟨x', hnext, -⟩ := hconf (exec {} c w.store).1 trivial
    exact ⟨q, c, k, ht, hX.fits j q _ ht, _, x', hnext⟩

theorem Locked.betweenWrites {w : World} (hX : Locked X w) {j : ℕ} {refresh : String}
    (hj : X j = .savingRefresh refresh) : ∃ t ∈ w.threads, betweenWrites t = true := by
  obtain ⟨q, c, k, ht, hfits, r, x', hnext⟩ := hX.pending (j := j) (by rw [hj]; nofun)
  rw [hj] at hfits hnext
  cases hnext
  have hq : q.signsIn = true := hfits
  exact ⟨_, List.mem_of_getElem? ht, by simp [Auth.betweenWrites, hq]⟩

theorem Locked.betweenDeletes {w : World} (hX : Locked X w) {j : ℕ} (hj : X j = .clearingOutRefresh) :
    ∃ t ∈ w.threads, betweenDeletes t = true := by
  obtain ⟨q, c, k, ht, hfits, r, x', hnext⟩ := hX.pending (j := j) (by rw [hj]; nofun)
  rw [hj] at hfits hnext
  cases hnext
  have hq : q = .logout := hfits
  exact ⟨_, List.mem_of_getElem? ht, by simp [Auth.betweenDeletes, hq]⟩

theorem token_eq_none {d : Device} {k : Key} (h : (present (d.store k)).isSome = true) :
    d.token k ≠ none := by
  intro hnone
  rw [show present (d.store k) = none from hnone] at h
  cases h

/-- A request that changes what is stored is inside `onError`, and there is a token to change. -/
theorem Seen.change {h : List Event} {d : Device} {i : ℕ} {q : Request} {x x' : Stage} {c : Call}
    {r : Reply c} (hseen : Seen h d i x) (hnext : Next x c r x') (hfits : x.fits q)
    (hq : q.isRequest = true) (hb : (⟨i, q, d.store, c, r⟩ : Event).changes = true) :
    x.inside = true ∧ ∃ k, d.token k ≠ none := by
  have hrefresh {v : String} (hv : d.token .refreshToken = some v) : ∃ k, d.token k ≠ none :=
    ⟨.refreshToken, by rw [hv]; nofun⟩
  cases hnext with
  | writesOne | writes => exact ⟨rfl, hrefresh hseen.2⟩
  | rotates => exact ⟨rfl, hrefresh hseen.2.1⟩
  | deletes | deletesRefresh => exact ⟨rfl, _, token_eq_none hb⟩
  | clears | clearsRefresh => exact absurd (hseen _) (token_eq_none hb)
  | saves | savesRefresh =>
    exact (not_request hfits hq).elim
  | clearsOut | clearsOutRefresh =>
    have hq' : q = .logout := hfits
    subst hq'
    cases hq
  | _ => cases hb

/-- What an operation that changes what is stored may be. -/
theorem changes_cases (hX : Locked X p.1) (hp : Settled X p) {i : ℕ} {q : Request} {c : Call}
    {k : Reply c → Handler (Except Unit Unit)} {r : Reply c} {e : Env} {x' : Stage}
    (hi : p.1.threads[i]? = some ⟨q, .call c k⟩) (hr : r = (exec e c p.1.store).1)
    (hnext : Next (X i) c r x') (ha : Apart p (.advance i e))
    (hb : (⟨i, q, p.1.store.store, c, r⟩ : Event).changes = true) :
    (q.isRequest = true ∧ Seen p.2 p.1.store i (X i) ∧ (∀ j, (X j).midway = false) ∧
      (X i).inside = true ∧ ∃ k, p.1.store.token k ≠ none) ∨
    (q = .logout ∧ ∀ j refresh, X j ≠ .savingRefresh refresh) ∨
    (q.signsIn = true ∧ ∀ j, X j ≠ .clearingOutRefresh) := by
  have hallowed := ha _ (event_calls hi e) (hr ▸ hb)
  have hwrites (hall : p.1.threads.all (fun t => !betweenWrites t) = true) (j : ℕ) (refresh : String) :
      X j ≠ .savingRefresh refresh := fun hj => by
    obtain ⟨t, ht, hbetween⟩ := hX.betweenWrites hj
    have hnot := List.all_eq_true.1 hall t ht
    rw [hbetween] at hnot
    cases hnot
  have hdeletes (hall : p.1.threads.all (fun t => !betweenDeletes t) = true) (j : ℕ) :
      X j ≠ .clearingOutRefresh := fun hj => by
    obtain ⟨t, ht, hbetween⟩ := hX.betweenDeletes hj
    have hnot := List.all_eq_true.1 hall t ht
    rw [hbetween] at hnot
    cases hnot
  cases q with
  | request path =>
    left
    obtain ⟨hundisturbed, hall⟩ := Bool.and_eq_true_iff.1 hallowed
    have hall (t) (ht : t ∈ p.1.threads) := Bool.and_eq_true_iff.1 (List.all_eq_true.1 hall t ht)
    have hmidway (j : ℕ) : (X j).midway = false := by
      cases hj : X j with
      | savingRefresh refresh =>
        exact absurd hj (hwrites (List.all_eq_true.2 fun t ht => (hall t ht).1) j refresh)
      | clearingOutRefresh =>
        exact absurd hj (hdeletes (List.all_eq_true.2 fun t ht => (hall t ht).2) j)
      | _ => rfl
    have hseen := hp.seen i (by simpa using hundisturbed) hmidway
    exact ⟨rfl, hseen, hmidway, hseen.change hnext (hX.fits i _ _ hi) rfl hb⟩
  | logout => exact .inr (.inl ⟨rfl, hwrites hallowed⟩)
  | login | register => exact .inr (.inr ⟨rfl, hdeletes hallowed⟩)

/-! ### What a call leaves as it was -/

theorem token_unchanged {i : ℕ} {q : Request} {c : Call} {r : Reply c} {e : Env} {d : Device}
    (hb : (⟨i, q, d.store, c, r⟩ : Event).changes = false) (k : Key) :
    (exec e c d).2.token k = d.token k := by
  rw [Device.token, Device.token, exec_store]
  cases c with
  | write => cases hb
  | delete k' =>
    by_cases hk : k = k'
    · subst hk
      have hnone : present (d.store k) = none := by simpa [Event.changes] using hb
      rw [hnone]
      simp [Call.after, present]
    · simp only [Call.after, Function.update_of_ne hk]
  | _ => rfl

theorem replaced_concat {h : List Event} {b : Event} {j : ℕ} (hb : b.writesAccess = false)
    (hj : Replaced (h ++ [b]) j) : Replaced h j := by
  obtain ⟨r, a, hs, hr, hread, ha⟩ := hj
  rcases sublist_pair_concat hs with hs | ⟨rfl, -⟩
  · exact ⟨r, a, hs, hr, hread, ha⟩
  · rw [hb] at ha
    cases ha

theorem outdated_concat {h : List Event} {b : Event} {j : ℕ} (hb : b.signedIn = false)
    (hj : Outdated (h ++ [b]) j) : Outdated h j := by
  obtain ⟨r, a, c, hs, hr, hread, hi, ha, hc⟩ := hj
  rcases List.sublist_append_iff.1 hs with ⟨l₁, l₂, heq, h₁, h₂⟩
  rcases List.sublist_singleton.1 h₂ with rfl | rfl
  · rw [List.append_nil] at heq
    exact ⟨r, a, c, heq ▸ h₁, hr, hread, hi, ha, hc⟩
  · obtain ⟨-, hcb⟩ : [r, a] = l₁ ∧ [c] = [b] := List.append_inj' heq rfl
    cases hcb
    rw [hb] at hc
    cases hc

theorem Outdated.replaced {h : List Event} {j : ℕ} (hj : Outdated h j) : Replaced h j := by
  obtain ⟨r, a, c, hs, hr, hread, -, ha, -⟩ := hj
  exact ⟨r, a, ((List.sublist_append_left [r, a] [c]).trans hs), hr, hread, ha⟩

theorem Replaced.written {h : List Event} {j : ℕ} (hj : Replaced h j) :
    ∃ a ∈ h, a.writesAccess = true := by
  obtain ⟨r, a, hs, -, -, ha⟩ := hj
  exact ⟨a, hs.subset (by simp), ha⟩

theorem disturbed_concat {h : List Event} {b : Event} {j : ℕ} (hj : disturbed (h ++ [b]) j = false) :
    (b.i = j ∧ b.readsAccess.isSome = true) ∨ (disturbed h j = false ∧ b.touches = false) := by
  rw [disturbed, List.foldl_append, List.foldl_cons, List.foldl_nil] at hj
  split at hj
  · exact .inl ‹_›
  · exact .inr (Bool.or_eq_false_iff.1 hj)

theorem Seen.mono {h h' : List Event} {d d' : Device} {i : ℕ} {x : Stage} (hx : Seen h d i x)
    (hd : ∀ k, d'.token k = d.token k) (hreplaced : Replaced h' i → Replaced h i)
    (houtdated : Outdated h' i → Outdated h i) : Seen h' d' i x := by
  cases x with
  | joining | refreshing | deleting => exact fun hr => (hd _).trans (hx (hreplaced hr))
  | completing ok =>
    cases ok with
    | true => trivial
    | false => exact fun hr => (hd _).trans (hx (hreplaced hr))
  | posting | writing => exact ⟨fun hr => (hd _).trans (hx.1 (hreplaced hr)), (hd _).trans hx.2⟩
  | rotating => exact ⟨fun ho => hx.1 (houtdated ho), (hd _).trans hx.2.1, fun h => hx.2.2 ((hd _).symm.trans h)⟩
  | deletingRefresh => exact ⟨(hd _).trans hx.1, fun ho => (hd _).trans (hx.2 (houtdated ho))⟩
  | leaving clears =>
    cases clears with
    | true => exact fun k => (hd k).trans (hx k)
    | false => trivial
  | expiring | clearing | clearingRefresh => exact fun k => (hd k).trans (hx k)
  | _ => trivial

/-- The operation between its two writes, or its two deletes, is one whose next call touches the storage. -/
theorem Next.touches {i : ℕ} {q : Request} {s : SecureStore} {x x' : Stage} {c : Call} {r : Reply c}
    (h : Next x c r x') (hfits : x.fits q) (hx : x.midway = true) :
    (⟨i, q, s, c, r⟩ : Event).touches = true := by
  cases h with
  | savesRefresh =>
    have hq : q.signsIn = true := hfits
    cases q <;> first | rfl | cases hq
  | clearsOutRefresh =>
    have hq : q = .logout := hfits
    rw [hq]
    rfl
  | _ => cases hx

theorem stale_token {d : Device} {used : Option String}
    (h : tokenAlreadyRotated (d.store .accessToken) used = false) :
    d.token .accessToken = none ∨ d.token .accessToken = present used := by
  rcases Bool.and_eq_false_iff.1 h with h | h
  · exact .inl (Option.isSome_eq_false_iff.1 h |> Option.isNone_iff_eq_none.1)
  · right
    have heq : d.store .accessToken = used := by simpa using h
    rw [Device.token, heq]

theorem Settled.without (hX : Locked X p.1) (hp : Settled X p) {i : ℕ}
    (hi : (X i).inside = true) (hne : X i ≠ .deletingRefresh) (hfree : ∀ j, (X j).midway = false)
    (hwritten : ∃ a ∈ p.2, a.writesAccess = true) (hnone : p.1.store.token .accessToken = none) :
    p.1.store.token .refreshToken = none := by
  refine hp.paired hwritten hfree (fun j hj => ?_) hnone
  have hij := hX.alone j i (by rw [hj]; rfl) hi
  rw [hij] at hj
  exact hne hj

/-! ### A call keeps it -/

section Call
variable {i : ℕ} {q : Request} {c : Call} {r : Reply c} {e : Env} {x' : Stage}

theorem not_writes {s : SecureStore} (hb : (⟨i, q, s, c, r⟩ : Event).changes = false) :
    (⟨i, q, s, c, r⟩ : Event).writesAccess = false ∧ (⟨i, q, s, c, r⟩ : Event).signedIn = false := by
  cases c <;> first | exact ⟨rfl, rfl⟩ | cases hb

theorem Seen.kept {x : Stage} {j : ℕ} (hx : Seen p.2 p.1.store j x)
    (hb : (⟨i, q, p.1.store.store, c, r⟩ : Event).changes = false) :
    Seen (p.2 ++ [⟨i, q, p.1.store.store, c, r⟩]) (exec e c p.1.store).2 j x :=
  hx.mono (token_unchanged hb) (replaced_concat (not_writes hb).1) (outdated_concat (not_writes hb).2)

theorem Settled.seen_self (hX : Locked X p.1) (ht : Tracked store X p) (hp : Settled X p)
    (hr : r = (exec e c p.1.store).1) (hnext : Next (X i) c r x') (hq : (X i).fits q)
    (hfree : ∀ j, (X j).midway = false)
    (hi : disturbed (p.2 ++ [⟨i, q, p.1.store.store, c, r⟩]) i = false) :
    Seen (p.2 ++ [⟨i, q, p.1.store.store, c, r⟩]) (exec e c p.1.store).2 i x' := by
  have hseen (hread : (⟨i, q, p.1.store.store, c, r⟩ : Event).readsAccess = none) :
      Seen p.2 p.1.store i (X i) := by
    rcases disturbed_concat hi with ⟨-, hsome⟩ | ⟨hi, -⟩
    · rw [hread] at hsome
      cases hsome
    · exact hp.seen i hi hfree
  have hwithout := hp.without hX (i := i)
  have hheld := ht.held i
  have hused := ht.used
  have hshare := hX.unshared i
  generalize hx : X i = x at *
  cases hnext with
  | stale used current h =>
    rintro ⟨b, a, hs, hri, hread, ha⟩
    have hs := (sublist_pair_concat hs).resolve_right fun ⟨heq, _⟩ => by
      rw [heq] at ha
      cases ha
    obtain ⟨t, ht'⟩ := Option.isSome_iff_exists.1 hread
    have hown : (X b.i).hasRead t := hused b (hs.subset List.mem_cons_self) t ht'
    rw [hri, hx] at hown
    have hown : t = used := hown
    show p.1.store.token .accessToken = none
    cases htoken : p.1.store.token .accessToken with
    | none => rfl
    | some v =>
      have hv : present used = some v := by
        rcases stale_token (hr ▸ h) with hnone | hv
        · rw [htoken] at hnone
          cases hnone
        · rw [← hv, htoken]
      refine absurd htoken (ht.replaced b a v hs ?_ ha)
      rw [ht', hown, (present_eq_some.1 hv).1]
  | starts => exact (hseen rfl).kept rfl
  | shared | sharedFailure => exact absurd rfl hshare
  | lacks token h => exact (hseen rfl).kept rfl
  | has token refresh h =>
    refine ⟨(hseen rfl).kept rfl, ?_⟩
    rw [← h, hr]
    rfl
  | refused refresh resp => exact ((hseen rfl).kept rfl).1
  | answered refresh access data h => exact (hseen rfl).kept rfl
  | writes posted access refresh =>
    obtain ⟨hreplaced, hposted⟩ := hseen rfl
    refine ⟨fun hi => ?_, hposted, fun hnone => ?_⟩
    · have hi := (outdated_concat rfl hi).replaced
      have hnone := hwithout rfl nofun hfree hi.written (hreplaced hi)
      rw [hposted] at hnone
      cases hnone
    · have haccess : present (some access) = some access :=
        present_eq_some.2 ⟨rfl, (hheld access List.mem_cons_self).2⟩
      have hnone : present (some access) = none := hnone
      rw [haccess] at hnone
      cases hnone
  | gives => exact (hseen rfl).kept rfl
  | deletes =>
    refine ⟨rfl, fun hi => ?_⟩
    have hi := (outdated_concat rfl hi).replaced
    exact hwithout rfl nofun hfree hi.written (hseen rfl hi)
  | deletesRefresh =>
    intro k
    cases k with
    | accessToken => exact (hseen rfl).1
    | refreshToken => rfl
  | expires clears =>
    cases clears with
    | true => exact hseen rfl
    | false => trivial
  | leavesClearing => exact hseen rfl
  | clears =>
    intro k
    cases k with
    | accessToken => rfl
    | refreshToken => exact hseen rfl .refreshToken
  | _ => trivial

variable {k : Reply c → Handler (Except Unit Unit)}

theorem Settled.seen_other (hX : Locked X p.1) (hp : Settled X p)
    (hi : p.1.threads[i]? = some ⟨q, .call c k⟩) (hr : r = (exec e c p.1.store).1)
    (hnext : Next (X i) c r x') (ha : Apart p (.advance i e)) {j : ℕ} (hji : j ≠ i)
    (htouch : (⟨i, q, p.1.store.store, c, r⟩ : Event).touches = false)
    (hj : disturbed p.2 j = false) (hfree : ∀ j, (X j).midway = false) :
    Seen (p.2 ++ [⟨i, q, p.1.store.store, c, r⟩]) (exec e c p.1.store).2 j (X j) := by
  have hseen := hp.seen j hj hfree
  cases hb : (⟨i, q, p.1.store.store, c, r⟩ : Event).changes with
  | false => exact hseen.kept hb
  | true =>
    -- the operation that changes something is inside, so the other one is not
    have hsession (hq : q.isRequest = false) : False := by
      have htouches : (⟨i, q, p.1.store.store, c, r⟩ : Event).touches = true := by
        cases c <;> first | exact congrArg Bool.not hq | cases hb
      rw [htouch] at htouches
      cases htouches
    rcases changes_cases hX hp hi hr hnext ha hb with ⟨-, -, -, hin, key, hkey⟩ | ⟨rfl, -⟩ | ⟨hq, -⟩
    · have hout : (X j).inside ≠ true := fun hj => hji (hX.alone j i hj hin)
      generalize X j = x at *
      cases x with
      | clearing | clearingRefresh => exact absurd (hseen key) hkey
      | _ => trivial
    · exact (hsession rfl).elim
    · cases q with
      | login | register => exact (hsession rfl).elim
      | request | logout => cases hq

theorem Next.fits_delete {key : Key} {x x' : Stage} {r : Unit} (h : Next x (.delete key) r x')
    (hfits : x.fits q) : q.signsIn = false := by
  cases h <;> cases q <;> first | rfl | cases hfits

theorem Next.fits_write {key : Key} {v : String} {x x' : Stage} {r : Unit}
    (h : Next x (.write key v) r x') (hfits : x.fits q) : q ≠ .logout := by
  rintro rfl
  cases h <;> cases hfits

theorem Tracked.token_write (ht : Tracked store X p) {key : Key} {v : String} {r : Unit}
    (hnext : Next (X i) (.write key v) r x') :
    (exec e (.write key v) p.1.store).2.token key = some v := by
  have hne := (ht.held i v hnext.stores.1).2
  simp [Device.token, Call.after, present_eq_some, hne]

theorem Settled.saving_call (hX : Locked X p.1) (ht : Tracked store X p) (hp : Settled X p)
    (hi : p.1.threads[i]? = some ⟨q, .call c k⟩) (hr : r = (exec e c p.1.store).1)
    (hnext : Next (X i) c r x') (ha : Apart p (.advance i e)) {j : ℕ} {refresh : String}
    (hj : Function.update X i x' j = .savingRefresh refresh) :
    (exec e c p.1.store).2.token .accessToken ≠ none := by
  by_cases hji : j = i
  · rw [hji, Function.update_self] at hj
    subst hj
    have hwrite {v : String} (hc : c = .write .accessToken v) :
        (exec e c p.1.store).2.token .accessToken = some v := by
      subst hc
      exact ht.token_write hnext
    generalize X i = x at hnext
    cases hnext with
    | saves tokens =>
      rw [hwrite rfl]
      nofun
  · rw [Function.update_of_ne hji] at hj
    have htoken := hp.saving j refresh hj
    cases hb : (⟨i, q, p.1.store.store, c, r⟩ : Event).changes with
    | false => rwa [token_unchanged hb]
    | true =>
      rcases changes_cases hX hp hi hr hnext ha hb with ⟨-, -, hfree, -⟩ | ⟨-, hnone⟩ | ⟨hq, -⟩
      · have hmidway := hfree j
        rw [hj] at hmidway
        cases hmidway
      · exact absurd hj (hnone j refresh)
      · cases c with
        | write key v =>
          cases key with
          | accessToken =>
            rw [ht.token_write hnext]
            nofun
          | refreshToken => exact htoken
        | delete key =>
          rw [hnext.fits_delete (hX.fits i q _ hi)] at hq
          cases hq
        | _ => cases hb

theorem Settled.clearing_call (hX : Locked X p.1) (hp : Settled X p)
    (hi : p.1.threads[i]? = some ⟨q, .call c k⟩) (hr : r = (exec e c p.1.store).1)
    (hnext : Next (X i) c r x') (ha : Apart p (.advance i e)) {j : ℕ}
    (hj : Function.update X i x' j = .clearingOutRefresh) :
    (exec e c p.1.store).2.store .accessToken = none := by
  by_cases hji : j = i
  · rw [hji, Function.update_self] at hj
    subst hj
    generalize X i = x at hnext
    cases hnext
    rfl
  · rw [Function.update_of_ne hji] at hj
    have hnone := hp.clearing j hj
    refine Option.eq_none_iff_forall_ne_some.2 fun v hv => ?_
    rw [exec_store] at hv
    rcases after_cases hv with rfl | ⟨hv, -⟩
    · rcases changes_cases hX hp hi hr hnext ha rfl with ⟨-, -, hfree, -⟩ | ⟨hq, -⟩ | ⟨-, hnone⟩
      · have hmidway := hfree j
        rw [hj] at hmidway
        cases hmidway
      · exact Next.fits_write hnext (hX.fits i q _ hi) hq
      · exact hnone j hj
    · rw [hnone] at hv
      cases hv

theorem Settled.paired_call (hX : Locked X p.1) (ht : Tracked store X p) (hp : Settled X p)
    (hi : p.1.threads[i]? = some ⟨q, .call c k⟩) (hr : r = (exec e c p.1.store).1)
    (hnext : Next (X i) c r x') (ha : Apart p (.advance i e))
    (hwritten : ∃ a ∈ p.2 ++ [⟨i, q, p.1.store.store, c, r⟩], a.writesAccess = true)
    (hfree : ∀ j, (Function.update X i x' j).midway = false)
    (hnone : ∀ j, Function.update X i x' j ≠ .deletingRefresh)
    (haccess : (exec e c p.1.store).2.token .accessToken = none) :
    (exec e c p.1.store).2.token .refreshToken = none := by
  have hfits := hX.fits i q _ hi
  -- a call that changes nothing, outside of a section
  have hold (hb : (⟨i, q, p.1.store.store, c, r⟩ : Event).changes = false) (hmid : (X i).midway = false)
      (hdel : X i ≠ .deletingRefresh) : (exec e c p.1.store).2.token .refreshToken = none := by
    rw [token_unchanged hb] at haccess ⊢
    refine hp.paired ?_ (fun j => ?_) (fun j => ?_) haccess
    · obtain ⟨a, ha, hw⟩ := hwritten
      rcases List.mem_append.1 ha with ha | ha
      · exact ⟨a, ha, hw⟩
      · rw [List.mem_singleton.1 ha, (not_writes hb).1] at hw
        cases hw
    · by_cases hji : j = i
      · rwa [hji]
      · have hj := hfree j
        rwa [Function.update_of_ne hji] at hj
    · by_cases hji : j = i
      · rwa [hji]
      · have hj := hnone j
        rwa [Function.update_of_ne hji] at hj
  have hself : Function.update X i x' i = x' := Function.update_self ..
  have hfree' := hfree i
  have hnone' := hnone i
  rw [hself] at hfree' hnone'
  have hchanges := changes_cases hX hp hi hr hnext ha
  have hsaving := hp.saving i
  have hwrite {key : Key} {v : String} (hc : c = .write key v) :
      (exec e c p.1.store).2.token key = some v := by
    subst hc
    exact ht.token_write hnext
  generalize X i = x at *
  cases hnext with
  | deletesRefresh | clearsRefresh | clearsOutRefresh => rfl
  | deletes => exact absurd rfl hnone'
  | clearsOut => cases hfree'
  | clears =>
    refine hold (Bool.eq_false_iff.2 fun hb => ?_) rfl nofun
    rcases hchanges hb with ⟨-, -, -, hin, -⟩ | ⟨rfl, -⟩ | ⟨hq, -⟩
    · cases hin
    · cases hfits
    · exact (not_request hq hfits).elim
  | writesOne | writes | saves =>
    rw [hwrite rfl] at haccess
    cases haccess
  | savesRefresh => exact absurd haccess (hsaving _ rfl)
  | rotates =>
    rcases hchanges rfl with ⟨-, hseen, -⟩ | ⟨rfl, -⟩ | ⟨hq, -⟩
    · exact absurd haccess hseen.2.2
    · cases hfits
    · exact (not_request hq hfits).elim
  | _ => exact hold rfl rfl nofun

theorem Settled.call (hX : Locked X p.1) (ht : Tracked store X p) (hp : Settled X p)
    (hi : p.1.threads[i]? = some ⟨q, .call c k⟩) (hr : r = (exec e c p.1.store).1)
    (hnext : Next (X i) c r x') (ha : Apart p (.advance i e)) :
    Settled (Function.update X i x') (⟨(exec e c p.1.store).2, p.1.threads.set i ⟨q, k r⟩⟩,
      p.2 ++ [⟨i, q, p.1.store.store, c, r⟩]) := by
  refine ⟨fun j refresh => hp.saving_call hX ht hi hr hnext ha, fun j => hp.clearing_call hX hi hr hnext ha,
    hp.paired_call hX ht hi hr hnext ha, fun j hj hfree => ?_⟩
  have hfits := hX.fits i q _ hi
  have htouch (hread : ¬ ((⟨i, q, p.1.store.store, c, r⟩ : Event).readsAccess.isSome = true)) :
      disturbed p.2 j = false ∧ (⟨i, q, p.1.store.store, c, r⟩ : Event).touches = false :=
    (disturbed_concat hj).resolve_left fun h => hread h.2
  -- nobody was midway before either
  have hold (j' : ℕ) : (X j').midway = false := by
    by_cases hji : j' = i
    · subst hji
      refine Bool.eq_false_iff.2 fun hmid => ?_
      have htouches := hnext.touches (i := j') (q := q) (s := p.1.store.store) hfits hmid
      rcases disturbed_concat hj with ⟨-, hread⟩ | ⟨-, hnot⟩
      · cases c <;> first | cases htouches | cases hread
      · rw [htouches] at hnot
        cases hnot
    · have hj' := hfree j'
      rwa [Function.update_of_ne hji] at hj'
  by_cases hji : j = i
  · subst hji
    rw [Function.update_self]
    exact hp.seen_self hX ht hr hnext hfits hold hj
  · rw [Function.update_of_ne hji]
    rcases disturbed_concat hj with ⟨heq, -⟩ | ⟨hj, htouch⟩
    · exact absurd heq.symm hji
    · exact hp.seen_other hX hi hr hnext ha hji htouch hj hold

end Call

theorem stage_start_settled (q : Request) : q.stage.midway = false ∧ q.stage ≠ .deletingRefresh ∧
    ∀ h d i, Seen h d i q.stage := by
  cases q with
  | request path =>
    simp only [Request.stage]
    split <;> exact ⟨rfl, by simp, fun _ _ _ => trivial⟩
  | login | register | logout => exact ⟨rfl, by simp [Request.stage], fun _ _ _ => trivial⟩

theorem Settled.step (hX : Locked X p.1) (ht : Tracked store X p) (hp : Settled X p)
    (hm : Moves X p l X' p') (ha : Apart p l) : Settled X' p' := by
  cases hm with
  | stays i e hi => exact hp
  | calls i e q c k x' r hi hr hnext => exact hp.call hX ht hi hr hnext ha
  | spawns q e =>
    obtain ⟨hmid, hdel, hseen⟩ := stage_start_settled q
    have hdone := hX.idle _ (Nat.le_refl p.1.threads.length)
    -- before the operation started
    have hold {P : Stage → Prop} (hstart : P .done) {j : ℕ}
        (hj : P (Function.update X p.1.threads.length q.stage j)) : P (X j) := by
      by_cases hlen : j = p.1.threads.length
      · rwa [hlen, hdone]
      · rwa [Function.update_of_ne hlen] at hj
    have hnew {x : Stage} (hx : x ≠ q.stage) {j : ℕ}
        (hj : Function.update X p.1.threads.length q.stage j = x) : X j = x := by
      by_cases hlen : j = p.1.threads.length
      · rw [hlen, Function.update_self] at hj
        exact absurd hj.symm hx
      · rwa [Function.update_of_ne hlen] at hj
    have hfree (hj : ∀ j, (Function.update X p.1.threads.length q.stage j).midway = false) (j : ℕ) :
        (X j).midway = false := hold (P := fun x => x.midway = false) rfl (hj j)
    refine ⟨fun j refresh hj => hp.saving j refresh (hnew ?_ hj), fun j hj => hp.clearing j (hnew ?_ hj),
      fun hwritten hj hnone => hp.paired hwritten (hfree hj) fun j => ?_, fun j hj hmidway => ?_⟩
    · rintro heq
      rw [← heq] at hmid
      cases hmid
    · rintro heq
      rw [← heq] at hmid
      cases hmid
    · exact hold (P := fun x => x ≠ .deletingRefresh) nofun (hnone j)
    · by_cases hlen : j = p.1.threads.length
      · rw [hlen, Function.update_self]
        exact hseen _ _ _
      · rw [Function.update_of_ne hlen]
        exact hp.seen j hj (hfree hmidway)

/-! ### The invariant -/

/-- What holds after the steps of a run. -/
def Kept (store : SecureStore) (p : Observed) : Prop :=
  ∃ X, Locked X p.1 ∧ Tracked store X p ∧ Settled X p

theorem Kept.step (hp : Kept store p) (hq : Queued p.1 l) (hf : Fresh store p l) (ha : Apart p l) :
    Kept store (observed p l) := by
  obtain ⟨X, hX, ht, hs⟩ := hp
  obtain ⟨X', hm, hconf⟩ := moves hX.conform l
  exact ⟨X', hX.step hm hconf hq, ht.step hm hf, hs.step hX ht hm ha⟩

theorem kept_fresh (store : SecureStore) : Kept store (fresh store, []) := by
  refine ⟨fun _ => .done, ⟨fun i q p hi => ?_, fun _ _ => rfl, fun i q p hi => ?_, ?_, ?_, ?_, ?_⟩,
    ⟨fun r hr => ?_, fun k v hv => ?_, fun r hr => ?_, ?_, ?_, ?_, fun r hr => ?_, fun r a v hs => ?_⟩,
    ⟨?_, ?_, ?_, fun _ _ _ => trivial⟩⟩
  · cases hi
  · cases hi
  · exact fun i hi => by cases hi
  · exact fun i j hi => by cases hi
  · exact fun hi => by cases hi
  · exact fun i hi => by cases hi
  · cases hr
  · have hv : store k = some v := hv
    cases k <;> simp [known, List.reduceOption_mem_iff, hv]
  · cases hr
  · exact fun i v hv => by cases hv
  · exact fun i a ha => by cases ha
  · exact fun i j a ha => by cases ha
  · cases hr
  · cases hs
  · exact fun i refresh hi => by cases hi
  · exact fun i hi => by cases hi
  · exact fun hwritten => by
      obtain ⟨a, ha, -⟩ := hwritten
      cases ha

end Step

end DeskSync.Mobile.Auth
