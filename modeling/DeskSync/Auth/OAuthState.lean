import DeskSync.Auth.OAuth
import DeskSync.Auth.Rotation

/-!
# The state of an OAuth sign-in

A state is good for one exchange, since it is taken out of the store as it is read and no state is drawn
twice. Which browser started the flow, and with which provider, is stored nowhere. `protects_iff_owned`:
the exchanges are those of the browsers and providers that the states were issued for if and only if
every callback that finds its state in the store is by the browser and for the provider of a start that
saved it. `crossed_callback` is a run in which a browser finishes the sign-in another one has started.

Every request in flight is at one of four points (`Point`). The invariant (`Kept`) says what a state
is at each: drawn and not saved, saved and in the store, or used.
-/

namespace DeskSync.Auth.OAuth

open Backend Elements Proc

/-! ### What happens -/

inductive Event where
  /-- A request has drawn the state it is going to save. -/
  | drawn (state : String)
  /-- A start for the provider by the browser has saved the state. -/
  | issued (browser : Browser) (provider state : String)
  /-- A callback for the provider by the browser goes on to the exchange. -/
  | exchanges (browser : Browser) (provider state : String)
  deriving DecidableEq

/-- What a request that goes on as `p` has come to. -/
def reached (q : Request) (p : Handler Response) : Option Event :=
  match q, p.pending with
  | .oauthStart _ _, some (.save state _ _) => some (.drawn state)
  | .oauthCallback browser provider state _ _, some (.exchange ..) =>
    some (.exchanges browser provider state)
  | _, _ => none

def event (h : Endpoints) (w : World) : Step → Option Event
  | .spawn q e => reached q (q.start h e)
  | .advance i e =>
    match w.threads[i]? with
    | some ⟨.oauthStart browser provider, .call (.save state _ _) _⟩ =>
      if e.fault = .lost then none else some (.issued browser provider state)
    | some ⟨q, .call c k⟩ => reached q (k (exec h.svc.citext e c w.store).1)
    | _ => none
  | .env _ => none

abbrev Observed := World × List Event

/-- The service after the steps `l`, with what has happened. -/
def run (h : Endpoints) (db : AuthDb) (l : List Step) : Observed :=
  Run.exec (Run.observe (system h).step (event h)) (fresh db, []) l

def drawnState : Event → Option String
  | .drawn state => some state
  | _ => none

def exchangesOf (state : String) : Event → Bool
  | .exchanges _ _ state' => state' == state
  | _ => false

/-- A state leads to at most one exchange, and only for the browser and the provider it was issued for. -/
structure Protected (h : List Event) : Prop where
  once : ∀ state, h.countP (exchangesOf state) ≤ 1
  own : Run.Follows (fun h e => ∀ browser provider state, e = .exchanges browser provider state →
    .issued browser provider state ∈ h) h

/-- A callback that finds its state in the store is by the browser and for the provider of a start that
has saved it. -/
def Owned (p : Observed) : Step → Prop
  | .advance i e =>
    match p.1.threads[i]? with
    | some ⟨.oauthCallback browser provider _ _ _, .call (.consume state) _⟩ =>
      e.fault = .none → p.1.store.states (RedisStateStore.key state) ≠ none →
        .issued browser provider state ∈ p.2
    | _ => True
  | _ => True

instance (p : Observed) (l : Step) : Decidable (Owned p l) := by
  unfold Owned
  split
  · split <;> infer_instance
  · infer_instance

/-! ### Where a request is -/

def OnRepo : Call → Prop
  | .repo _ => True
  | _ => False

inductive Point : Request → Handler Response → Prop
  | saving (browser provider state verifier ttl k) (hk : ∀ r, ∃ a, k r = .ret a) :
      Point (.oauthStart browser provider) (.call (.save state verifier ttl) k)
  | consuming (browser provider state code md k) (herror : ∃ a, k (.error ()) = .ret a)
      (hok : ∀ verifier, ∃ p k', k (.ok verifier) = .call (.exchange p code verifier) k' ∧
        ∀ r, (k' r).Only OnRepo) :
      Point (.oauthCallback browser provider state code md) (.call (.consume state) k)
  | exchanging (browser provider state code md p verifier k) (hk : ∀ r, (k r).Only OnRepo) :
      Point (.oauthCallback browser provider state code md) (.call (.exchange p code verifier) k)
  | signingIn (q p) (hp : p.Only OnRepo) : Point q p

theorem point_start (h : Endpoints) (q : Request) (e : Env) : Point q (q.start h e) := by
  cases q with
  | oauthStart browser provider =>
    simp only [Request.start, Endpoints.oauthStart]
    cases h.oauth.get provider with
    | none => exact .signingIn _ _ trivial
    | some prov =>
      cases e.state with
      | error => exact .signingIn _ _ trivial
      | ok state =>
        cases e.verifier with
        | error => exact .signingIn _ _ trivial
        | ok verifier =>
          refine .saving _ _ state verifier _ _ fun r => ?_
          cases r with
          | error => exact ⟨_, rfl⟩
          | ok => exact ⟨_, rfl⟩
  | oauthCallback browser provider state code md =>
    simp only [Request.start, Endpoints.oauthCallback]
    cases h.oauth.get provider with
    | none => exact .signingIn _ _ trivial
    | some prov =>
      dsimp only
      split_ifs with hempty
      · exact .signingIn _ _ trivial
      · refine .consuming _ _ _ _ _ _ ⟨_, rfl⟩ fun verifier => ⟨prov, _, rfl, fun r => ?_⟩
        cases r with
        | error => exact trivial
        | ok info =>
          show Prog.Only OnRepo (Response.tokens <$> (if info.email = "" then _ else _))
          split_ifs
          · exact trivial
          · exact (Prog.only_lift (fun _ => trivial) _).map _

/-- Only a callback that has got its value goes on to the exchange, and no request saves or looks up a
state after its first call. -/
theorem Point.next {q : Request} {c : Call} {k : Answer c → Handler Response} (hp : Point q (.call c k))
    (r : Answer c) : Point q (k r) := by
  cases hp with
  | saving browser provider state verifier ttl k hk =>
    obtain ⟨a, ha⟩ := hk r
    rw [ha]
    exact .signingIn _ _ trivial
  | consuming browser provider state code md k herror hok =>
    cases r with
    | error =>
      obtain ⟨a, ha⟩ := herror
      rw [ha]
      exact .signingIn _ _ trivial
    | ok verifier =>
      obtain ⟨p, k', hk', hrest⟩ := hok verifier
      rw [hk']
      exact .exchanging _ _ _ _ _ _ _ _ hrest
  | exchanging browser provider state code md p verifier k hk => exact .signingIn _ _ (hk r)
  | signingIn q p hp => exact .signingIn _ _ (hp.2 r)

/-! ### The invariant -/

/-- The state the request is about to save. -/
def saved (p : Handler Response) : Option String :=
  match p.pending with
  | some (.save state _ _) => some state
  | _ => none

def Live (s : Store) (state : String) : Prop := s.states (RedisStateStore.key state) ≠ none

def Issued (h : List Event) (state : String) : Prop :=
  ∃ browser provider, .issued browser provider state ∈ h

def Exchanged (h : List Event) (state : String) : Prop :=
  ∃ browser provider, .exchanges browser provider state ∈ h

/-- The states about to be saved have been drawn, each by one request, and not been issued; those in the
store have been issued, and not been exchanged. -/
structure Kept (p : Observed) : Prop where
  points : p.1.All Point
  alone : ∀ (i j : ℕ) q q' p₁ p₂ state, p.1.threads[i]? = some ⟨q, p₁⟩ → p.1.threads[j]? = some ⟨q', p₂⟩ →
    saved p₁ = some state → saved p₂ = some state → i = j
  saving : ∀ (i : ℕ) q p₁ state, p.1.threads[i]? = some ⟨q, p₁⟩ → saved p₁ = some state →
    .drawn state ∈ p.2 ∧ ¬ Issued p.2 state
  issued : ∀ state, Issued p.2 state → .drawn state ∈ p.2
  live : ∀ state, Live p.1.store state → Issued p.2 state ∧ ¬ Exchanged p.2 state
  exchanged : ∀ state, Exchanged p.2 state → Issued p.2 state

/-- A request that draws a state draws one that none has drawn before. -/
def Fresh (h : Endpoints) (p : Observed) (l : Step) : Prop :=
  ∀ state, event h p.1 l = some (.drawn state) → .drawn state ∉ p.2

section Step
variable {h : Endpoints} {w w' : World} {hist : List Event}

theorem key_injective : Function.Injective RedisStateStore.key := by
  intro a b hab
  simpa [RedisStateStore.key] using hab

theorem issued_append {hist' : List Event} {state : String} :
    Issued (hist ++ hist') state ↔ Issued hist state ∨ Issued hist' state := by
  simp only [Issued, List.mem_append, exists_or]

theorem exchanged_append {hist' : List Event} {state : String} :
    Exchanged (hist ++ hist') state ↔ Exchanged hist state ∨ Exchanged hist' state := by
  simp only [Exchanged, List.mem_append, exists_or]

/-- A step after which no request is about to save a state that was not before. -/
theorem Kept.go {es : List Event} (hp : Kept (w, hist)) (hpoints : w'.All Point)
    (hsaved : ∀ (i : ℕ) q p state, w'.threads[i]? = some ⟨q, p⟩ → saved p = some state →
      w.threads[i]? = some ⟨q, p⟩ ∧ ¬ Issued es state)
    (hissued : ∀ state, Issued es state → .drawn state ∈ hist)
    (hlive : ∀ state, Live w'.store state → (Live w.store state ∧ ¬ Exchanged es state) ∨
      (Issued es state ∧ ¬ Exchanged (hist ++ es) state))
    (hexchanged : ∀ state, Exchanged es state → Issued hist state) : Kept (w', hist ++ es) where
  points := hpoints
  alone := by
    intro i j q q' p₁ p₂ state hi hj h₁ h₂
    exact hp.alone i j q q' p₁ p₂ state (hsaved i q p₁ state hi h₁).1 (hsaved j q' p₂ state hj h₂).1 h₁ h₂
  saving := by
    intro i q p₁ state hi h₁
    obtain ⟨hi, hes⟩ := hsaved i q p₁ state hi h₁
    obtain ⟨hdrawn, hnot⟩ := hp.saving i q p₁ state hi h₁
    refine ⟨List.mem_append_left _ hdrawn, fun hiss => ?_⟩
    rcases issued_append.1 hiss with hiss | hiss
    · exact hnot hiss
    · exact hes hiss
  issued := by
    intro state hiss
    refine List.mem_append_left _ ?_
    rcases issued_append.1 hiss with hiss | hiss
    · exact hp.issued state hiss
    · exact hissued state hiss
  live := by
    intro state hl
    rcases hlive state hl with ⟨hl, hes⟩ | ⟨hes, hnot⟩
    · obtain ⟨hiss, hnot⟩ := hp.live state hl
      refine ⟨issued_append.2 (.inl hiss), fun hex => ?_⟩
      rcases exchanged_append.1 hex with hex | hex
      · exact hnot hex
      · exact hes hex
    · exact ⟨issued_append.2 (.inr hes), hnot⟩
  exchanged := by
    intro state hex
    rcases exchanged_append.1 hex with hex | hex
    · exact issued_append.2 (.inl (hp.exchanged state hex))
    · exact issued_append.2 (.inl (hexchanged state hex))

/-- The same, where nothing happens. -/
theorem Kept.quiet (hp : Kept (w, hist)) (hpoints : w'.All Point)
    (hsaved : ∀ (i : ℕ) q p state, w'.threads[i]? = some ⟨q, p⟩ → saved p = some state →
      w.threads[i]? = some ⟨q, p⟩)
    (hlive : ∀ state, Live w'.store state → Live w.store state) : Kept (w', hist) := by
  have hgo : Kept (w', hist ++ []) := by
    refine hp.go hpoints (fun i q p state hi hs => ⟨hsaved i q p state hi hs, ?_⟩) ?_
      (fun state hl => .inl ⟨hlive state hl, ?_⟩) ?_
    · simp [Issued]
    · simp [Issued]
    · simp [Exchanged]
    · simp [Exchanged]
  rwa [List.append_nil] at hgo

/-- A request that has drawn a new state starts. -/
theorem Kept.draw (hp : Kept (w, hist)) {q : Request} {p : Handler Response} {state : String}
    (hpoint : Point q p) (hp' : saved p = some state) (hnew : .drawn state ∉ hist) :
    Kept (⟨w.store, w.threads ++ [⟨q, p⟩]⟩, hist ++ [.drawn state]) := by
  have hnone (state' : String) : Issued (hist ++ [.drawn state]) state' ↔ Issued hist state' := by
    rw [issued_append]
    simp [Issued]
  have hnone' (state' : String) : Exchanged (hist ++ [.drawn state]) state' ↔ Exchanged hist state' := by
    rw [exchanged_append]
    simp [Exchanged]
  -- an entry of the longer list is an old one or the new one
  have hold {i : ℕ} {q' : Request} {p' : Handler Response} (hi : (w.threads ++ [⟨q, p⟩])[i]? = some ⟨q', p'⟩) :
      w.threads[i]? = some ⟨q', p'⟩ ∨ i = w.threads.length ∧ p' = p := by
    rcases getElem?_concat_cases hi with hi | ⟨rfl, heq⟩
    · exact .inl hi
    · cases heq
      exact .inr ⟨rfl, rfl⟩
  have hnotold {i : ℕ} {q' : Request} {p' : Handler Response} (hi : w.threads[i]? = some ⟨q', p'⟩) :
      saved p' ≠ some state := fun hs => hnew (hp.saving i q' p' state hi hs).1
  refine ⟨?_, ?_, ?_, ?_, ?_, ?_⟩
  · intro i q' p' hi
    rcases getElem?_concat_cases hi with hi | ⟨-, heq⟩
    · exact hp.points i q' p' hi
    · cases heq
      exact hpoint
  · intro i j q₁ q₂ p₁ p₂ state' hi hj h₁ h₂
    rcases hold hi with hi' | ⟨hi', rfl⟩ <;> rcases hold hj with hj' | ⟨hj', hp₂⟩
    · exact hp.alone i j q₁ q₂ p₁ p₂ state' hi' hj' h₁ h₂
    · rw [hp₂, hp'] at h₂
      exact absurd (h₁.trans h₂.symm) (hnotold hi')
    · cases hp'.symm.trans h₁
      exact absurd h₂ (hnotold hj')
    · exact hi'.trans hj'.symm
  · intro i q' p' state' hi hs
    rw [hnone]
    rcases hold hi with hi | ⟨rfl, rfl⟩
    · obtain ⟨hdrawn, hnot⟩ := hp.saving i q' p' state' hi hs
      exact ⟨List.mem_append_left _ hdrawn, hnot⟩
    · cases hp'.symm.trans hs
      exact ⟨List.mem_append_right _ (List.mem_singleton_self _), fun hiss => hnew (hp.issued state hiss)⟩
  · intro state' hiss
    exact List.mem_append_left _ (hp.issued state' ((hnone state').1 hiss))
  · intro state' hl
    rw [hnone, hnone']
    exact hp.live state' hl
  · intro state' hex
    rw [hnone'] at hex
    rw [hnone]
    exact hp.exchanged state' hex

/-! ### Steps -/

theorem saved_none {p : Handler Response} (hp : p.Only OnRepo) : saved p = none := by
  cases p with
  | ret a => rfl
  | call c k =>
    cases c with
    | repo c => rfl
    | _ => exact absurd hp.1 id

theorem reached_none {q : Request} {p : Handler Response} (hp : p.Only OnRepo) : reached q p = none := by
  cases p with
  | ret a => cases q <;> rfl
  | call c k =>
    cases c with
    | repo c => cases q <;> rfl
    | _ => exact absurd hp.1 id

theorem Point.saved_next {q : Request} {c : Call} {k : Answer c → Handler Response}
    (hp : Point q (.call c k)) (r : Answer c) : saved (k r) = none := by
  cases hp with
  | saving browser provider state verifier ttl k hk =>
    obtain ⟨a, ha⟩ := hk r
    rw [ha]
    rfl
  | consuming browser provider state code md k herror hok =>
    cases r with
    | error =>
      obtain ⟨a, ha⟩ := herror
      rw [ha]
      rfl
    | ok verifier =>
      obtain ⟨p, k', hk', -⟩ := hok verifier
      rw [hk']
      rfl
  | exchanging browser provider state code md p verifier k hk => exact saved_none (hk r)
  | signingIn q p hp => exact saved_none (hp.2 r)

/-- A request starts by drawing a state, if anything. -/
theorem reached_start (h : Endpoints) (q : Request) (e : Env) :
    reached q (q.start h e) = (saved (q.start h e)).map .drawn := by
  cases q with
  | oauthStart browser provider =>
    simp only [Request.start, Endpoints.oauthStart]
    cases h.oauth.get provider with
    | none => rfl
    | some prov =>
      cases e.state with
      | error => rfl
      | ok state =>
        cases e.verifier with
        | error => rfl
        | ok verifier => rfl
  | oauthCallback browser provider state code md =>
    simp only [Request.start, Endpoints.oauthCallback]
    cases h.oauth.get provider with
    | none => rfl
    | some prov =>
      dsimp only
      split_ifs <;> rfl

theorem live_update {s : Store} {state state' : String} (v : Option String) (hne : state' ≠ state) :
    Live { s with states := Function.update s.states (RedisStateStore.key state) v } state' ↔
      Live s state' := by
  simp only [Live]
  rw [Function.update_of_ne (key_injective.ne hne)]

/-- `Consume` fails, or it takes the value out of the store. -/
theorem consume_cases (citext : Citext) (e : Env) (state : String) (s : Store) :
    ((exec citext e (.consume state) s).1 = .error () ∧
      ¬ (e.fault = .none ∧ Live s state) ∧
      ∀ state', Live (exec citext e (.consume state) s).2 state' → Live s state') ∨
    ∃ verifier, (exec citext e (.consume state) s).1 = .ok verifier ∧ e.fault = .none ∧ Live s state ∧
      ∀ state', Live (exec citext e (.consume state) s).2 state' → Live s state' ∧ state' ≠ state := by
  have hgone (verifier : String) (state' : String)
      (hl : Live { s with states := Function.update s.states (RedisStateStore.key state) none } state') :
      Live s state' ∧ state' ≠ state := by
    by_cases hne : state' = state
    · subst hne
      exact absurd (Function.update_self ..) hl
    · exact ⟨(live_update none hne).1 hl, hne⟩
  cases hs : s.states (RedisStateStore.key state) with
  | none =>
    have hcall : RedisStateStore.consume state s = (.error (), s) := by rw [RedisStateStore.consume, hs]
    have hexec : exec citext e (.consume state) s = (.error (), s) := by
      cases hf : e.fault <;> simp [exec, Fault.apply, hf, hcall]
    rw [hexec]
    exact .inl ⟨rfl, fun hl => hl.2 hs, fun _ => id⟩
  | some verifier =>
    have hcall : RedisStateStore.consume state s =
        (.ok verifier, { s with states := Function.update s.states (RedisStateStore.key state) none }) := by
      rw [RedisStateStore.consume, hs]
    cases hf : e.fault with
    | none =>
      refine .inr ⟨verifier, ?_, rfl, by simp [Live, hs], ?_⟩
      · simp [exec, Fault.apply, hf, hcall]
      · simp only [exec, Fault.apply, hf, hcall]
        exact hgone verifier
    | lost =>
      refine .inl ⟨?_, by simp, ?_⟩
      · simp [exec, Fault.apply, hf]
      · simp only [exec, Fault.apply, hf]
        exact fun _ => id
    | replyLost =>
      refine .inl ⟨?_, by simp, ?_⟩
      · simp [exec, Fault.apply, hf]
      · simp only [exec, Fault.apply, hf, hcall]
        exact fun state' hl => (hgone verifier state' hl).1

/-- `Save` is lost, or it puts the state into the store. -/
theorem save_cases (citext : Citext) (e : Env) (state verifier : String) (ttl : Time) (s : Store) :
    (e.fault = .lost ∧ (exec citext e (.save state verifier ttl) s).2 = s) ∨
    (e.fault ≠ .lost ∧ ∀ state', Live (exec citext e (.save state verifier ttl) s).2 state' →
      Live s state' ∨ state' = state) := by
  by_cases hf : e.fault = .lost
  · exact .inl ⟨hf, by simp [exec, Fault.apply, hf]⟩
  · refine .inr ⟨hf, fun state' hl => ?_⟩
    have hstore : (exec citext e (.save state verifier ttl) s).2 =
        { s with states := Function.update s.states (RedisStateStore.key state) (some verifier) } :=
      Fault.apply_applied hf
    rw [hstore] at hl
    by_cases hne : state' = state
    · exact .inr hne
    · exact .inl ((live_update _ hne).1 hl)

/-- A call after which the request saves nothing leaves the other requests as they are. -/
theorem saved_advance {i : ℕ} {q : Request} {c : Call} {k : Answer c → Handler Response} {e : Env}
    (hi : w.threads[i]? = some ⟨q, .call c k⟩) (hk : saved (k (exec h.svc.citext e c w.store).1) = none)
    {j : ℕ} {q' : Request} {p : Handler Response} {state : String}
    (hj : ((system h).step w (.advance i e)).threads[j]? = some ⟨q', p⟩) (hs : saved p = some state) :
    w.threads[j]? = some ⟨q', p⟩ ∧ j ≠ i := by
  rw [(system h).step_advance hi] at hj
  rcases set_cases hj with ⟨-, heq⟩ | ⟨hij, hj⟩
  · cases heq
    exact absurd (hk.symm.trans hs) nofun
  · exact ⟨hj, Ne.symm hij⟩

theorem kept_advance (hp : Kept (w, hist)) {i : ℕ} {q : Request} {c : Call}
    {k : Answer c → Handler Response} {e : Env} (hi : w.threads[i]? = some ⟨q, .call c k⟩) :
    Kept (Run.observe (system h).step (event h) (w, hist) (.advance i e)) := by
  have hpoint := hp.points i q _ hi
  have hpoints : ((system h).step w (.advance i e)).All Point :=
    hp.points.step (fun q e _ => point_start h q e)
      fun j e q c k _ hj hpt => hpt.next _
  have hstore : ((system h).step w (.advance i e)).store = (exec h.svc.citext e c w.store).2 := by
    rw [(system h).step_advance hi]
    rfl
  have hsaved {j : ℕ} {q' : Request} {p : Handler Response} {state : String}
      (hj : ((system h).step w (.advance i e)).threads[j]? = some ⟨q', p⟩) (hs : saved p = some state) :=
    saved_advance hi (hpoint.saved_next _) hj hs
  have hother (hc : OnRepo c ∨ ∃ p code verifier, c = .exchange p code verifier) :
      (exec h.svc.citext e c w.store).2.states = w.store.states := by
    rcases hc with hc | ⟨p, code, verifier, rfl⟩
    · cases c with
      | repo c => rfl
      | _ => exact absurd hc id
    · rfl
  unfold Run.observe
  cases hpoint with
  | saving browser provider state verifier ttl k hk =>
    have hev : event h w (.advance i e) =
        if e.fault = .lost then none else some (.issued browser provider state) := by
      simp only [event, hi]
    rw [hev]
    rcases save_cases h.svc.citext e state verifier ttl w.store with ⟨hf, hs⟩ | ⟨hf, hs⟩
    · rw [if_pos hf, Option.toList_none, List.append_nil]
      refine hp.quiet hpoints (fun j q' p state' hj hs' => (hsaved hj hs').1) fun state' hl => ?_
      rwa [hstore, hs] at hl
    · obtain ⟨hdrawn, hnot⟩ := hp.saving i _ _ state hi rfl
      have hexchanged (state' : String) : ¬ Exchanged [.issued browser provider state] state' := by
        simp [Exchanged]
      have hissued (state' : String) (hiss : Issued [.issued browser provider state] state') :
          state' = state := by
        obtain ⟨b, prov, hmem⟩ := hiss
        cases List.mem_singleton.1 hmem
        rfl
      rw [if_neg hf, Option.toList_some]
      refine hp.go hpoints (fun j q' p state' hj hs' => ⟨(hsaved hj hs').1, fun hiss => ?_⟩)
        (fun state' hiss => ?_) (fun state' hl => ?_) (fun state' hex => absurd hex (hexchanged state'))
      · obtain rfl := hissued state' hiss
        exact (hsaved hj hs').2 (hp.alone j i _ _ _ _ state' (hsaved hj hs').1 hi hs' rfl)
      · rw [hissued state' hiss]
        exact hdrawn
      · rw [hstore] at hl
        rcases hs state' hl with hl | rfl
        · exact .inl ⟨hl, hexchanged state'⟩
        · refine .inr ⟨⟨browser, provider, List.mem_singleton_self _⟩, fun hex => ?_⟩
          rcases exchanged_append.1 hex with hex | hex
          · exact hnot (hp.exchanged state' hex)
          · exact hexchanged state' hex
  | consuming browser provider state code md k herror hok =>
    have hev : event h w (.advance i e) = reached (.oauthCallback browser provider state code md)
        (k (exec h.svc.citext e (.consume state) w.store).1) := by
      simp only [event, hi]
    rw [hev]
    rcases consume_cases h.svc.citext e state w.store with ⟨hr, -, hs⟩ | ⟨verifier, hr, -, hl, hs⟩
    · obtain ⟨a, ha⟩ := herror
      rw [hr, ha]
      refine (?_ : Kept (_, hist ++ []))
      rw [List.append_nil]
      refine hp.quiet hpoints (fun j q' p state' hj hs' => (hsaved hj hs').1) fun state' hl => ?_
      rw [hstore] at hl
      exact hs state' hl
    · obtain ⟨p, k', hk', -⟩ := hok verifier
      rw [hr, hk']
      refine (?_ : Kept (_, hist ++ [.exchanges browser provider state]))
      have hissued (state' : String) : ¬ Issued [.exchanges browser provider state] state' := by
        simp [Issued]
      have hexchanged (state' : String) (hex : Exchanged [.exchanges browser provider state] state') :
          state' = state := by
        obtain ⟨b, prov, hmem⟩ := hex
        cases List.mem_singleton.1 hmem
        rfl
      refine hp.go hpoints (fun j q' p state' hj hs' => ⟨(hsaved hj hs').1, hissued state'⟩)
        (fun state' hiss => absurd hiss (hissued state')) (fun state' hl' => ?_) (fun state' hex => ?_)
      · rw [hstore] at hl'
        obtain ⟨hl', hne⟩ := hs state' hl'
        exact .inl ⟨hl', fun hex => hne (hexchanged state' hex)⟩
      · rw [hexchanged state' hex]
        exact (hp.live state hl).1
  | exchanging browser provider state code md p verifier k hk =>
    have hev : event h w (.advance i e) = none := by
      simp only [event, hi]
      exact reached_none (hk _)
    rw [hev, Option.toList_none, List.append_nil]
    refine hp.quiet hpoints (fun j q' p state' hj hs' => (hsaved hj hs').1) fun state' hl => ?_
    rw [hstore, Live, hother (.inr ⟨_, _, _, rfl⟩)] at hl
    exact hl
  | signingIn q p hq =>
    have hev : event h w (.advance i e) = none := by
      cases c with
      | repo c =>
        simp only [event, hi]
        cases q <;> exact reached_none (hq.2 _)
      | _ => exact absurd hq.1 id
    rw [hev, Option.toList_none, List.append_nil]
    refine hp.quiet hpoints (fun j q' p state' hj hs' => (hsaved hj hs').1) fun state' hl => ?_
    rw [hstore, Live, hother (.inl hq.1)] at hl
    exact hl

theorem kept_step {p : Observed} (hp : Kept p) {l : Step} (hfresh : Fresh h p l) :
    Kept (Run.observe (system h).step (event h) p l) := by
  obtain ⟨w, hist⟩ := p
  cases l with
  | spawn q e =>
    have hev : event h w (.spawn q e) = (saved (q.start h e)).map .drawn := reached_start h q e
    cases hs : saved (q.start h e) with
    | some state =>
      rw [hs] at hev
      unfold Run.observe
      rw [hev]
      exact hp.draw (point_start h q e) hs (hfresh state hev)
    | none =>
      rw [hs] at hev
      unfold Run.observe
      rw [hev, Option.map_none, Option.toList_none, List.append_nil]
      refine hp.quiet (hp.points.step (fun q e _ => point_start h q e)
        fun j e q c k _ hj hpt => hpt.next _) (fun i q' p state hi hs' => ?_) fun _ => id
      rcases (system h).thread_cases hi with hi | ⟨q'', e', heq, -, ht⟩ | ⟨e', q'', c, k, heq, -, -⟩
      · exact hi
      · cases heq
        cases ht
        exact absurd (hs.symm.trans hs') nofun
      · cases heq
  | env key =>
    unfold Run.observe
    refine (?_ : Kept (_, hist ++ []))
    rw [List.append_nil]
    refine hp.quiet hp.points (fun _ _ _ _ hi _ => hi) fun state hl => ?_
    by_cases hkey : RedisStateStore.key state = key
    · subst hkey
      exact absurd (Function.update_self ..) hl
    · have hsame : ((system h).step w (.env key)).store.states (RedisStateStore.key state) =
          w.store.states (RedisStateStore.key state) := Function.update_of_ne hkey ..
      rwa [Live, hsame] at hl
  | advance i e =>
    have hidle (hstep : (system h).step w (.advance i e) = w) (hev : event h w (.advance i e) = none) :
        Kept (Run.observe (system h).step (event h) (w, hist) (.advance i e)) := by
      unfold Run.observe
      rw [hstep, hev, Option.toList_none, List.append_nil]
      exact hp
    cases hi : w.threads[i]? with
    | none => exact hidle (by simp only [System.step, hi]) (by simp only [event, hi])
    | some t =>
      obtain ⟨q, p⟩ := t
      cases p with
      | ret a => exact hidle (by simp only [System.step, hi]) (by cases q <;> simp only [event, hi])
      | call c k => exact kept_advance hp hi

/-- Only a callback that takes its state out of the store goes on to the exchange. -/
theorem exchanges_of_event (hp : Kept (w, hist)) {l : Step} {browser : Browser} {provider state : String}
    (hev : event h w l = some (.exchanges browser provider state)) :
    ∃ i e code md k, l = .advance i e ∧
      w.threads[i]? = some ⟨.oauthCallback browser provider state code md, .call (.consume state) k⟩ ∧
      e.fault = .none ∧ Live w.store state := by
  cases l with
  | spawn q e =>
    rw [show event h w (.spawn q e) = (saved (q.start h e)).map .drawn from reached_start h q e] at hev
    obtain ⟨_, _, heq⟩ := Option.map_eq_some_iff.1 hev
    cases heq
  | env key => cases hev
  | advance i e =>
    cases hi : w.threads[i]? with
    | none =>
      simp only [event, hi] at hev
      cases hev
    | some t =>
      obtain ⟨q, p⟩ := t
      cases p with
      | ret a =>
        cases q <;> simp only [event, hi] at hev <;> cases hev
      | call c k =>
        have hpoint := hp.points i q _ hi
        cases hpoint with
        | saving b prov state' verifier ttl k hk =>
          simp only [event, hi] at hev
          split_ifs at hev
          cases hev
        | consuming b prov state' code md k herror hok =>
          simp only [event, hi] at hev
          rcases consume_cases h.svc.citext e state' w.store with ⟨hr, -, -⟩ | ⟨verifier, hr, hf, hl, -⟩
          · obtain ⟨a, ha⟩ := herror
            rw [hr, ha] at hev
            cases hev
          · obtain ⟨p, k', hk', -⟩ := hok verifier
            rw [hr, hk'] at hev
            cases hev
            exact ⟨i, e, code, md, k, rfl, hi, hf, hl⟩
        | exchanging b prov state' code md p verifier k hk =>
          simp only [event, hi] at hev
          rw [reached_none (hk _)] at hev
          cases hev
        | signingIn q p hq =>
          cases c with
          | repo c =>
            simp only [event, hi] at hev
            rw [reached_none (hq.2 _)] at hev
            cases hev
          | _ => exact absurd hq.1 id

/-- A callback that finds its state in the store goes on to the exchange. -/
theorem event_consume (hp : Kept (w, hist)) {i : ℕ} {e : Env} {browser : Browser}
    {provider state state' code : String} {md : Metadata} {k : Answer (.consume state) → Handler Response}
    (hi : w.threads[i]? = some ⟨.oauthCallback browser provider state' code md, .call (.consume state) k⟩)
    (hf : e.fault = .none) (hl : Live w.store state) :
    event h w (.advance i e) = some (.exchanges browser provider state) := by
  have hpoint := hp.points i _ _ hi
  cases hpoint with
  | consuming b prov state' code md k herror hok =>
    simp only [event, hi]
    rcases consume_cases h.svc.citext e state w.store with ⟨-, hno, -⟩ | ⟨verifier, hr, -⟩
    · exact absurd ⟨hf, hl⟩ hno
    · obtain ⟨p, k', hk', -⟩ := hok verifier
      rw [hr, hk']
      rfl
  | signingIn q p hq => exact absurd hq.1 id

end Step

/-! ### The result -/

theorem protected_nil : Protected [] := ⟨fun _ => Nat.zero_le _, Run.follows_nil⟩

theorem Protected.concat {h : List Event} {e : Event} (hp : Protected h)
    (he : ∀ browser provider state, e = .exchanges browser provider state →
      ¬ Exchanged h state ∧ .issued browser provider state ∈ h) : Protected (h ++ [e]) where
  once := by
    intro state
    rw [List.countP_append, List.countP_singleton]
    split_ifs with hstate
    · cases e with
      | exchanges browser provider state' =>
        obtain rfl : state' = state := by simpa [exchangesOf] using hstate
        have hnone : h.countP (exchangesOf state') = 0 := by
          refine List.countP_eq_zero.2 fun e hmem hof => (he browser provider state' rfl).1 ?_
          cases e with
          | exchanges b prov s =>
            obtain rfl : s = state' := by simpa [exchangesOf] using hof
            exact ⟨b, prov, hmem⟩
          | _ => cases hof
        rw [hnone]
      | _ => cases hstate
    · exact hp.once state
  own := hp.own.concat fun browser provider state heq => (he browser provider state heq).2

theorem kept_fresh (db : AuthDb) : Kept (fresh db, []) where
  points := Pool.All.nil _
  alone := by
    intro i j q q' p₁ p₂ state hi
    cases hi
  saving := by
    intro i q p state hi
    cases hi
  issued := fun state ⟨_, _, hmem⟩ => absurd hmem nofun
  live := fun state hl => absurd rfl hl
  exchanged := fun state ⟨_, _, hmem⟩ => absurd hmem nofun

/-- In every run in which no state is drawn twice, the states protect the flows they were issued for if
and only if every callback that finds its state in the store is by the browser and for the provider of a
start that has saved it. -/
theorem protects_iff_owned (h : Endpoints) (db : AuthDb) {l : List Step}
    (hdrawn : ((run h db l).2.filterMap drawnState).Nodup) :
    Run.Always (Run.observe (system h).step (event h)) (fun p => Protected p.2) (fresh db, []) l ↔
      Run.Guarded (Run.observe (system h).step (event h)) Owned (fresh db, []) l := by
  have hfresh : Run.Guarded (Run.observe (system h).step (event h)) (Fresh h) (fresh db, []) l := by
    rw [run, Run.exec_observe] at hdrawn
    refine (Run.guarded_of_nodup hdrawn).mono fun p a hp state hev hmem => ?_
    exact hp _ _ hev rfl (List.mem_filterMap.2 ⟨_, hmem, rfl⟩)
  refine hfresh.always_iff (J := fun p : Observed => Kept p ∧ Protected p.2) (fun _ hp => hp.2) ?_ ?_
    ⟨kept_fresh db, protected_nil⟩
  · rintro ⟨w, hist⟩ l ⟨hp, hprot⟩ hfr howned
    refine ⟨kept_step hp hfr, ?_⟩
    show Protected (hist ++ (event h w l).toList)
    cases hev : event h w l with
    | none => simpa using hprot
    | some e =>
      refine hprot.concat fun browser provider state heq => ?_
      subst heq
      obtain ⟨i, e, code, md, k, rfl, hi, hf, hl⟩ := exchanges_of_event hp hev
      simp only [Owned, hi] at howned
      exact ⟨(hp.live state hl).2, howned hf hl⟩
  · rintro ⟨w, hist⟩ l ⟨hp, -⟩ - hprot
    unfold Owned
    split
    · rename_i i e
      split
      · rename_i browser provider state' code md state k hi
        intro hf hl
        have hev : event h w (.advance i e) = some (.exchanges browser provider state) :=
          event_consume hp hi hf hl
        have hown := hprot.own hist (.exchanges browser provider state) [] (by simp [Run.observe, hev])
        exact hown browser provider state rfl
      · trivial
    · trivial

/-- Google is configured. -/
def sampleEndpoints : Endpoints where
  svc := sampleService
  oauth := { configured := (· == .google), authCodeURL := fun _ state _ => state }

/-- The first browser starts a sign-in with Google, and the given one calls back. -/
def startsAndReturns (browser : Browser) : List Step :=
  [.spawn (.oauthStart 1 "google") { state := .ok "st", verifier := .ok "ve" }, .advance 0 {},
    .spawn (.oauthCallback browser "google" "st" "co" ⟨"", ""⟩) {}, .advance 1 {}, .advance 1 {}]

theorem own_callback :
    Run.Always (Run.observe (system sampleEndpoints).step (event sampleEndpoints)) (fun p => Protected p.2)
      (fresh emptyDb, []) (startsAndReturns 1) :=
  (protects_iff_owned sampleEndpoints emptyDb (by decide +kernel)).2 (by decide +kernel)

/-- The state of one browser is good for another. -/
theorem crossed_callback :
    (run sampleEndpoints emptyDb (startsAndReturns 2)).2 =
        [.drawn "st", .issued 1 "google" "st", .exchanges 2 "google" "st"] ∧
      ¬ Run.Always (Run.observe (system sampleEndpoints).step (event sampleEndpoints))
        (fun p => Protected p.2) (fresh emptyDb, []) (startsAndReturns 2) := by
  have hrun : (run sampleEndpoints emptyDb (startsAndReturns 2)).2 =
      [.drawn "st", .issued 1 "google" "st", .exchanges 2 "google" "st"] := by decide +kernel
  refine ⟨hrun, fun h => ?_⟩
  have hlast : Protected (run sampleEndpoints emptyDb (startsAndReturns 2)).2 := h.last
  rw [hrun] at hlast
  have hown := hlast.own [.drawn "st", .issued 1 "google" "st"] (.exchanges 2 "google" "st") [] rfl
  exact absurd (hown 2 "google" "st" rfl) (by decide)

end DeskSync.Auth.OAuth
