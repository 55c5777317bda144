import DeskSync.Mobile.AuthTokens

/-!
# The mobile client and reuse detection

Any number of requests that fail with 401, in any order. `posted_once`: no refresh token is posted twice,
and no refresh is posted for a request whose access token has been replaced since the request read it.

Without sign-ins and sign-outs every step is `Apart`, so the invariant of the token pair holds. Beyond it,
the stored refresh token has not been posted, except while the `onError` that posted it has yet to replace
or delete it.
-/

namespace DeskSync.Mobile.Auth

open Proc

/-- Only requests are made. -/
def Requested : Step → Prop
  | .spawn q _ => q.isRequest = true
  | _ => True

instance (l : Step) : Decidable (Requested l) := by
  unfold Requested
  split <;> infer_instance

/-- The refresh token that is posted. -/
def Event.posts : Event → Option String
  | ⟨_, _, _, .postRefresh refresh, _⟩ => some refresh
  | _ => none

/-- The stored refresh token has been posted, and is yet to be replaced or deleted. -/
def Stage.spent : Stage → Bool
  | .writing .. | .rotating .. | .completing false | .deleting | .deletingRefresh => true
  | _ => false

/-- The refresh token that is about to replace the posted one. -/
def Stage.rotation : Stage → Option String
  | .writing _ _ refresh => refresh
  | .rotating _ refresh => some refresh
  | _ => none

theorem inside_of_rotation {x : Stage} {refresh : String} (h : x.rotation = some refresh) :
    x.inside = true := by
  cases x <;> first | rfl | cases h

structure Unposted (store : SecureStore) (X : ℕ → Stage) (p : Observed) : Prop where
  requests : ∀ t ∈ p.1.threads, t.req.isRequest = true
  events : ∀ b ∈ p.2, b.req.isRequest = true
  pairs : ∀ i posted access, X i ≠ .writing posted access none
  posted : ∀ b ∈ p.2, ∀ refresh, b.posts = some refresh → refresh ∈ known store p.2
  rotation : ∀ i refresh, (X i).rotation = some refresh → ∀ b ∈ p.2, b.posts ≠ some refresh
  stored : (∀ i, (X i).spent = false) → ∀ refresh, p.1.store.token .refreshToken = some refresh →
    ∀ b ∈ p.2, b.posts ≠ some refresh

section Step
variable {store : SecureStore} {X X' : ℕ → Stage} {p p' : Observed} {l : Step}

theorem not_disturbed {h : List Event} (hh : ∀ b ∈ h, b.req.isRequest = true) (i : ℕ) :
    disturbed h i = false := by
  induction h using List.reverseRecOn with
  | nil => rfl
  | append_singleton h b ih =>
    rw [disturbed, List.foldl_append, List.foldl_cons, List.foldl_nil]
    have hb : b.touches = false := by
      have hreq := hh b (by simp)
      unfold Event.touches
      split <;> simp_all
    have hold := ih fun b hb => hh b (List.mem_append_left _ hb)
    split
    · rfl
    · exact Bool.or_eq_false_iff.2 ⟨hold, hb⟩

theorem not_midway (hX : Locked X p.1) (hp : Unposted store X p) (j : ℕ) : (X j).midway = false := by
  refine Bool.eq_false_iff.2 fun hmid => ?_
  have hne : X j ≠ .done := fun hj => by
    rw [hj] at hmid
    cases hmid
  obtain ⟨q, c, k, hj, hfits, -⟩ := hX.pending hne
  have hq := hp.requests _ (List.mem_of_getElem? hj)
  generalize X j = x at *
  cases x with
  | savingRefresh => exact not_request hfits hq
  | clearingOutRefresh =>
    cases hfits
    cases hq
  | _ => cases hmid

/-- Without sign-ins and sign-outs every step is apart. -/
theorem Unposted.apart (hp : Unposted store X p) (l : Step) : Apart p l := by
  intro b hb _
  obtain ⟨i, e, q, c, k, rfl, hi, rfl⟩ := event_cases hb
  have hq : q.isRequest = true := hp.requests _ (List.mem_of_getElem? hi)
  cases q with
  | login | register | logout => cases hq
  | request path =>
    have hundisturbed : disturbed p.2 i = false := not_disturbed hp.events i
    have hall : p.1.threads.all (fun t => !betweenWrites t && !betweenDeletes t) = true := by
      refine List.all_eq_true.2 fun t ht => ?_
      have hreq := hp.requests t ht
      obtain ⟨q, prog⟩ := t
      cases q with
      | request => rfl
      | login | register | logout => cases hreq
    simp only [Event.allowed, hundisturbed, hall]
    rfl

/-- Where a refresh is posted, the token is the stored one, nobody has posted it, and the access token of
the request has not been replaced. -/
theorem Unposted.posting (hX : Locked X p.1) (hs : Settled X p) (hp : Unposted store X p) {i : ℕ}
    {refresh : String} (hi : X i = .posting refresh) :
    p.1.store.token .refreshToken = some refresh ∧ ¬ Replaced p.2 i ∧
      ∀ b ∈ p.2, b.posts ≠ some refresh := by
  have hseen := hs.seen i (not_disturbed hp.events i) (not_midway hX hp)
  have hwithout := hs.without hX (i := i)
  rw [hi] at hseen hwithout
  refine ⟨hseen.2, fun hreplaced => ?_, hp.stored (fun j => Bool.eq_false_iff.2 fun hj => ?_) refresh hseen.2⟩
  · have hnone := hwithout rfl nofun (not_midway hX hp) hreplaced.written (hseen.1 hreplaced)
    rw [hseen.2] at hnone
    cases hnone
  · have hin : (X j).inside = true := by
      generalize X j = x at *
      cases x <;> first | rfl | cases hj
    rw [hX.alone j i hin (by rw [hi]; rfl), hi] at hj
    cases hj

section Call
variable {i : ℕ} {q : Request} {c : Call} {r : Reply c} {x x' : Stage} {s : SecureStore}

theorem Next.posts (h : Next x c r x') {refresh : String}
    (hb : (⟨i, q, s, c, r⟩ : Event).posts = some refresh) : x = .posting refresh ∧ x'.spent = true := by
  cases h <;> cases hb <;> exact ⟨rfl, rfl⟩

/-- How the posted token goes out of the storage. -/
theorem Next.spent (h : Next x c r x') (hx : x.spent = true) :
    x'.spent = true ∨ (∃ refresh, c = .write .refreshToken refresh ∧ x.rotation = some refresh) ∨
      c = .delete .refreshToken ∨ ∃ posted access, x = .writing posted access none := by
  cases h with
  | writesOne posted access => exact .inr (.inr (.inr ⟨posted, access, rfl⟩))
  | rotates posted refresh => exact .inr (.inl ⟨refresh, rfl, rfl⟩)
  | deletesRefresh => exact .inr (.inr (.inl rfl))
  | writes | gives | deletes => exact .inl rfl
  | _ => cases hx

theorem Next.rotation (h : Next x c r x') {refresh : String} (hx : x'.rotation = some refresh) :
    x.rotation = some refresh ∨ some refresh ∈ (⟨i, q, s, c, r⟩ : Event).answers := by
  cases h with
  | answered posted access data =>
    right
    have hx : present data.refreshToken = some refresh := hx
    simp [Event.answers, (present_eq_some.1 hx).1]
  | writes => exact .inl hx
  | _ => cases hx

theorem Next.pair (h : Next x c r x') {posted access : String} (hx : x' = .writing posted access none) :
    ∃ t ∈ (⟨i, q, s, c, r⟩ : Event).answers, present t = none := by
  cases h with
  | answered _ _ data =>
    obtain ⟨-, -, hnone⟩ := Stage.writing.inj hx
    exact ⟨data.refreshToken, by simp [Event.answers], hnone⟩
  | _ => cases hx

theorem Next.fits_refresh {refresh : String} {r : Unit} (h : Next x (.write .refreshToken refresh) r x')
    (hfits : x.fits q) (hq : q.isRequest = true) : x.rotation = some refresh := by
  cases h with
  | rotates => rfl
  | savesRefresh => exact absurd hq (not_request hfits)

end Call

theorem stage_start_rotation (q : Request) : q.stage.rotation = none ∧ q.stage.spent = false ∧
    ∀ posted access, q.stage ≠ .writing posted access none := by
  cases q with
  | request path =>
    simp only [Request.stage]
    split <;> exact ⟨rfl, rfl, by simp⟩
  | login | register | logout => exact ⟨rfl, rfl, by simp [Request.stage]⟩

theorem Unposted.spawn (hX : Locked X p.1) (hp : Unposted store X p) {q : Request} (hq : q.isRequest = true) :
    Unposted store (Function.update X p.1.threads.length q.stage)
      ({ p.1 with threads := p.1.threads ++ [⟨q, q.start⟩] }, p.2) := by
  obtain ⟨hrotation, hspent, hpair⟩ := stage_start_rotation q
  refine ⟨fun t hmem => ?_, hp.events, ?_, hp.posted, ?_, fun hnone => hp.stored fun j => ?_⟩
  · rcases List.mem_append.1 hmem with hmem | hmem
    · exact hp.requests t hmem
    · rw [List.mem_singleton.1 hmem]
      exact hq
  · exact (Function.forall_update_iff X (p := fun _ x => ∀ posted access, x ≠ .writing posted access none)).2
      ⟨hpair, fun j _ => hp.pairs j⟩
  · refine (Function.forall_update_iff X (p := fun _ x => ∀ refresh, x.rotation = some refresh →
      ∀ b ∈ p.2, b.posts ≠ some refresh)).2 ⟨fun refresh hr => ?_, fun j _ => hp.rotation j⟩
    rw [hrotation] at hr
    cases hr
  · by_cases hlen : j = p.1.threads.length
    · rw [hlen, hX.idle _ (Nat.le_refl p.1.threads.length)]
      rfl
    · have hj := hnone j
      rwa [Function.update_of_ne hlen] at hj

section Calls
variable {i : ℕ} {e : Env} {q : Request} {c : Call} {k : Reply c → Handler (Except Unit Unit)} {x' : Stage}

/-- What is posted now has been the stored token. -/
theorem Unposted.posted_known (hX : Locked X p.1) (ht : Tracked store X p) (hs : Settled X p)
    (hp : Unposted store X p) {r : Reply c} (hnext : Next (X i) c r x') {refresh : String} {s : SecureStore}
    (hb : (⟨i, q, s, c, r⟩ : Event).posts = some refresh) : refresh ∈ known store p.2 :=
  ht.stored _ _ (present_eq_some.1 (hp.posting hX hs (hnext.posts hb).1).1).1

/-- A token that is about to replace another one has not been posted. -/
theorem Unposted.rotation_call (hX : Locked X p.1) (ht : Tracked store X p) (hs : Settled X p)
    (hp : Unposted store X p) (hf : Fresh store p (.advance i e)) (hi : p.1.threads[i]? = some ⟨q, .call c k⟩)
    (hnext : Next (X i) c (exec e c p.1.store).1 x') {j : ℕ} {refresh : String}
    (hj : (Function.update X i x' j).rotation = some refresh) {b : Event}
    (hb : b ∈ p.2 ++ [⟨i, q, p.1.store.store, c, (exec e c p.1.store).1⟩]) : b.posts ≠ some refresh := by
  by_cases hji : j = i
  · subst hji
    rw [Function.update_self] at hj
    -- it was so before the call, or it has just been answered
    rcases hnext.rotation (i := j) (q := q) (s := p.1.store.store) hj with hold | hnew
    · rcases List.mem_append.1 hb with hb | hb
      · exact hp.rotation j refresh hold b hb
      · cases List.mem_singleton.1 hb
        intro hpost
        rw [(hnext.posts hpost).1] at hold
        cases hold
    · have hunknown := (fresh_answer hf (event_calls hi e) hnew).1
      rcases List.mem_append.1 hb with hb | hb
      · exact fun hpost => hunknown (hp.posted b hb refresh hpost)
      · cases List.mem_singleton.1 hb
        exact fun hpost => hunknown (hp.posted_known hX ht hs hnext hpost)
  · rw [Function.update_of_ne hji] at hj
    rcases List.mem_append.1 hb with hb | hb
    · exact hp.rotation j refresh hj b hb
    · cases List.mem_singleton.1 hb
      intro hpost
      refine hji (hX.alone j i (inside_of_rotation hj) ?_)
      rw [(hnext.posts hpost).1]
      rfl

/-- A stored token has not been posted, if nobody is to replace it. -/
theorem Unposted.stored_call (hX : Locked X p.1) (hp : Unposted store X p)
    (hi : p.1.threads[i]? = some ⟨q, .call c k⟩) (hnext : Next (X i) c (exec e c p.1.store).1 x')
    (hspent : ∀ j, (Function.update X i x' j).spent = false) {refresh : String}
    (hstored : (exec e c p.1.store).2.token .refreshToken = some refresh) {b : Event}
    (hb : b ∈ p.2 ++ [⟨i, q, p.1.store.store, c, (exec e c p.1.store).1⟩]) : b.posts ≠ some refresh := by
  have hq : q.isRequest = true := hp.requests _ (List.mem_of_getElem? hi)
  have hmine := hspent i
  rw [Function.update_self] at hmine
  rcases List.mem_append.1 hb with hold | hb
  · rw [Device.token, exec_store, present_eq_some] at hstored
    rcases after_cases hstored.1 with rfl | ⟨hsame, hc⟩
    · exact hp.rotation i refresh (Next.fits_refresh hnext (hX.fits i q _ hi) hq) b hold
    · refine hp.stored (fun j => ?_) refresh (present_eq_some.2 ⟨hsame, hstored.2⟩) b hold
      by_cases hji : j = i
      · rw [hji]
        refine Bool.eq_false_iff.2 fun hX' => ?_
        rcases hnext.spent hX' with hx' | ⟨v, hv, -⟩ | rfl | ⟨posted, access, heq⟩
        · rw [hx'] at hmine
          cases hmine
        · exact hc v hv
        · simp [Call.after] at hstored
        · exact hp.pairs i posted access heq
      · have hother := hspent j
        rwa [Function.update_of_ne hji] at hother
  · cases List.mem_singleton.1 hb
    intro hpost
    rw [(hnext.posts hpost).2] at hmine
    cases hmine

theorem Unposted.call (hX : Locked X p.1) (ht : Tracked store X p) (hs : Settled X p) (hp : Unposted store X p)
    (hf : Fresh store p (.advance i e)) (hi : p.1.threads[i]? = some ⟨q, .call c k⟩)
    (hnext : Next (X i) c (exec e c p.1.store).1 x') :
    Unposted store (Function.update X i x') (⟨(exec e c p.1.store).2,
      p.1.threads.set i ⟨q, k (exec e c p.1.store).1⟩⟩,
      p.2 ++ [⟨i, q, p.1.store.store, c, (exec e c p.1.store).1⟩]) := by
  have hq : q.isRequest = true := hp.requests _ (List.mem_of_getElem? hi)
  refine ⟨fun t hmem => ?_, fun b hb => ?_, ?_, fun b hb refresh hpost => ?_,
    fun j refresh hj b hb => hp.rotation_call hX ht hs hf hi hnext hj hb,
    fun hspent refresh hstored b hb => hp.stored_call hX hi hnext hspent hstored hb⟩
  · rcases List.mem_or_eq_of_mem_set hmem with hmem | rfl
    · exact hp.requests t hmem
    · exact hq
  · rcases List.mem_append.1 hb with hb | hb
    · exact hp.events b hb
    · rw [List.mem_singleton.1 hb]
      exact hq
  · refine (Function.forall_update_iff X (p := fun _ x => ∀ posted access, x ≠ .writing posted access none)).2
      ⟨fun posted access hx' => ?_, fun j _ => hp.pairs j⟩
    obtain ⟨t, hmem, hnone⟩ := hnext.pair (i := i) (q := q) (s := p.1.store.store) hx'
    have hany := hf _ (event_calls hi e) t hmem
    rw [hnone] at hany
    cases hany
  · refine mem_known_concat.2 (.inl ?_)
    rcases List.mem_append.1 hb with hb | hb
    · exact hp.posted b hb refresh hpost
    · cases List.mem_singleton.1 hb
      exact hp.posted_known hX ht hs hnext hpost

end Calls

theorem Unposted.step (hX : Locked X p.1) (ht : Tracked store X p) (hs : Settled X p)
    (hp : Unposted store X p) (hm : Moves X p l X' p') (hf : Fresh store p l) (hreq : Requested l) :
    Unposted store X' p' := by
  cases hm with
  | stays i e hi => exact hp
  | spawns q e => exact hp.spawn hX hreq
  | calls i e q c k x' r hi hr hnext =>
    subst hr
    exact hp.call hX ht hs hf hi hnext

end Step

/-! ### The result -/

/-- What happens in runs of requests only: one `onError` at a time, and new tokens with every refresh. -/
def Honest (store : SecureStore) (p : Observed) (l : Step) : Prop :=
  Queued p.1 l ∧ Fresh store p l ∧ Requested l

instance (store : SecureStore) (p : Observed) (l : Step) : Decidable (Honest store p l) := by
  unfold Honest
  infer_instance

/-- A refresh is posted with a token that was not posted before, for a request whose access token has not
been replaced. -/
def PostsNew (h : List Event) (b : Event) : Prop :=
  ∀ refresh, b.posts = some refresh → (∀ b' ∈ h, b'.posts ≠ some refresh) ∧ ¬ Replaced h b.i

theorem posts_new (store : SecureStore) {l : List Step}
    (h : Run.Guarded observed (Honest store) (fresh store, []) l) :
    Run.Follows PostsNew (run store l).2 := by
  refine h.follows (K := fun p => ∃ X, Locked X p.1 ∧ Tracked store X p ∧ Settled X p ∧ Unposted store X p)
    ?_ ?_ ?_
  · rintro p l ⟨X, hX, ht, hs, hp⟩ ⟨hq, hf, hreq⟩
    obtain ⟨X', hm, hconf⟩ := moves hX.conform l
    exact ⟨X', hX.step hm hconf hq, ht.step hm hf, hs.step hX ht hm (hp.apart l),
      hp.step hX ht hs hm hf hreq⟩
  · rintro p l ⟨X, hX, ht, hs, hp⟩ - b hb refresh hpost
    obtain ⟨i, e, q, c, k, rfl, hi, rfl⟩ := event_cases hb
    obtain ⟨x', hnext, -⟩ := hX.conform i q _ hi _ trivial
    have hposting := hp.posting hX hs (hnext.posts hpost).1
    exact ⟨hposting.2.2, hposting.2.1⟩
  · obtain ⟨X, hX, ht, hs⟩ := kept_fresh store
    have hdone (i : ℕ) : X i = .done := hX.idle i (Nat.zero_le i)
    refine ⟨X, hX, ht, hs, fun t hmem => ?_, fun b hb => ?_, fun i posted access hi => ?_, fun b hb => ?_,
      fun i refresh hi b hb => ?_, fun _ refresh _ b hb => ?_⟩
    · cases hmem
    · cases hb
    · rw [hdone i] at hi
      cases hi
    · cases hb
    · cases hb
    · cases hb

/-- However many requests fail with 401, and in whatever order: every refresh token is posted at most once,
and no refresh is posted for a request whose access token has been replaced in the storage. -/
theorem posted_once (store : SecureStore) {l : List Step}
    (h : Run.Guarded observed (Honest store) (fresh store, []) l) :
    (∀ refresh, (run store l).2.countP (fun b => b.posts == some refresh) ≤ 1) ∧
      Run.Follows (fun h b => b.posts.isSome → ¬ Replaced h b.i) (run store l).2 := by
  have hnew := posts_new store h
  refine ⟨fun refresh => (hnew.mono fun h b hb hpost b' hb' => ?_).countP_le_one, hnew.mono fun h b hb hpost => ?_⟩
  · simpa using (hb refresh (by simpa using hpost)).1 b' hb'
  · obtain ⟨refresh, hrefresh⟩ := Option.isSome_iff_exists.1 hpost
    exact (hb refresh hrefresh).2

/-- Two requests fail with 401. The first one refreshes, and both are sent again. -/
def bothExpired : List Step := List.flatten
  [[.spawn (.request "/devices") {}, .spawn (.request "/sessions") {}, .advance 0 {}, .advance 1 {},
      .advance 1 { sent := .error (some 401) }, .advance 0 { sent := .error (some 401) }],
    List.replicate 4 (.advance 0 {}), [.advance 0 { refreshed := .ok (some ⟨some "a1", some "r1"⟩) }],
    List.replicate 6 (.advance 0 {}), List.replicate 5 (.advance 1 {})]

theorem bothExpired_posted_once :
    (∀ refresh, (run (storedPair "a0" "r0") bothExpired).2.countP (fun b => b.posts == some refresh) ≤ 1) ∧
      Run.Follows (fun h b => b.posts.isSome → ¬ Replaced h b.i) (run (storedPair "a0" "r0") bothExpired).2 :=
  posted_once (storedPair "a0" "r0") (by decide +kernel)

end DeskSync.Mobile.Auth
