import DeskSync.Mobile.AuthTokens

/-!
# Sign-in and sign-out of the mobile client

`AuthRepository.login`, `register` and `logout` among requests whose 401 the interceptor handles. After a
sign-out the storage should stay empty until the next sign-in, and what a sign-in has stored should not be
changed for a request that carried an older token.

Neither holds in every run: `late_answer` is a run in which a refresh is answered after a sign-out and its
tokens are stored, and one in which a refresh fails after a sign-in and the tokens of the sign-in are
deleted. `faithful_of_apart`: both hold in every state of a run in which no operation changes what is stored
while it should not (`Apart`).
-/

namespace DeskSync.Mobile.Auth

open Proc

/-- A sign-out has cleared the tokens. -/
def Event.loggedOut : Event → Bool
  | ⟨_, .logout, _, .delete .refreshToken, _⟩ => true
  | _ => false

/-- A sign-in stores the token. -/
def Event.saves (b : Event) (k : Key) (v : String) : Bool := b.req.signsIn && b.call == .write k v

/-- The stored session follows sign-in and sign-out: after a sign-out and until the next sign-in is through,
the storage holds nothing but what that sign-in has stored so far, and no `onError` changes anything for a
request that read its token before a sign-in has stored its own. -/
structure Faithful (p : Observed) : Prop where
  signedOut : ∀ h₁ e h₂, p.2 = h₁ ++ e :: h₂ → e.loggedOut = true → (∀ b ∈ h₂, b.signedIn = false) →
    ∀ k v, p.1.store.store k = some v → ∃ b ∈ h₂, b.saves k v = true
  signedIn : Run.Follows (fun h b => b.req.isRequest = true → Outdated h b.i → b.changes = false) p.2

section Step
variable {store : SecureStore} {X X' : ℕ → Stage} {p p' : Observed} {l : Step}
variable {i : ℕ} {q : Request} {c : Call} {k : Reply c → Handler (Except Unit Unit)} {r : Reply c}
  {e : Env} {x' : Stage}

/-- A request that writes has seen the refresh token it has posted, and it is still stored. -/
theorem Seen.write {h : List Event} {d : Device} {x : Stage} {key : Key} {v : String} {r : Unit}
    (hseen : Seen h d i x) (hnext : Next x (.write key v) r x') (hfits : x.fits q)
    (hq : q.isRequest = true) : ∃ posted, d.store .refreshToken = some posted := by
  cases hnext with
  | writesOne | writes => exact ⟨_, (present_eq_some.1 hseen.2).1⟩
  | rotates => exact ⟨_, (present_eq_some.1 hseen.2.1).1⟩
  | saves | savesRefresh => exact absurd hq (not_request hfits)

theorem Event.saves_signedIn {b : Event} {v : String} (h : b.saves .refreshToken v = true) :
    b.signedIn = true := by
  obtain ⟨i, req, before, call, reply⟩ := b
  obtain ⟨hreq, hcall⟩ := Bool.and_eq_true_iff.1 h
  obtain rfl : call = .write .refreshToken v := by simpa using hcall
  exact hreq

/-- The sign-out that has cleared the tokens leaves nothing. -/
theorem Settled.loggedOut (hX : Locked X p.1) (hp : Settled X p)
    (hi : p.1.threads[i]? = some ⟨q, .call c k⟩) (hnext : Next (X i) c r x')
    (hb : (⟨i, q, p.1.store.store, c, r⟩ : Event).loggedOut = true) (key : Key) :
    (exec e c p.1.store).2.store key = none := by
  obtain ⟨rfl, rfl⟩ : q = .logout ∧ c = .delete .refreshToken := by
    unfold Event.loggedOut at hb
    split at hb
    · rename_i heq
      cases heq
      exact ⟨rfl, rfl⟩
    · cases hb
  have hfits := hX.fits i _ _ hi
  have hclearing := hp.clearing i
  generalize X i = x at *
  cases hnext with
  | clearsOutRefresh =>
    cases key with
    | accessToken => exact hclearing rfl
    | refreshToken => rfl
  | deletesRefresh | clearsRefresh => cases hfits

theorem Faithful.step (hX : Locked X p.1) (hs : Settled X p) (hp : Faithful p)
    (hm : Moves X p l X' p') (ha : Apart p l) : Faithful p' := by
  cases hm with
  | stays i e hi => exact hp
  | spawns q e => exact ⟨hp.signedOut, hp.signedIn⟩
  | calls i e q c k x' r hi hr hnext =>
    have hfits := hX.fits i q _ hi
    have hchanges := changes_cases hX hs hi hr hnext ha
    refine ⟨fun h₁ b h₂ heq hout hnot key v hv => ?_, hp.signedIn.concat fun hq hold => ?_⟩
    · rcases List.eq_nil_or_concat' h₂ with rfl | ⟨h₂, b', rfl⟩
      · obtain ⟨rfl, hb⟩ := List.append_inj' heq rfl
        cases hb
        rw [hs.loggedOut hX hi hnext hout key] at hv
        cases hv
      · rw [← List.cons_append, ← List.append_assoc] at heq
        obtain ⟨hh, hb⟩ := List.append_inj' heq rfl
        cases hb
        have hbefore := hp.signedOut h₁ b h₂ hh hout fun b' hb' => hnot b' (List.mem_append_left _ hb')
        rw [exec_store] at hv
        rcases after_cases hv with rfl | ⟨hv, -⟩
        · rcases hchanges rfl with ⟨hq, hseen, -⟩ | ⟨hq, -⟩ | ⟨hq, -⟩
          · -- a request has a refresh token to post only if a sign-in has stored one
            obtain ⟨posted, hposted⟩ := hseen.write hnext hfits hq
            obtain ⟨b', hb', hsaves⟩ := hbefore .refreshToken posted hposted
            have hin := hnot b' (List.mem_append_left _ hb')
            rw [Event.saves_signedIn hsaves] at hin
            cases hin
          · exact absurd hq (Next.fits_write hnext hfits)
          · exact ⟨_, List.mem_append_right _ (List.mem_singleton_self _), by simp [Event.saves, hq]⟩
        · obtain ⟨b', hb', hsaves⟩ := hbefore key v hv
          exact ⟨b', List.mem_append_left _ hb', hsaves⟩
    · refine Bool.eq_false_iff.2 fun hb => ?_
      have hq : q.isRequest = true := hq
      have hold : Outdated p.2 i := hold
      rcases hchanges hb with ⟨-, hseen, hfree, hin, -⟩ | ⟨rfl, -⟩ | ⟨hin, -⟩
      · have hwithout := hs.without hX hin
        generalize X i = x at *
        have hnone (hne : x ≠ .deletingRefresh) (haccess : p.1.store.token .accessToken = none) :=
          hwithout hne hfree hold.replaced.written haccess
        cases hnext with
        | writesOne | writes =>
          have hrefresh := hnone nofun (hseen.1 hold.replaced)
          rw [hseen.2] at hrefresh
          cases hrefresh
        | rotates => exact hseen.1 hold
        | deletes => exact token_eq_none hb (hseen hold.replaced)
        | deletesRefresh => exact token_eq_none hb (hseen.2 hold)
        | clears | clearsRefresh => cases hin
        | saves | savesRefresh => exact not_request hfits hq
        | clearsOut | clearsOutRefresh =>
          cases hfits
          cases hq
        | _ => cases hb
      · cases hq
      · exact not_request hin hq

end Step

/-! ### The result -/

/-- One `onError` at a time, new tokens with every sign-in and refresh, and no operation changing what is
stored in between what another one does to it. -/
def Undisturbed (store : SecureStore) (p : Observed) (l : Step) : Prop :=
  Queued p.1 l ∧ Fresh store p l ∧ Apart p l

instance (store : SecureStore) (p : Observed) (l : Step) : Decidable (Undisturbed store p l) := by
  unfold Undisturbed
  infer_instance

/-- In a run in which nothing is disturbed, the stored session follows sign-in and sign-out. -/
theorem faithful_of_undisturbed (store : SecureStore) {l : List Step}
    (h : Run.Guarded observed (Undisturbed store) (fresh store, []) l) :
    Run.Always observed Faithful (fresh store, []) l := by
  refine (h.always (I := fun p => Kept store p ∧ Faithful p) ?_ ⟨kept_fresh store, ?_⟩).mono fun p hp => hp.2
  · rintro p l ⟨⟨X, hX, ht, hs⟩, hp⟩ ⟨hq, hf, ha⟩
    obtain ⟨X', hm, hconf⟩ := moves hX.conform l
    exact ⟨⟨X', hX.step hm hconf hq, ht.step hm hf, hs.step hX ht hm ha⟩, hp.step hX hs hm ha⟩
  · refine ⟨fun h₁ b h₂ heq => ?_, Run.follows_nil⟩
    simp at heq

/-- A request is refreshed, then the user signs out and in again. -/
def oneAtATime : List Step := List.flatten
  [[.spawn (.request "/devices") {}, .advance 0 {}, .advance 0 { sent := .error (some 401) }],
    List.replicate 4 (.advance 0 {}), [.advance 0 { refreshed := .ok (some ⟨some "a1", some "r1"⟩) }],
    List.replicate 6 (.advance 0 {}), [.spawn .logout {}], List.replicate 4 (.advance 1 {}),
    [.spawn (.login "a@b.c" "secret") {}, .advance 2 { tokens := .ok ⟨"a2", "r2"⟩ }],
    List.replicate 2 (.advance 2 {})]

theorem oneAtATime_faithful :
    Run.Always observed Faithful (fresh (storedPair "a0" "r0"), []) oneAtATime :=
  faithful_of_undisturbed (storedPair "a0" "r0") (by decide +kernel)

/-- A request whose refresh is posted. -/
def refreshing : List Step := List.flatten
  [[.spawn (.request "/devices") {}, .advance 0 {}, .advance 0 { sent := .error (some 401) }],
    List.replicate 4 (.advance 0 {})]

/-- The user signs out, then the refresh is answered. -/
def answeredLate : List Step := List.flatten
  [refreshing, [.spawn .logout {}], List.replicate 4 (.advance 1 {}),
    [.advance 0 { refreshed := .ok (some ⟨some "a1", some "r1"⟩) }, .advance 0 {}]]

/-- The user signs in again, then the refresh fails. -/
def failedLate : List Step := List.flatten
  [refreshing, [.spawn (.login "a@b.c" "secret") {}, .advance 1 { tokens := .ok ⟨"a2", "r2"⟩ }],
    List.replicate 2 (.advance 1 {}), List.replicate 3 (.advance 0 {})]

theorem split_at {h : List Event} {n : ℕ} (hn : n < h.length) : h = h.take n ++ h[n] :: h.drop (n + 1) := by
  rw [← List.drop_eq_getElem_cons hn, List.take_append_drop]

/-- One `onError` at a time and new tokens are not enough: a refresh answered after a sign-out is stored, and
a refresh that fails after a sign-in has what the sign-in stored deleted. -/
theorem late_answer :
    (Run.Guarded observed (fun p l => Queued p.1 l ∧ Fresh (storedPair "a0" "r0") p l)
        (fresh (storedPair "a0" "r0"), []) answeredLate ∧
      ¬ Run.Always observed Faithful (fresh (storedPair "a0" "r0"), []) answeredLate) ∧
    (Run.Guarded observed (fun p l => Queued p.1 l ∧ Fresh (storedPair "a0" "r0") p l)
        (fresh (storedPair "a0" "r0"), []) failedLate ∧
      ¬ Run.Always observed Faithful (fresh (storedPair "a0" "r0"), []) failedLate) := by
  refine ⟨⟨by decide +kernel, fun h => ?_⟩, by decide +kernel, fun h => ?_⟩
  · -- the sign-out clears the tokens in the tenth call
    have hp : Faithful (run (storedPair "a0" "r0") answeredLate) := h.last
    have hlen : 9 < (run (storedPair "a0" "r0") answeredLate).2.length := by decide +kernel
    have hnone : ∀ b ∈ (run (storedPair "a0" "r0") answeredLate).2.drop 10,
        b.signedIn = false ∧ b.saves .accessToken "a1" = false := by decide +kernel
    obtain ⟨b, hb, hsaves⟩ := hp.signedOut _ _ _ (split_at hlen) (by decide +kernel +revert)
      (fun b hb => (hnone b hb).1) .accessToken "a1" (by decide +kernel)
    rw [(hnone b hb).2] at hsaves
    cases hsaves
  · -- the request reads its token in the first call, and deletes that of the sign-in in the last
    have hp : Faithful (run (storedPair "a0" "r0") failedLate) := h.last
    have hlen : 11 < (run (storedPair "a0" "r0") failedLate).2.length := by decide +kernel
    have hchanges : ((run (storedPair "a0" "r0") failedLate).2[11]).changes = true := by
      decide +kernel +revert
    have hkept := hp.signedIn _ _ _ (split_at hlen) (by decide +kernel +revert) ?_
    · rw [hkept] at hchanges
      cases hchanges
    · have hs := @List.map_getElem_sublist _ ((run (storedPair "a0" "r0") failedLate).2.take 11)
        [⟨0, by decide +kernel⟩, ⟨7, by decide +kernel⟩, ⟨8, by decide +kernel⟩] (by decide)
      exact ⟨_, _, _, hs, by decide +kernel +revert, by decide +kernel, by decide +kernel, by decide +kernel,
        by decide +kernel⟩

end DeskSync.Mobile.Auth
