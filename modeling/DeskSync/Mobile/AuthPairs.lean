import DeskSync.Mobile.AuthTokens

/-!
# Token pairs where the storage fails and the app stops

The client once more, where an operation on the storage may throw and the app may stop between two awaits. What
throws ends the operation, as nothing catches it; a refresh is over then. The access token and the refresh token
that are stored should come from one pair that the backend has issued.

A refresh writes the new access token while the refresh token it has posted is still stored, so that every
rotation goes through a state with tokens of two pairs, and stays there if the app stops: `split_rotation` is
such a run. `matched_of_alone`: as long as an access token is written only where no refresh token is stored and
no other operation is between its two writes, the stored tokens are of one pair in every state, whatever fails
and whenever the app stops.
-/

namespace DeskSync.Mobile.Auth.Pairs

open Elements Proc
open Proc.Prog (perform)

/-! ### Handlers whose calls may throw -/

/-- What the storage throws is of no matter. -/
abbrev Thrown (c : Call) : Type := Except Unit (Reply c)

abbrev Handler := Prog Thrown

/-- `_refresh`: `whenComplete` ends the refresh in flight also when `_doRefresh` throws. -/
def refresh : Handler (Except Unit Bool) := do
  let shared : Except Unit Bool ← perform Call.joinRefresh
  match shared with
  | .error () => return .error ()
  | .ok true => perform Call.awaitRefresh
  | .ok false => do
    let refreshed ← doRefresh.throwing
    let _ ← perform Call.refreshCompleted
    return refreshed

def onError (path : String) (used : Option String) (alreadyRetried : Bool) (status : Option ℕ) :
    Handler (Except Unit (Except Unit Unit)) := do
  if status ≠ some 401 ∨ isPublicAuthPath path ∨ alreadyRetried then do
    let _ ← perform Call.complete
    return .ok (.error ())
  else do
    let current : Except Unit (Option String) ← perform (Call.read .accessToken)
    match current with
    | .error () => return .error ()
    | .ok current => do
      let refreshed ← if tokenAlreadyRotated current used then pure (.ok true) else refresh
      match refreshed with
      | .error () => return .error ()
      | .ok refreshed => (replay refreshed).throwing

def request (path : String) : Handler (Except Unit (Except Unit Unit)) := do
  let used ← (onRequest path).throwing
  match used with
  | .error () => return .error ()
  | .ok used => do
    let sent : Except Unit (Except (Option ℕ) Unit) ← perform (Call.send used)
    match sent with
    | .error () => return .error ()
    | .ok (.ok ()) => return .ok (.ok ())
    | .ok (.error status) => do
      let _ ← perform Call.turn
      onError path used false status

def start : Request → Handler (Except Unit (Except Unit Unit))
  | .request path => request path
  | .login email password => (Auth.login email password).throwing
  | .register email password displayName => (Auth.register email password displayName).throwing
  | .logout => Auth.logout.throwing

/-! ### The client -/

/-- How an operation on the storage ends: it may throw without an effect, or after it. -/
inductive Failure
  | none
  | before
  | after
  deriving DecidableEq

structure Env where
  answers : Auth.Env := {}
  failure : Failure := .none

/-- What may throw: the storage, and a refresh that another operation waits for. -/
def mayThrow : Call → Bool
  | .read _ | .write .. | .delete _ | .awaitRefresh => true
  | _ => false

def exec (e : Env) (c : Call) (d : Device) : Thrown c × Device :=
  match mayThrow c, e.failure with
  | true, .before => (.error (), d)
  | true, .after => (.error (), (Auth.exec e.answers c d).2)
  | _, _ => (.ok (Auth.exec e.answers c d).1, (Auth.exec e.answers c d).2)

def system : System Device Request Thrown (Except Unit (Except Unit Unit)) Env Empty where
  start q _ := start q
  exec := exec
  env := nofun

abbrev World := Pool Device Request Thrown (Except Unit (Except Unit Unit))

/-- A step of an operation, or the app stops and is started again. -/
inductive Step
  | step (l : Label Request Env Empty)
  | stop

/-- Only the storage outlives the app. -/
def stopped (w : World) : World :=
  ⟨{ store := w.store.store }, w.threads.map fun t => ⟨t.req, .ret (.error ())⟩⟩

def move (w : World) : Step → World
  | .step l => system.step w l
  | .stop => stopped w

/-- The pair that the backend issues with an answer. -/
def issued (e : Auth.Env) : Call → Option TokenPair
  | .login .. | .register .. => e.tokens.toOption
  | .postRefresh _ =>
    match e.refreshed with
    | .ok (some ⟨access, refresh⟩) => do
      let access ← present access
      let refresh ← present refresh
      return ⟨access, refresh⟩
    | _ => none
  | _ => none

def answered (w : World) : Step → Option TokenPair
  | .step (.advance i e) => (w.threads[i]?.bind fun t => t.prog.pending).bind (issued e.answers)
  | _ => none

/-- The client, and the pairs that have been issued. -/
abbrev Observed := World × List TokenPair

abbrev observed : Observed → Step → Observed := Run.observe move answered

/-- The pair that is stored at first, if there is one. -/
def stored : Option TokenPair → SecureStore
  | some pair => storedPair pair.accessToken pair.refreshToken
  | none => fun _ => none

def initially (pair : Option TokenPair) : Observed := (⟨{ store := stored pair }, []⟩, pair.toList)

/-! ### What the runs are about -/

/-- The stored tokens are of one pair, or one of them is not there. -/
def Matched (p : Observed) : Prop :=
  ∀ access refresh, p.1.store.store .accessToken = some access → p.1.store.store .refreshToken = some refresh →
    ⟨access, refresh⟩ ∈ p.2

/-- The operation is between its two writes. -/
def betweenWrites (t : Thread Request Thrown (Except Unit (Except Unit Unit))) : Bool :=
  match t.prog.pending with
  | some (.write .refreshToken _) => true
  | _ => false

/-- An access token is written only where no refresh token is stored, and no operation is between its writes. -/
def Alone (w : World) : Step → Prop
  | .step (.advance i _) =>
    match w.threads[i]? with
    | some ⟨_, .call (.write .accessToken _) _⟩ =>
      w.store.store .refreshToken = none ∧ w.threads.all fun t => !betweenWrites t
    | _ => True
  | _ => True

instance (w : World) (l : Step) : Decidable (Alone w l) := by
  unfold Alone
  split
  · split <;> infer_instance
  · infer_instance

/-! ### The stages of an operation -/

/-- Only what may throw does. -/
def Answers (c : Call) (r : Thrown c) : Prop := mayThrow c = true ∨ ∃ a, r = .ok a

/-- An operation goes on as it does where nothing throws. Otherwise it ends, or ends the refresh first. -/
inductive Leads : Stage → (c : Call) → Thrown c → Stage → Prop
  | goes {x c r x'} (h : Next x c r x') : Leads x c (.ok r) x'
  | ends (x c) : Leads x c (.error ()) .done
  | endsRefresh (x c) : Leads x c (.error ()) (.completing false)

abbrev Follows (x : Stage) (p : Handler (Except Unit (Except Unit Unit))) : Prop :=
  p.Conforms Answers Leads (fun _ _ => True) x

theorem follows_throwing {x : Stage} {p : Auth.Handler (Except Unit Unit)} (h : Auth.Follows x p) :
    Follows x p.throwing :=
  h.throwing (fun _ _ _ => trivial) (fun _ _ _ _ hnext => .goes hnext)
    (fun x c _ => ⟨.done, .ends x c, trivial⟩) fun _ _ _ => trivial

theorem follows_doRefresh : doRefresh.throwing.Conforms Answers Leads
    (fun x (r : Except Unit Bool) => x = .completing (r.toOption.getD false)) .refreshing :=
  Auth.follows_doRefresh.throwing (fun _ _ _ => trivial) (fun _ _ _ _ hnext => .goes hnext)
    (fun x c _ => ⟨.completing false, .endsRefresh x c, rfl⟩) fun _ _ hx => hx

theorem follows_refresh : refresh.Conforms Answers Leads
    (fun x r => ∀ ok, r = .ok ok → x = if ok then .rereading else .deleting) .joining := by
  intro shared hshared
  obtain ⟨shared, rfl⟩ := hshared.resolve_left nofun
  cases shared with
  | true =>
    refine ⟨_, .goes .shares, fun r _ => ?_⟩
    rcases r with _ | ok
    · exact ⟨_, .ends _ _, nofun⟩
    · cases ok with
      | true => exact ⟨_, .goes .shared, fun ok h => by cases h; rfl⟩
      | false => exact ⟨_, .goes .sharedFailure, fun ok h => by cases h; rfl⟩
  | false =>
    refine ⟨_, .goes .starts, follows_doRefresh.bind fun x r hx => ?_⟩
    subst hx
    intro done hdone
    obtain ⟨done, rfl⟩ := hdone.resolve_left nofun
    rcases r with _ | ok
    · exact ⟨_, .goes .gives, nofun⟩
    · cases ok with
      | true => exact ⟨_, .goes .completes, fun ok h => by cases h; rfl⟩
      | false => exact ⟨_, .goes .gives, fun ok h => by cases h; rfl⟩

theorem follows_onError (path : String) (used : Option String) (alreadyRetried : Bool) (status : Option ℕ) :
    Follows (.entered used) (onError path used alreadyRetried status) := by
  have hreplay (x : Stage) (r : Except Unit Bool) : (∀ ok, r = .ok ok → x = if ok then .rereading else .deleting) →
      Follows x (match r with
        | .error () => .ret (.error ())
        | .ok refreshed => (replay refreshed).throwing) := by
    intro hx
    rcases r with _ | ok
    · trivial
    · exact follows_throwing (follows_replay (hx ok rfl))
  unfold onError
  split
  · intro r hr
    obtain ⟨r, rfl⟩ := hr.resolve_left nofun
    exact ⟨_, .goes (.passes used), trivial⟩
  intro current _
  rcases current with _ | current
  · exact ⟨_, .ends _ _, trivial⟩
  cases hrotated : tokenAlreadyRotated current used with
  | true =>
    refine ⟨_, .goes (.rotated used current hrotated), ?_⟩
    simpa [hrotated] using hreplay .rereading (.ok true) fun ok h => by cases h; rfl
  | false =>
    refine ⟨_, .goes (.stale used current hrotated), ?_⟩
    simp only [Prog.bind, hrotated]
    exact follows_refresh.bind hreplay

theorem follows_request (path : String) : Follows (Request.request path).stage (request path) := by
  have hsend (used : Option String) : Follows (.sending used) (do
      let sent : Except Unit (Except (Option ℕ) Unit) ← perform (Call.send used)
      match sent with
      | .error () => return .error ()
      | .ok (.ok ()) => return .ok (.ok ())
      | .ok (.error status) => do
        let _ ← perform Call.turn
        onError path used false status) := by
    intro sent hsent
    obtain ⟨sent, rfl⟩ := hsent.resolve_left nofun
    cases sent with
    | ok sent => exact ⟨_, .goes (.sends used sent), trivial⟩
    | error status =>
      refine ⟨_, .goes (.unsent used status), fun turn hturn => ?_⟩
      obtain ⟨turn, rfl⟩ := hturn.resolve_left nofun
      exact ⟨_, .goes (.enters used), follows_onError path used false status⟩
  cases hpath : isPublicAuthPath path with
  | true => simpa [request, onRequest, Request.stage, hpath, Prog.throwing] using hsend none
  | false =>
    simp only [request, onRequest, Request.stage, hpath, Bool.false_eq_true, if_false, Prog.perform_bind,
      Prog.throwing, Prog.call_bind]
    intro token _
    rcases token with _ | token
    · exact ⟨_, .ends _ _, trivial⟩
    · exact ⟨_, .goes (.attaches token), hsend (present token)⟩

theorem follows_start (q : Request) : Follows q.stage (start q) := by
  cases q with
  | request path => exact follows_request path
  | login email password => exact follows_throwing (Auth.follows_start (.login email password))
  | register email password name => exact follows_throwing (Auth.follows_start (.register email password name))
  | logout => exact follows_throwing (Auth.follows_start .logout)

/-! ### Runs -/

theorem exec_answers (e : Env) (c : Call) (d : Device) : Answers c (exec e c d).1 := by
  unfold exec
  split
  · next h _ => exact .inl h
  · next h _ => exact .inl h
  · exact .inr ⟨_, rfl⟩

/-- What a call does to the storage: nothing, or what it does where nothing throws. -/
theorem exec_effect (e : Env) (c : Call) (d : Device) :
    (exec e c d).2.store = d.store ∨ (exec e c d).2.store = c.after d.store := by
  unfold exec
  split
  · exact .inl rfl
  · exact .inr (exec_store ..)
  · exact .inr (exec_store ..)

/-- What an operation that is about to write knows of the tokens. -/
def Holds (p : Observed) : Stage → Prop
  | .saving tokens => tokens ∈ p.2
  | .writing _ access (some refresh) => ⟨access, refresh⟩ ∈ p.2
  | .savingRefresh refresh | .rotating _ refresh =>
    ∀ access, p.1.store.store .accessToken = some access → ⟨access, refresh⟩ ∈ p.2
  | _ => True

structure Sound (X : ℕ → Stage) (p : Observed) : Prop where
  conform : p.1.Conform Answers Leads (fun _ _ => True) X
  matched : Matched p
  holds : ∀ (i : ℕ) q c k, p.1.threads[i]? = some ⟨q, .call c k⟩ → Holds p (X i)

section Step
variable {X : ℕ → Stage} {p p' : Observed} {i : ℕ} {q : Request} {c : Call}
  {k : Thrown c → Handler (Except Unit (Except Unit Unit))}

/-- The stage of an operation is one in which it makes the call it is at. -/
theorem Sound.next (hp : Sound X p) (hi : p.1.threads[i]? = some ⟨q, .call c k⟩) (r : Reply c) :
    ∃ x', Next (X i) c r x' := by
  obtain ⟨x', hleads, -⟩ := hp.conform i q _ hi (.ok r) (.inr ⟨r, rfl⟩)
  cases hleads with
  | goes h => exact ⟨x', h⟩

/-- A stage between the two writes. -/
def between : Stage → Bool
  | .savingRefresh _ | .rotating .. => true
  | _ => false

theorem between_call {x x' : Stage} {r : Reply c} (h : Next x c r x') (hx : between x = true) :
    ∃ v, c = .write .refreshToken v := by
  cases h with
  | rotates | savesRefresh => exact ⟨_, rfl⟩
  | _ => cases hx

theorem Holds.mono {x : Stage} (h : Holds p x) (hstore : between x = true → ∀ access,
      p'.1.store.store .accessToken = some access → p.1.store.store .accessToken = some access)
    (hissued : ∀ pair ∈ p.2, pair ∈ p'.2) : Holds p' x := by
  cases x with
  | saving tokens => exact hissued _ h
  | writing posted access refresh =>
    cases refresh with
    | none => trivial
    | some refresh => exact hissued _ h
  | savingRefresh refresh | rotating posted refresh =>
    exact fun access haccess => hissued _ (h access (hstore rfl access haccess))
  | _ => trivial

/-- What a call leaves stored comes of one pair, if it is alone when it writes an access token. -/
theorem Sound.matched_call (hp : Sound X p) {e : Env} (hi : p.1.threads[i]? = some ⟨q, .call c k⟩)
    (halone : Alone p.1 (.step (.advance i e))) {w : World} (hw : w.store = (exec e c p.1.store).2)
    (new : List TokenPair) : Matched (w, p.2 ++ new) := by
  intro access refresh haccess hrefresh
  refine List.mem_append_left _ ?_
  simp only [hw] at haccess hrefresh
  rcases exec_effect e c p.1.store with heffect | heffect
  · rw [heffect] at haccess hrefresh
    exact hp.matched access refresh haccess hrefresh
  rw [heffect] at haccess hrefresh
  rcases after_cases haccess with rfl | ⟨haccess, -⟩
  · -- no refresh token is stored
    simp only [Alone, hi] at halone
    rcases after_cases hrefresh with hc | ⟨hrefresh, -⟩
    · cases hc
    · rw [halone.1] at hrefresh
      cases hrefresh
  · rcases after_cases hrefresh with rfl | ⟨hrefresh, -⟩
    · -- the access token is the one of the pair, if there is one
      have hholds := hp.holds i _ _ _ hi
      obtain ⟨x', hnext⟩ := hp.next hi ()
      generalize X i = x at hholds hnext
      cases hnext with
      | rotates | savesRefresh => exact hholds access haccess
    · exact hp.matched access refresh haccess hrefresh

/-- What the other operations know is not affected. -/
theorem Sound.holds_other (hp : Sound X p) {e : Env} (hi : p.1.threads[i]? = some ⟨q, .call c k⟩)
    (halone : Alone p.1 (.step (.advance i e))) {w : World} (hw : w.store = (exec e c p.1.store).2)
    (new : List TokenPair) {j : ℕ} {q' : Request} {c' : Call}
    {k' : Thrown c' → Handler (Except Unit (Except Unit Unit))}
    (hj : p.1.threads[j]? = some ⟨q', .call c' k'⟩) : Holds (w, p.2 ++ new) (X j) := by
  refine (hp.holds j _ _ _ hj).mono (fun hbetween access haccess => ?_) fun pair hpair => List.mem_append_left _ hpair
  simp only [hw] at haccess
  rcases exec_effect e c p.1.store with heffect | heffect
  · rwa [heffect] at haccess
  rw [heffect] at haccess
  rcases after_cases haccess with rfl | ⟨haccess, -⟩
  · -- no other operation is between its writes
    simp only [Alone, hi] at halone
    obtain ⟨x', hnext⟩ := hp.next hj (Auth.exec {} c' p.1.store).1
    obtain ⟨v, rfl⟩ := between_call hnext hbetween
    have hnot := List.all_eq_true.1 halone.2 _ (List.mem_of_getElem? hj)
    cases hnot
  · exact haccess

theorem exec_ok {e : Env} {d : Device} {r : Reply c} (h : (exec e c d).1 = .ok r) :
    r = (Auth.exec e.answers c d).1 ∧ (exec e c d).2.store = c.after d.store := by
  unfold exec at h ⊢
  split at h
  · cases h
  · cases h
  · exact ⟨(Except.ok.inj h).symm, exec_store _ _ _⟩

/-- What the operation itself knows after the call. -/
theorem Sound.holds_self (hp : Sound X p) {e : Env} (hi : p.1.threads[i]? = some ⟨q, .call c k⟩)
    {w : World} (hw : w.store = (exec e c p.1.store).2) {x' : Stage}
    (hleads : Leads (X i) c (exec e c p.1.store).1 x') :
    Holds (w, p.2 ++ (issued e.answers c).toList) x' := by
  have hholds := hp.holds i _ _ _ hi
  generalize hreply : (exec e c p.1.store).1 = reply at hleads
  generalize X i = x at hholds hleads
  cases hleads with
  | ends | endsRefresh => trivial
  | goes hnext =>
    obtain ⟨hr, hstore⟩ := exec_ok hreply
    cases hnext with
    | answered refresh access data haccess =>
      cases hrefresh : present data.refreshToken with
      | none => trivial
      | some rotated =>
        have hdata : e.answers.refreshed = .ok (some data) := hr.symm
        obtain ⟨access', refresh'⟩ := data
        have hpair : issued e.answers (.postRefresh refresh) = some ⟨access, rotated⟩ := by
          simp only [issued, hdata, haccess, hrefresh]
          rfl
        rw [hpair]
        exact List.mem_append_right _ (List.mem_singleton_self _)
    | logsIn email password tokens =>
      have htokens : e.answers.tokens = .ok tokens := hr.symm
      simp only [issued, htokens]
      exact List.mem_append_right _ (List.mem_singleton_self _)
    | registers email password name tokens =>
      have htokens : e.answers.tokens = .ok tokens := hr.symm
      simp only [issued, htokens]
      exact List.mem_append_right _ (List.mem_singleton_self _)
    | writes posted access refresh =>
      intro access' haccess'
      simp only [hw, hstore, Call.after, Function.update_self, Option.some.injEq] at haccess'
      subst haccess'
      exact List.mem_append_left _ hholds
    | saves tokens =>
      intro access' haccess'
      simp only [hw, hstore, Call.after, Function.update_self, Option.some.injEq] at haccess'
      subst haccess'
      exact List.mem_append_left _ hholds
    | _ => trivial

theorem stage_holds (q : Request) : Holds p q.stage := by
  cases q with
  | request path =>
    simp only [Request.stage]
    split <;> trivial
  | login | register | logout => trivial

theorem Sound.step (hp : Sound X p) (l : Step) (halone : Alone p.1 l) : ∃ X', Sound X' (observed p l) := by
  cases l with
  | stop =>
    refine ⟨fun _ => .done, fun i q p' hi => ?_, ?_, fun i q c k hi => ?_⟩
    · obtain ⟨t, -, ht⟩ := Option.map_eq_some_iff.1 (List.getElem?_map ▸ hi)
      cases ht
      trivial
    · show Matched (_, p.2 ++ [])
      rw [List.append_nil]
      exact hp.matched
    · obtain ⟨t, -, ht⟩ := Option.map_eq_some_iff.1 (List.getElem?_map ▸ hi)
      cases ht
  | step l =>
    rcases system.conform_cases hp.conform (fun q _ => follows_start q)
      (fun e c => exec_answers e c p.1.store) l with
      ⟨i, e, rfl, hi, hw⟩ | ⟨q, e, rfl, hw, hconf⟩ | ⟨i, e, q, c, k, x', rfl, hi, hw, hnext, hconf⟩ | ⟨v, -⟩
    · have hnone : answered p.1 (.step (.advance i e)) = none := by
        rcases ht : p.1.threads[i]? with _ | ⟨q, r | ⟨c, k⟩⟩
        · simp [answered, ht]
        · simp [answered, ht]
        · exact absurd ht (hi q c k)
      have hobs : observed p (.step (.advance i e)) = p := by
        rw [observed, Run.observe, hnone, Option.toList_none, List.append_nil, move, hw]
      rw [hobs]
      exact ⟨X, hp⟩
    · have hobs : observed p (.step (.spawn q e)) =
          ({ p.1 with threads := p.1.threads ++ [⟨q, start q⟩] }, p.2) := by
        show (_, p.2 ++ []) = _
        rw [List.append_nil]
        rfl
      rw [hobs]
      refine ⟨_, hconf, hp.matched, fun j q' c k hj => ?_⟩
      have hj : (system.step p.1 (.spawn q e)).threads[j]? = some ⟨q', .call c k⟩ := hj
      rcases system.thread_cases hj with hj | ⟨-, -, -, rfl, -⟩ | ⟨_, _, _, _, hl, -⟩
      · rw [Function.update_of_ne (Nat.ne_of_lt (List.getElem?_eq_some_iff.1 hj).1)]
        exact (hp.holds j q' c k hj).mono (fun _ _ h => h) fun _ h => h
      · rw [Function.update_self]
        exact stage_holds q
      · cases hl
    · have hissued : answered p.1 (.step (.advance i e)) = issued e.answers c := by
        simp [answered, hi]
      have hobs : observed p (.step (.advance i e)) =
          (system.step p.1 (.advance i e), p.2 ++ (issued e.answers c).toList) := by
        rw [observed, Run.observe, hissued, move]
      have hstore : (system.step p.1 (.advance i e)).store = (exec e c p.1.store).2 := by
        rw [hw]
        rfl
      rw [hobs]
      refine ⟨_, hconf, hp.matched_call hi halone hstore _, fun j q' c' k' hj => ?_⟩
      simp only [hw] at hj
      rcases set_cases hj with ⟨rfl, -⟩ | ⟨hij, hold⟩
      · rw [Function.update_self]
        exact hp.holds_self hi hstore hnext
      · rw [Function.update_of_ne (Ne.symm hij)]
        exact hp.holds_other hi halone hstore _ hold
    · cases v

end Step

theorem initially_sound (pair : Option TokenPair) : Sound (fun _ => .done) (initially pair) := by
  refine ⟨fun i q p h => (nomatch h), fun access refresh haccess hrefresh => ?_, fun i q c k h => (nomatch h)⟩
  cases pair with
  | none => cases haccess
  | some pair =>
    cases haccess
    cases hrefresh
    exact List.mem_singleton_self _

/-- Whatever fails and whenever the app stops: as long as an access token is written only where no refresh token
is stored, and no operation is between its two writes, the tokens that are stored are of one pair. -/
theorem matched_of_alone (pair : Option TokenPair) (l : List Step)
    (h : Run.Guarded move Alone (initially pair).1 l) : Run.Always observed Matched (initially pair) l := by
  refine ((h.observe answered pair.toList).always (I := fun p => ∃ X, Sound X p) ?_
    ⟨_, initially_sound pair⟩).mono ?_
  · exact fun p a ⟨X, hp⟩ halone => hp.step a halone
  · exact fun p ⟨X, hp⟩ => hp.matched

/-! ### Two runs -/

def oldPair : TokenPair := ⟨"a0", "r0"⟩

def newPair : TokenPair := ⟨"a1", "r1"⟩

/-- A request is refused with 401, and the backend rotates the refresh token. The app stops between the two
writes. -/
def rotated : List Step :=
  [.step (.spawn (.request "/api/v1/devices") {}), .step (.advance 0 {}),
    .step (.advance 0 { answers := { sent := .error (some 401) } }), .step (.advance 0 {}), .step (.advance 0 {}),
    .step (.advance 0 {}), .step (.advance 0 {}),
    .step (.advance 0 { answers := { refreshed := .ok (some ⟨some "a1", some "r1"⟩) } }),
    .step (.advance 0 {}), .stop]

/-- A sign-in whose second write fails, a sign-out, and another sign-in. -/
def signedInAgain : List Step :=
  [.step (.spawn (.login "a@b.cd" "secret") {}), .step (.advance 0 { answers := { tokens := .ok oldPair } }),
    .step (.advance 0 {}), .step (.advance 0 { failure := .before }),
    .step (.spawn .logout {}), .step (.advance 1 {}), .step (.advance 1 {}), .stop,
    .step (.spawn (.login "a@b.cd" "secret") {}), .step (.advance 2 { answers := { tokens := .ok newPair } }),
    .step (.advance 2 {}), .step (.advance 2 {})]

theorem split_rotation : ¬Matched (Run.exec observed (initially (some oldPair)) rotated) := by
  intro h
  have hpair := h "a1" "r0" (by decide +kernel) (by decide +kernel)
  exact absurd hpair (by decide +kernel)

theorem signedInAgain_matched : Run.Always observed Matched (initially none) signedInAgain :=
  matched_of_alone none signedInAgain (by decide +kernel)

end DeskSync.Mobile.Auth.Pairs
