import DeskSync.Auth.Alarms
import DeskSync.Session.Manager

/-!
# The tokens of the agent

The agent runs two loops with token pairs of their own: `spawn_heartbeat` (`main.rs`) and `SessionManager::run`
(`session_runtime.rs`). Both log in once, exchange their refresh token when a request fails, and log in again when
this fails too. Any number of such loops, on any number of machines, are in flight with the requests of all other
clients at the auth service; a request may get lost, and so may its answer.

A loop whose login fails as well keeps its pair. If its refresh token had reached the service, it presents a spent
token in its next turn, and all tokens of the user are revoked (`outage_alarms`). `agents_stay`: unless this happens,
no token of any user is revoked as reused, and what a loop is about to exchange is good.
-/

namespace DeskSync.Agent.Tokens

open Elements Proc
open Proc.Prog (perform)
open Auth (AuthDb Accounts JwtLaws Names Alarmed Answered CameWith Outstanding)
open Session.Manager (TokenPair PendingSession)

/-! ### The loops -/

structure Credentials where
  email : String
  password : String
  deriving DecidableEq

/-- The calls of `BackendApi` that the loops make. -/
inductive Call
  | login (email password : String)
  | refresh (refreshToken : String)
  | heartbeat (accessToken deviceID : String)
  | pendingSessions (accessToken deviceID : String)
  deriving DecidableEq

abbrev Call.Res : Call → Type
  | .login _ _ | .refresh _ => TokenPair
  | .heartbeat _ _ => Unit
  | .pendingSessions _ _ => List PendingSession

/-- Errors are logged only. -/
abbrev Reply (c : Call) : Type := Except Unit c.Res

abbrev Task := Prog Reply

section Loops
variable (creds : Credentials) (deviceID : String)

/-- Both loops begin so. -/
def authenticate : Task (Option TokenPair) := do
  let tokens : Except Unit TokenPair ← perform (Call.login creds.email creds.password)
  return tokens.toOption

def reauth (tokens : TokenPair) : Task (Option TokenPair) := do
  let refreshed : Except Unit TokenPair ← perform (Call.refresh tokens.refreshToken)
  match refreshed with
  | .ok t => return some t
  | .error _ => authenticate creds

/-- A turn of the loop of `spawn_heartbeat`; what it refreshes with is `reauth`, written out. -/
def beat (tokens : TokenPair) : Task TokenPair := do
  let beaten : Except Unit Unit ← perform (Call.heartbeat tokens.accessToken deviceID)
  match beaten with
  | .ok () => return tokens
  | .error _ => do
    let refreshed ← reauth creds tokens
    match refreshed with
    | some t => do
      let _ ← perform (Call.heartbeat t.accessToken deviceID)
      return t
    | none => return tokens

/-- A turn of `SessionManager::run`. The sessions it finds are answered by tasks of their own. -/
def poll (tokens : TokenPair) : Task TokenPair := do
  let pending : Except Unit (List PendingSession) ← perform (Call.pendingSessions tokens.accessToken deviceID)
  match pending with
  | .ok _ => return tokens
  | .error _ => do
    let again ← reauth creds tokens
    return again.getD tokens

end Loops

inductive Kind
  | heartbeat
  | sessions
  deriving DecidableEq

def Kind.turn : Kind → Credentials → String → TokenPair → Task TokenPair
  | .heartbeat => beat
  | .sessions => poll

/-- A loop: its variable `tokens`, and what is left of its turn. `sent` is the request at the service that the pending
call has become, `asked` are all its requests so far, and `presented` tells whether the refresh token of `tokens` has
reached the service. -/
structure Loop where
  kind : Kind
  creds : Credentials
  deviceID : String
  tokens : Option TokenPair
  task : Task (Option TokenPair)
  sent : Option ℕ
  asked : List ℕ
  presented : Bool

namespace Loop

def start (kind : Kind) (creds : Credentials) (deviceID : String) : Loop :=
  { kind, creds, deviceID, tokens := none, task := authenticate creds, sent := none, asked := [], presented := false }

/-- The next tick: `interval.tick` or `sleep` is over. -/
def turn (L : Loop) : Loop :=
  match L.task with
  | .ret (some tokens) => { L with task := some <$> L.kind.turn L.creds L.deviceID tokens }
  | _ => L

/-- The call has failed, for whatever reason. -/
def fail (L : Loop) : Loop :=
  match L.task with
  | .call _ k => { L with task := k (.error ()), sent := none }
  | .ret _ => L

/-- The call was answered with a pair. -/
def receive (tokens : TokenPair) (L : Loop) : Loop :=
  match L.task with
  | .call (.login _ _) k => { L with task := k (.ok tokens), tokens := some tokens, sent := none, presented := false }
  | .call (.refresh _) k => { L with task := k (.ok tokens), tokens := some tokens, sent := none, presented := false }
  | _ => L

/-- A call that needs no pair was answered. -/
def pass (sessions : List PendingSession) (L : Loop) : Loop :=
  match L.task with
  | .call (.heartbeat _ _) k => { L with task := k (.ok ()) }
  | .call (.pendingSessions _ _) k => { L with task := k (.ok sessions) }
  | _ => L

/-- The request at the auth service that the pending call becomes. -/
def request (md : Auth.Metadata) (L : Loop) : Option Auth.Request :=
  match L.sent, L.task with
  | none, .call (.login email password) _ => some (.login email password md)
  | none, .call (.refresh refreshToken) _ => some (.refresh refreshToken md)
  | _, _ => none

end Loop

/-! ### Loops and service -/

structure World where
  auth : Auth.World
  loops : List Loop

inductive Step
  /-- The service goes on, or another client comes to it. -/
  | auth (l : Auth.Step)
  | launch (kind : Kind) (creds : Credentials) (deviceID : String)
  | turn (n : ℕ)
  /-- The request of a loop reaches the service. -/
  | reaches (n : ℕ) (md : Auth.Metadata) (e : Auth.Env)
  /-- The answer reaches the loop. -/
  | answers (n : ℕ)
  | passes (n : ℕ) (sessions : List PendingSession)
  | fails (n : ℕ)

/-- `toTokenResponse`, as far as the loops read it. -/
def pairOf (tokens : Auth.Tokens) : TokenPair := ⟨tokens.accessToken, tokens.refreshToken⟩

/-- What `BackendClient` makes of a request that has returned. -/
def outcome : Auth.Handler Auth.Response → Option (Except Unit TokenPair)
  | .ret (.tokens (.ok tokens)) => some (.ok (pairOf tokens))
  | .ret _ => some (.error ())
  | .call _ _ => none

/-- The answer that is on its way to the loop. -/
def World.reply (w : World) (L : Loop) : Option (Except Unit TokenPair) :=
  L.sent.bind fun i => w.auth.threads[i]?.bind fun t => outcome t.prog

def Loop.answer (L : Loop) : Except Unit TokenPair → Loop
  | .ok tokens => L.receive tokens
  | .error _ => L.fail

def World.step (s : Auth.Service) (w : World) : Step → World
  | .auth l => { w with auth := (Auth.system s).step w.auth l }
  | .launch kind creds deviceID => { w with loops := w.loops ++ [.start kind creds deviceID] }
  | .turn n => { w with loops := w.loops.modify n Loop.turn }
  | .passes n sessions => { w with loops := w.loops.modify n (Loop.pass sessions) }
  | .fails n => { w with loops := w.loops.modify n Loop.fail }
  | .reaches n md e =>
    match w.loops[n]?.bind fun L => (L.request md).map fun q => (L, q) with
    | none => w
    | some (L, q) =>
      let i := w.auth.threads.length
      { auth := (Auth.system s).step w.auth (.spawn q e)
        loops := w.loops.set n
          { L with sent := some i, asked := i :: L.asked, presented := L.presented || q.token.isSome } }
  | .answers n =>
    match w.loops[n]?.bind fun L => (w.reply L).map L.answer with
    | none => w
    | some L => { w with loops := w.loops.set n L }

/-- The call of the loop fails in this step. -/
def Failing (w : World) (n : ℕ) : Step → Prop
  | .fails m => m = n
  | .answers m => m = n ∧ ∃ L, w.loops[n]? = some L ∧ w.reply L = some (.error ())
  | _ => False

/-- Other clients come with tokens of their own, each once, and no login of a loop fails after its refresh token has
reached the service in vain. -/
structure Orderly (old : String → Prop) (w : World) (x : Step) : Prop where
  others : ∀ q e token, x = .auth (.spawn q e) → q.token = some token →
    (old token ∨ ∃ i tokens, Answered w.auth i tokens ∧ tokens.refreshToken = token ∧ ∀ L ∈ w.loops, i ∉ L.asked) ∧
      ∀ i, ¬ CameWith w.auth i token
  login : ∀ n L email password, Failing w n x → w.loops[n]? = some L →
    L.task.pending = some (.login email password) → L.presented = false

/-! ### A loop -/

/-- Where a loop stands: it has no pair, has one, or has failed to exchange it. -/
inductive Stage
  | loggedOut
  | holds (tokens : TokenPair)
  | lost (tokens : TokenPair)

namespace Stage

def tokens : Stage → Option TokenPair
  | loggedOut => none
  | holds tokens | lost tokens => some tokens

/-- The loop holds the pair it was answered with, if it was. -/
def after (x : Stage) : Except Unit TokenPair → Stage
  | .ok tokens => holds tokens
  | .error _ => x

/-- What a loop does at a stage. -/
def next : Stage → (c : Call) → Reply c → Stage → Prop
  | loggedOut, .login _ _, r, x => x = loggedOut.after r
  | holds tokens, .refresh refreshToken, r, x => refreshToken = tokens.refreshToken ∧ x = (lost tokens).after r
  | lost tokens, .login _ _, r, x => x = (holds tokens).after r
  | holds tokens, .heartbeat _ _, _, x => x = holds tokens
  | holds tokens, .pendingSessions _ _, _, x => x = holds tokens
  | _, _, _, _ => False

/-- A turn ends with the pair that is held. -/
def fin (x : Stage) (result : Option TokenPair) : Prop := x = result.elim loggedOut holds

end Stage

/-- The task goes through the stages. -/
abbrev Follows {α : Type} (fin : Stage → α → Prop) (x : Stage) (p : Task α) : Prop :=
  p.Conforms (fun _ _ => True) Stage.next fin x

theorem start_follows (creds : Credentials) : Follows Stage.fin .loggedOut (authenticate creds) := by
  rintro (_ | tokens) -
  · exact ⟨.loggedOut, rfl, rfl⟩
  · exact ⟨.holds tokens, rfl, rfl⟩

theorem reauth_follows (creds : Credentials) (tokens : TokenPair) :
    Follows (fun x result => x = .holds (result.getD tokens)) (.holds tokens) (reauth creds tokens) := by
  rintro (_ | refreshed) -
  · refine ⟨.lost tokens, ⟨rfl, rfl⟩, ?_⟩
    rintro (_ | again) -
    · exact ⟨.holds tokens, rfl, rfl⟩
    · exact ⟨.holds again, rfl, rfl⟩
  · exact ⟨.holds refreshed, ⟨rfl, rfl⟩, rfl⟩

theorem turn_follows (kind : Kind) (creds : Credentials) (deviceID : String) (tokens : TokenPair) :
    Follows Stage.fin (.holds tokens) (some <$> kind.turn creds deviceID tokens) := by
  have hturn : Follows (fun x t => x = .holds t) (.holds tokens) (kind.turn creds deviceID tokens) := by
    cases kind with
    | heartbeat =>
      rintro (_ | ⟨⟩) -
      · refine ⟨.holds tokens, rfl, ?_⟩
        show Follows _ _ (reauth creds tokens >>= _)
        refine (reauth_follows creds tokens).bind ?_
        rintro x (_ | t) rfl
        · rfl
        · exact fun _ _ => ⟨.holds t, rfl, rfl⟩
      · exact ⟨.holds tokens, rfl, rfl⟩
    | sessions =>
      rintro (_ | found) -
      · refine ⟨.holds tokens, rfl, ?_⟩
        show Follows _ _ (reauth creds tokens >>= _)
        refine (reauth_follows creds tokens).bind ?_
        rintro x result rfl
        rfl
      · exact ⟨.holds tokens, rfl, rfl⟩
  exact hturn.bind fun x t hx => hx

/-- What is known of a loop: where it stands, which of its requests answered with the pair it holds, and whether that
pair has been presented. -/
structure Keeps (w : Auth.World) (x : Stage) (L : Loop) : Prop where
  follows : Follows Stage.fin x L.task
  tokens : L.tokens = x.tokens
  sent : ∀ i, L.sent = some i → i ∈ L.asked
  asked : ∀ i ∈ L.asked, i < w.threads.length
  held : ∀ t, x.tokens = some t →
    ∃ i tokens, Answered w i tokens ∧ pairOf tokens = t ∧ i ∈ L.asked ∧ L.sent ≠ some i
  unused : L.presented = false → ∀ t, x.tokens = some t → ∀ i, ¬ CameWith w i t.refreshToken
  spent : L.presented = true →
    (∃ t, x = .lost t) ∨ L.sent.isSome ∧ ∃ refreshToken, L.task.pending = some (.refresh refreshToken)

section Keeps
variable {w w' : Auth.World} {x : Stage} {L : Loop}

theorem keeps_start (w : Auth.World) (kind : Kind) (creds : Credentials) (deviceID : String) :
    Keeps w .loggedOut (.start kind creds deviceID) where
  follows := start_follows creds
  tokens := rfl
  sent := fun i hi => by cases hi
  asked := fun i hi => by cases hi
  held := fun t ht => by cases ht
  unused := fun _ t ht => by cases ht
  spent := fun hp => by cases hp

/-- The service goes on. -/
theorem Keeps.later (h : Keeps w x L) (hlen : w.threads.length ≤ w'.threads.length)
    (hanswered : ∀ i tokens, Answered w i tokens → Answered w' i tokens)
    (hcame : ∀ i t, x.tokens = some t → CameWith w' i t.refreshToken → CameWith w i t.refreshToken) :
    Keeps w' x L where
  follows := h.follows
  tokens := h.tokens
  sent := h.sent
  asked := fun i hi => (h.asked i hi).trans_le hlen
  held := fun t ht => by
    obtain ⟨i, tokens, hi, hrest⟩ := h.held t ht
    exact ⟨i, tokens, hanswered i tokens hi, hrest⟩
  unused := fun hp t ht i hi => h.unused hp t ht i (hcame i t ht hi)
  spent := h.spent

/-- The loop goes on without a pair coming or going. -/
theorem Keeps.goesOn (h : Keeps w x L) {x' : Stage} {task : Task (Option TokenPair)} {sent : Option ℕ}
    (hx : x'.tokens = x.tokens) (hfollows : Follows Stage.fin x' task) (hsent : ∀ i, sent = some i → L.sent = some i)
    (hspent : L.presented = true → ∃ t, x' = .lost t) : Keeps w x' { L with task, sent } where
  follows := hfollows
  tokens := h.tokens.trans hx.symm
  sent := fun i hi => h.sent i (hsent i hi)
  asked := h.asked
  held := fun t ht => by
    obtain ⟨i, tokens, hi, heq, hasked, hne⟩ := h.held t (hx ▸ ht)
    exact ⟨i, tokens, hi, heq, hasked, fun hs => hne (hsent i hs)⟩
  unused := fun hp t ht => h.unused hp t (hx ▸ ht)
  spent := fun hp => .inl (hspent hp)

/-- While it holds a pair and has not sent it off, the pair has not been presented. -/
theorem Keeps.not_presented {t : TokenPair} (h : Keeps w (.holds t) L)
    (htask : ∀ refreshToken, L.task.pending ≠ some (.refresh refreshToken)) : L.presented ≠ true := by
  intro hp
  obtain ⟨t', hx⟩ | ⟨-, refreshToken, hpend⟩ := h.spent hp
  · cases hx
  · exact htask refreshToken hpend

theorem Keeps.turn (h : Keeps w x L) : Keeps w x L.turn := by
  unfold Loop.turn
  split
  · next tokens htask =>
    have hfin := h.follows
    rw [htask] at hfin
    obtain rfl : x = .holds tokens := hfin
    refine h.goesOn rfl (turn_follows L.kind L.creds L.deviceID tokens) (fun _ hi => hi) fun hp => ?_
    refine absurd hp (h.not_presented fun refreshToken hpend => ?_)
    rw [htask] at hpend
    cases hpend
  · exact h

/-- What a call without a pair leads to. -/
theorem Keeps.pass (h : Keeps w x L) (sessions : List PendingSession) : Keeps w x (L.pass sessions) := by
  have hpass {c : Call} {k : Reply c → Task (Option TokenPair)} (htask : L.task = .call c k) (r : Reply c)
      (hnext : ∀ x', x.next c r x' → x' = x ∧ ∃ t, x = .holds t) (hc : ∀ refreshToken, c ≠ .refresh refreshToken) :
      Keeps w x { L with task := k r } := by
    have hfollows := h.follows
    rw [htask] at hfollows
    obtain ⟨x', hx, hrest⟩ := hfollows r trivial
    obtain ⟨rfl, t, rfl⟩ := hnext x' hx
    refine h.goesOn rfl hrest (fun _ hi => hi) fun hp => ?_
    refine absurd hp (h.not_presented fun refreshToken hpend => ?_)
    rw [htask] at hpend
    exact hc refreshToken (Option.some.inj hpend)
  unfold Loop.pass
  split
  · next htask =>
    refine hpass htask (.ok ()) (fun x' hx => ?_) fun refreshToken hc => by cases hc
    cases x with
    | holds t => exact ⟨hx, t, rfl⟩
    | loggedOut | lost => cases hx
  · next htask =>
    refine hpass htask (.ok sessions) (fun x' hx => ?_) fun refreshToken hc => by cases hc
    cases x with
    | holds t => exact ⟨hx, t, rfl⟩
    | loggedOut | lost => cases hx
  · exact h

/-- A loop whose call fails stays with its pair. -/
theorem Keeps.fail (h : Keeps w x L)
    (hlogin : ∀ email password, L.task.pending = some (.login email password) → L.presented = false) :
    ∃ x', Keeps w x' L.fail := by
  unfold Loop.fail
  split
  · next c k htask =>
    have hfollows := h.follows
    rw [htask] at hfollows hlogin
    obtain ⟨x', hx, hrest⟩ := hfollows (.error ()) trivial
    have hgoes (htokens : x'.tokens = x.tokens) (hspent : L.presented = true → ∃ t, x' = .lost t) :
        ∃ x', Keeps w x' { L with task := k (.error ()), sent := none } :=
      ⟨x', h.goesOn htokens hrest (fun i hi => by cases hi) hspent⟩
    cases x with
    | loggedOut =>
      cases c with
      | login email password =>
        obtain rfl : x' = .loggedOut := hx
        exact hgoes rfl fun hp => absurd hp (by rw [hlogin email password rfl]; decide)
      | refresh | heartbeat | pendingSessions => cases hx
    | holds t =>
      cases c with
      | refresh refreshToken =>
        obtain ⟨-, rfl⟩ := hx
        exact hgoes rfl fun _ => ⟨t, rfl⟩
      | heartbeat | pendingSessions =>
        obtain rfl : x' = .holds t := hx
        refine hgoes rfl fun hp => absurd hp (h.not_presented fun refreshToken hpend => ?_)
        rw [htask] at hpend
        cases hpend
      | login => cases hx
    | lost t =>
      cases c with
      | login email password =>
        obtain rfl : x' = .holds t := hx
        exact hgoes rfl fun hp => absurd hp (by rw [hlogin email password rfl]; decide)
      | refresh | heartbeat | pendingSessions => cases hx
  · exact ⟨x, h⟩

/-- A loop that is answered holds the new pair, which nobody has presented. -/
theorem Keeps.receive (h : Keeps w x L) {i : ℕ} {tokens : Auth.Tokens} (hsent : L.sent = some i)
    (hanswered : Answered w i tokens) (hnew : ∀ j, ¬ CameWith w j tokens.refreshToken) :
    ∃ x', Keeps w x' (L.receive (pairOf tokens)) := by
  have hholds {task : Task (Option TokenPair)} (hfollows : Follows Stage.fin (.holds (pairOf tokens)) task) :
      Keeps w (.holds (pairOf tokens))
        { L with task, tokens := some (pairOf tokens), sent := none, presented := false } :=
    { follows := hfollows
      tokens := rfl
      sent := fun j hj => by cases hj
      asked := h.asked
      held := fun t ht => by
        obtain rfl := Option.some.inj ht
        exact ⟨i, tokens, hanswered, rfl, h.sent i hsent, fun hs => by cases hs⟩
      unused := fun _ t ht => by
        obtain rfl := Option.some.inj ht
        exact hnew
      spent := fun hp => by cases hp }
  have hreceive {c : Call} {k : Reply c → Task (Option TokenPair)} (htask : L.task = .call c k) (r : Reply c)
      (hnext : ∀ x', x.next c r x' → x' = .holds (pairOf tokens)) :
      Follows Stage.fin (.holds (pairOf tokens)) (k r) := by
    have hfollows := h.follows
    rw [htask] at hfollows
    obtain ⟨x', hx, hrest⟩ := hfollows r trivial
    rwa [hnext x' hx] at hrest
  unfold Loop.receive
  split
  · next htask =>
    refine ⟨_, hholds (hreceive htask (.ok (pairOf tokens)) fun x' hx => ?_)⟩
    cases x with
    | loggedOut | lost => exact hx
    | holds => cases hx
  · next htask =>
    refine ⟨_, hholds (hreceive htask (.ok (pairOf tokens)) fun x' hx => ?_)⟩
    cases x with
    | holds => exact hx.2
    | loggedOut | lost => cases hx
  · exact ⟨x, h⟩

/-- A refresh is sent with the token of the pair that is held. -/
theorem Keeps.exchanges (h : Keeps w x L) {refreshToken : String}
    (hpend : L.task.pending = some (.refresh refreshToken)) : ∃ t, x = .holds t ∧ t.refreshToken = refreshToken := by
  have hfollows := h.follows
  cases htask : L.task with
  | ret a =>
    rw [htask] at hpend
    cases hpend
  | call c k =>
    rw [htask] at hpend hfollows
    obtain rfl := Option.some.inj hpend
    obtain ⟨x', hx, -⟩ := hfollows (.error ()) trivial
    cases x with
    | holds t => exact ⟨t, rfl, hx.1.symm⟩
    | loggedOut | lost => cases hx

theorem request_cases {md : Auth.Metadata} {q : Auth.Request} (h : L.request md = some q) :
    L.sent = none ∧ (q.token = none ∨ ∃ refreshToken, L.task.pending = some (.refresh refreshToken) ∧
      q.token = some refreshToken) := by
  unfold Loop.request at h
  split at h
  · next hsent htask =>
    obtain rfl := Option.some.inj h
    exact ⟨hsent, .inl rfl⟩
  · next hsent htask =>
    obtain rfl := Option.some.inj h
    refine ⟨hsent, .inr ⟨_, ?_, rfl⟩⟩
    rw [htask]
    rfl
  · cases h

end Keeps

/-! ### The service goes on -/

section Service
variable {s : Auth.Service} {w : Auth.World}

theorem answered_step (l : Auth.Step) {i : ℕ} {tokens : Auth.Tokens} (h : Answered w i tokens) :
    Answered ((Auth.system s).step w l) i tokens := by
  obtain ⟨q, hi⟩ := h
  rcases (Auth.system s).thread_next l hi with hi' | ⟨e, c, k, -, hp, -⟩
  · exact ⟨q, hi'⟩
  · cases hp

theorem cameWith_step (l : Auth.Step) {i : ℕ} {token : String} (h : CameWith ((Auth.system s).step w l) i token) :
    CameWith w i token ∨ ∃ q e, l = .spawn q e ∧ i = w.threads.length ∧ q.token = some token := by
  obtain ⟨t, hi, htoken⟩ := h
  rcases (Auth.system s).thread_cases hi with hold | ⟨q, e, hl, hlen, rfl⟩ | ⟨e, q, c, k, -, hcall, rfl⟩
  · exact .inl ⟨t, hold, htoken⟩
  · exact .inr ⟨q, e, hl, hlen, htoken⟩
  · exact .inl ⟨_, hcall, htoken⟩

theorem length_step (l : Auth.Step) : w.threads.length ≤ ((Auth.system s).step w l).threads.length := by
  rcases (Auth.system s).step_cases w l with hs | ⟨q, e, -, hs⟩ | ⟨i, e, q, c, k, -, -, hs⟩ | ⟨a, -, hs⟩ <;> rw [hs]
  · rw [List.length_append]
    exact Nat.le_add_right _ _
  · rw [List.length_set]

theorem answered_lt {i : ℕ} {tokens : Auth.Tokens} (h : Answered w i tokens) : i < w.threads.length := by
  obtain ⟨q, hi⟩ := h
  exact (List.getElem?_eq_some_iff.1 hi).1

/-- A loop has sent its request. -/
theorem Keeps.send {x : Stage} {L : Loop} (h : Keeps w x L) {md : Auth.Metadata} {q : Auth.Request}
    (hq : L.request md = some q) (e : Auth.Env) :
    Keeps ((Auth.system s).step w (.spawn q e)) x
      { L with
        sent := some w.threads.length
        asked := w.threads.length :: L.asked
        presented := L.presented || q.token.isSome } where
  follows := h.follows
  tokens := h.tokens
  sent := fun i hi => by
    rw [← Option.some.inj hi]
    exact List.mem_cons_self
  asked := fun i hi => by
    show i < (w.threads ++ [_]).length
    rw [List.length_append, List.length_singleton]
    rcases List.mem_cons.1 hi with rfl | hi
    · exact Nat.lt_succ_self _
    · exact (h.asked i hi).trans (Nat.lt_succ_self _)
  held := fun t ht => by
    obtain ⟨i, tokens, hi, heq, hasked, -⟩ := h.held t ht
    refine ⟨i, tokens, answered_step _ hi, heq, List.mem_cons_of_mem _ hasked, fun hs => ?_⟩
    exact (answered_lt hi).ne (Option.some.inj hs).symm
  unused := fun hp t ht i hi => by
    obtain ⟨hp, htoken⟩ := Bool.or_eq_false_iff.1 hp
    rcases cameWith_step _ hi with hold | ⟨q', e', hl, -, htoken'⟩
    · exact h.unused hp t ht i hold
    · cases hl
      rw [htoken'] at htoken
      cases htoken
  spent := fun hp => by
    obtain ⟨hsent, hnone | ⟨refreshToken, hpend, -⟩⟩ := request_cases hq
    · rw [hnone, Option.isSome_none, Bool.or_false] at hp
      obtain hlost | ⟨hsome, -⟩ := h.spent hp
      · exact .inl hlost
      · rw [hsent] at hsome
        cases hsome
    · exact .inr ⟨rfl, refreshToken, hpend⟩

end Service

/-! ### Runs -/

/-- Every token at the service was handed out, to other clients or to the loop that presents it, and presented
once. -/
structure Inv (s : Auth.Service) (db : AuthDb) (old : String → Prop) (w : World) : Prop where
  run : ∃ l, w.auth = (Auth.system s).run db l
  came : ∀ i token, CameWith w.auth i token → old token ∨
    ∃ j tokens, Answered w.auth j tokens ∧ tokens.refreshToken = token ∧
      ∀ (n : ℕ) L, w.loops[n]? = some L → L.sent ≠ some j
  once : ∀ i j token, CameWith w.auth i token → CameWith w.auth j token → i = j
  loops : ∀ (n : ℕ) L, w.loops[n]? = some L → ∃ x, Keeps w.auth x L
  apart : ∀ (n m : ℕ) L M i, w.loops[n]? = some L → w.loops[m]? = some M → i ∈ L.asked → i ∈ M.asked → n = m

section Run
variable {s : Auth.Service} {db : AuthDb} {old : String → Prop} {w : World}

theorem Inv.honest (h : Inv s db old w) : Auth.Honest old w.auth where
  handedOut := fun i token hi => (h.came i token hi).imp_right fun ⟨j, tokens, hj, heq, _⟩ => ⟨j, tokens, hj, heq⟩
  once := h.once

/-- The pair a loop holds is the answer to one of its requests. -/
theorem Keeps.origin {a : Auth.World} {x : Stage} {L : Loop} (h : Keeps a x L) {t : TokenPair}
    (ht : x.tokens = some t) :
    ∃ i tokens, Answered a i tokens ∧ tokens.refreshToken = t.refreshToken ∧ i ∈ L.asked ∧ L.sent ≠ some i := by
  obtain ⟨i, tokens, hi, heq, hrest⟩ := h.held t ht
  exact ⟨i, tokens, hi, congrArg TokenPair.refreshToken heq, hrest⟩

/-- The service makes a step, in which a request may come in that is accounted for. -/
theorem Inv.service (h : Inv s db old w) (l : Auth.Step) {loops : List Loop}
    (hnew : ∀ q e token, l = .spawn q e → q.token = some token → (old token ∨
      ∃ j tokens, Answered w.auth j tokens ∧ tokens.refreshToken = token ∧
        ∀ (n : ℕ) L, loops[n]? = some L → L.sent ≠ some j) ∧ ∀ i, ¬ CameWith w.auth i token)
    (hsent : ∀ j tokens, Answered w.auth j tokens → (∀ (n : ℕ) L, w.loops[n]? = some L → L.sent ≠ some j) →
      ∀ (n : ℕ) L, loops[n]? = some L → L.sent ≠ some j)
    (hloops : ∀ (n : ℕ) L, loops[n]? = some L → ∃ x, Keeps ((Auth.system s).step w.auth l) x L)
    (hapart : ∀ (n m : ℕ) L M i, loops[n]? = some L → loops[m]? = some M → i ∈ L.asked → i ∈ M.asked → n = m) :
    Inv s db old ⟨(Auth.system s).step w.auth l, loops⟩ := by
  refine ⟨?_, fun i token hi => ?_, fun i j token hi hj => ?_, hloops, hapart⟩
  · obtain ⟨l₀, hl₀⟩ := h.run
    refine ⟨l₀ ++ [l], ?_⟩
    rw [System.run, Run.exec_append, ← System.run, ← hl₀]
    rfl
  · rcases cameWith_step l hi with hold | ⟨q, e, hl, -, htoken⟩
    · refine (h.came i token hold).imp_right fun ⟨j, tokens, hj, heq, hs⟩ => ?_
      exact ⟨j, tokens, answered_step l hj, heq, hsent j tokens hj hs⟩
    · refine (hnew q e token hl htoken).1.imp_right fun ⟨j, tokens, hj, hrest⟩ => ?_
      exact ⟨j, tokens, answered_step l hj, hrest⟩
  · rcases cameWith_step l hi with hi | ⟨q, e, hl, hlen, htoken⟩ <;>
      rcases cameWith_step l hj with hj | ⟨q', e', hl', hlen', htoken'⟩
    · exact h.once i j token hi hj
    · exact absurd hi ((hnew q' e' token hl' htoken').2 i)
    · exact absurd hj ((hnew q e token hl htoken).2 j)
    · exact hlen.trans hlen'.symm

/-- The loop goes on without a new request at the service. -/
structure Loop.Stays (L L' : Loop) : Prop where
  asked : L'.asked = L.asked
  sent : ∀ i, L'.sent = some i → L.sent = some i

theorem Loop.Stays.refl (L : Loop) : L.Stays L := ⟨rfl, fun _ hi => hi⟩

theorem turn_stays (L : Loop) : L.Stays L.turn := by
  unfold Loop.turn
  split
  · exact ⟨rfl, fun _ hi => hi⟩
  · exact .refl L

theorem pass_stays (sessions : List PendingSession) (L : Loop) : L.Stays (L.pass sessions) := by
  unfold Loop.pass
  split
  · exact ⟨rfl, fun _ hi => hi⟩
  · exact ⟨rfl, fun _ hi => hi⟩
  · exact .refl L

theorem answer_stays (r : Except Unit TokenPair) (L : Loop) : L.Stays (L.answer r) := by
  cases r with
  | error _ =>
    show L.Stays L.fail
    unfold Loop.fail
    split
    · exact ⟨rfl, fun i hi => by cases hi⟩
    · exact .refl L
  | ok tokens =>
    show L.Stays (L.receive tokens)
    unfold Loop.receive
    split
    · exact ⟨rfl, fun i hi => by cases hi⟩
    · exact ⟨rfl, fun i hi => by cases hi⟩
    · exact .refl L

/-- Loops go on, and the service does not. -/
theorem Inv.update (h : Inv s db old w) {loops : List Loop}
    (hloops : ∀ (n : ℕ) L', loops[n]? = some L' →
      ∃ L, w.loops[n]? = some L ∧ L.Stays L' ∧ ∃ x, Keeps w.auth x L') : Inv s db old { w with loops } := by
  refine ⟨h.run, fun i token hi => ?_, h.once, fun n L hn => ?_, fun n m L M i hn hm hi hi' => ?_⟩
  · refine (h.came i token hi).imp_right fun ⟨j, tokens, hj, heq, hs⟩ => ⟨j, tokens, hj, heq, fun n L' hn hs' => ?_⟩
    obtain ⟨L, hL, hstays, -⟩ := hloops n L' hn
    exact hs n L hL (hstays.sent j hs')
  · obtain ⟨-, -, -, hx⟩ := hloops n L hn
    exact hx
  · obtain ⟨L₀, hL, hstays, -⟩ := hloops n L hn
    obtain ⟨M₀, hM, hstays', -⟩ := hloops m M hm
    exact h.apart n m L₀ M₀ i hL hM (hstays.asked ▸ hi) (hstays'.asked ▸ hi')

/-- One loop goes on. -/
theorem Inv.modify (h : Inv s db old w) {n : ℕ} {f : Loop → Loop}
    (hf : ∀ L, w.loops[n]? = some L → L.Stays (f L) ∧ ∃ x, Keeps w.auth x (f L)) :
    Inv s db old { w with loops := w.loops.modify n f } := by
  refine h.update fun m L' hm => ?_
  rw [List.getElem?_modify] at hm
  obtain ⟨L, hL, heq⟩ := Option.map_eq_some_iff.1 hm
  split_ifs at heq with hnm
  · subst hnm heq
    exact ⟨L, hL, hf L hL⟩
  · obtain rfl : L = L' := heq
    exact ⟨L, hL, .refl L, h.loops m L hL⟩

section Laws
variable (hlib : JwtLaws s.jwt.lib) (hdb : Accounts s.citext db) (hold : Outstanding s db old)
include hlib hdb

theorem Inv.origin_unique (h : Inv s db old w) {i j : ℕ} {tokens tokens' : Auth.Tokens}
    (hi : Answered w.auth i tokens) (hj : Answered w.auth j tokens')
    (heq : tokens.refreshToken = tokens'.refreshToken) : i = j := by
  obtain ⟨l, hl⟩ := h.run
  rw [hl] at hi hj
  exact hi.refreshToken_inj hlib hdb hj heq

include hold in
omit hdb in
theorem Inv.not_old (h : Inv s db old w) {i : ℕ} {tokens : Auth.Tokens} (hi : Answered w.auth i tokens) :
    ¬ old tokens.refreshToken := by
  obtain ⟨l, hl⟩ := h.run
  rw [hl] at hi
  exact hi.not_old hlib hold

include hold

/-- The service goes on, or another client comes to it. -/
theorem Inv.auth (h : Inv s db old w) (l : Auth.Step) (hl : Orderly old w (.auth l)) :
    Inv s db old ⟨(Auth.system s).step w.auth l, w.loops⟩ := by
  refine h.service l (fun q e token hq htoken => ?_) (fun j tokens hj hs => hs) (fun n L hn => ?_) h.apart
  · refine ⟨(hl.others q e token (by rw [hq]) htoken).1.imp_right ?_, (hl.others q e token (by rw [hq]) htoken).2⟩
    rintro ⟨j, tokens, hj, heq, hasked⟩
    refine ⟨j, tokens, hj, heq, fun n L hn hs => hasked L (List.mem_of_getElem? hn) ?_⟩
    obtain ⟨x, hx⟩ := h.loops n L hn
    exact hx.sent j hs
  · obtain ⟨x, hx⟩ := h.loops n L hn
    refine ⟨x, hx.later (length_step l) (fun i tokens hi => answered_step l hi) fun i t ht hcame => ?_⟩
    rcases cameWith_step l hcame with hcame | ⟨q, e, hq, -, htoken⟩
    · exact hcame
    · -- what another client comes with is not what the loop holds
      obtain ⟨j, tokens, hj, heq, hasked, -⟩ := hx.origin ht
      rcases (hl.others q e _ (by rw [hq]) htoken).1 with ho | ⟨j', tokens', hj', heq', hother⟩
      · exact absurd (heq ▸ ho) (h.not_old hlib hold hj)
      · obtain rfl := h.origin_unique hlib hdb hj hj' (heq.trans heq'.symm)
        exact absurd hasked (hother L (List.mem_of_getElem? hn))

omit hold in
/-- A request of a loop reaches the service. -/
theorem Inv.reaches (h : Inv s db old w) {n : ℕ} {L : Loop} (hn : w.loops[n]? = some L) {md : Auth.Metadata}
    {q : Auth.Request} (hq : L.request md = some q) (e : Auth.Env) :
    Inv s db old
      { auth := (Auth.system s).step w.auth (.spawn q e)
        loops := w.loops.set n
          { L with
            sent := some w.auth.threads.length
            asked := w.auth.threads.length :: L.asked
            presented := L.presented || q.token.isSome } } := by
  obtain ⟨x, hx⟩ := h.loops n L hn
  obtain ⟨hsent, htask⟩ := request_cases hq
  -- the token it comes with is the one the loop holds
  have hcomes {token : String} (htoken : q.token = some token) :
      ∃ t, x = .holds t ∧ t.refreshToken = token ∧ L.presented = false := by
    rcases htask with hnone | ⟨refreshToken, hpend, hsome⟩
    · rw [hnone] at htoken
      cases htoken
    · obtain ⟨t, rfl, ht⟩ := hx.exchanges hpend
      refine ⟨t, rfl, ht.trans (Option.some.inj (hsome.symm.trans htoken)), Bool.not_eq_true _ ▸ fun hp => ?_⟩
      obtain ⟨t', hlost⟩ | ⟨hsome, -⟩ := hx.spent hp
      · cases hlost
      · rw [hsent] at hsome
        cases hsome
  have hother {m : ℕ} {M : Loop} (hm : w.loops[m]? = some M) (hne : n ≠ m) {j : ℕ} (hj : j ∈ L.asked) : j ∉ M.asked :=
    fun hj' => hne (h.apart n m L M j hn hm hj hj')
  refine h.service _ (fun q' e' token hl htoken => ?_) (fun j tokens hj hs m M hm => ?_) (fun m M hm => ?_) ?_
  · cases hl
    obtain ⟨t, rfl, rfl, hp⟩ := hcomes htoken
    refine ⟨.inr ?_, hx.unused hp t rfl⟩
    obtain ⟨j, tokens, hj, heq, hasked, -⟩ := hx.origin rfl
    refine ⟨j, tokens, hj, heq, fun m M hm hs => ?_⟩
    rcases set_cases hm with ⟨rfl, rfl⟩ | ⟨hne, hm⟩
    · exact (answered_lt hj).ne (Option.some.inj hs).symm
    · obtain ⟨y, hy⟩ := h.loops m M hm
      exact hother hm hne hasked (hy.sent j hs)
  · rcases set_cases hm with ⟨rfl, rfl⟩ | ⟨-, hm⟩
    · exact fun hs' => (answered_lt hj).ne (Option.some.inj hs').symm
    · exact hs m M hm
  · rcases set_cases hm with ⟨rfl, rfl⟩ | ⟨hne, hm⟩
    · exact ⟨x, hx.send hq e⟩
    · obtain ⟨y, hy⟩ := h.loops m M hm
      refine ⟨y, hy.later (length_step _) (fun i tokens hi => answered_step _ hi) fun i t ht hcame => ?_⟩
      rcases cameWith_step _ hcame with hcame | ⟨q', e', hl, -, htoken⟩
      · exact hcame
      · cases hl
        obtain ⟨t', rfl, heq, -⟩ := hcomes htoken
        obtain ⟨j, tokens, hj, htokens, hasked, -⟩ := hx.origin rfl
        obtain ⟨j', tokens', hj', htokens', hasked', -⟩ := hy.origin ht
        obtain rfl := h.origin_unique hlib hdb hj hj' ((htokens.trans heq).trans htokens'.symm)
        exact absurd hasked' (hother hm hne hasked)
  · have hfresh {m : ℕ} {M : Loop} (hm : w.loops[m]? = some M) : w.auth.threads.length ∉ M.asked := fun hi => by
      obtain ⟨y, hy⟩ := h.loops m M hm
      exact Nat.lt_irrefl _ (hy.asked _ hi)
    intro m m' M M' i hm hm' hi hi'
    rcases set_cases hm with ⟨rfl, rfl⟩ | ⟨hne, hm⟩ <;> rcases set_cases hm' with ⟨rfl, rfl⟩ | ⟨hne', hm'⟩
    · rfl
    · rcases List.mem_cons.1 hi with rfl | hi
      · exact absurd hi' (hfresh hm')
      · exact h.apart _ _ L M' i hn hm' hi hi'
    · rcases List.mem_cons.1 hi' with rfl | hi'
      · exact absurd hi (hfresh hm)
      · exact h.apart _ _ M L i hm hn hi hi'
    · exact h.apart m m' M M' i hm hm' hi hi'

/-- An answer reaches a loop. -/
theorem Inv.answers (h : Inv s db old w) {n : ℕ} (ho : Orderly old w (.answers n)) {L : Loop}
    (hn : w.loops[n]? = some L) {r : Except Unit TokenPair} (hr : w.reply L = some r) :
    ∃ x, Keeps w.auth x (L.answer r) := by
  obtain ⟨x, hx⟩ := h.loops n L hn
  cases r with
  | error e =>
    exact hx.fail fun email password hpend => ho.login n L email password ⟨rfl, L, hn, hr⟩ hn hpend
  | ok tokens =>
    obtain ⟨i, hsent, hr⟩ := Option.bind_eq_some_iff.1 hr
    obtain ⟨⟨q, p⟩, hi, hp⟩ := Option.bind_eq_some_iff.1 hr
    replace hp : outcome p = some (.ok tokens) := hp
    unfold outcome at hp
    split at hp
    · next tokens' =>
      obtain rfl := Except.ok.inj (Option.some.inj hp)
      have hanswered : Answered w.auth i tokens' := ⟨q, hi⟩
      refine hx.receive hsent hanswered fun j hj => ?_
      -- whoever came with it would have received it before
      rcases h.came j _ hj with hold' | ⟨i', tokens'', hi', heq, hs⟩
      · exact h.not_old hlib hold hanswered hold'
      · obtain rfl := h.origin_unique hlib hdb hi' hanswered heq
        exact hs n L hn hsent
    · cases hp
    · cases hp

theorem inv_step (h : Inv s db old w) (x : Step) (hx : Orderly old w x) : Inv s db old (w.step s x) := by
  cases x with
  | auth l => exact h.auth hlib hdb hold l hx
  | launch kind creds deviceID =>
    have hcases {n : ℕ} {L : Loop} (hn : (w.loops ++ [.start kind creds deviceID])[n]? = some L) :
        w.loops[n]? = some L ∨ n = w.loops.length ∧ L = .start kind creds deviceID := getElem?_concat_cases hn
    refine ⟨h.run, fun i token hi => ?_, h.once, fun n L hn => ?_, fun n m L M i hn hm hi hi' => ?_⟩
    · refine (h.came i token hi).imp_right fun ⟨j, tokens, hj, heq, hs⟩ => ⟨j, tokens, hj, heq, fun n L hn => ?_⟩
      rcases hcases hn with hn | ⟨-, rfl⟩
      · exact hs n L hn
      · exact fun hs' => by cases hs'
    · rcases hcases hn with hn | ⟨-, rfl⟩
      · exact h.loops n L hn
      · exact ⟨_, keeps_start w.auth kind creds deviceID⟩
    · rcases hcases hn with hn | ⟨-, rfl⟩ <;> rcases hcases hm with hm | ⟨-, rfl⟩
      · exact h.apart n m L M i hn hm hi hi'
      · cases hi'
      · cases hi
      · cases hi
  | turn n =>
    refine h.modify fun L hn => ⟨turn_stays L, ?_⟩
    obtain ⟨x, hx⟩ := h.loops n L hn
    exact ⟨x, hx.turn⟩
  | passes n sessions =>
    refine h.modify fun L hn => ⟨pass_stays sessions L, ?_⟩
    obtain ⟨x, hx⟩ := h.loops n L hn
    exact ⟨x, hx.pass sessions⟩
  | fails n =>
    refine h.modify fun L hn => ⟨answer_stays (.error ()) L, ?_⟩
    obtain ⟨x, hkeeps⟩ := h.loops n L hn
    exact hkeeps.fail fun email password hpend => hx.login n L email password rfl hn hpend
  | reaches n md e =>
    dsimp only [World.step]
    split
    · exact h
    · next L q heq =>
      obtain ⟨L', hn, hq⟩ := Option.bind_eq_some_iff.1 heq
      obtain ⟨q', hq', hpair⟩ := Option.map_eq_some_iff.1 hq
      cases hpair
      exact h.reaches hlib hdb hn hq' e
  | answers n =>
    dsimp only [World.step]
    split
    · exact h
    · next L' heq =>
      obtain ⟨L, hn, hr⟩ := Option.bind_eq_some_iff.1 heq
      obtain ⟨r, hreply, rfl⟩ := Option.map_eq_some_iff.1 hr
      refine h.update fun m M hm => ?_
      rcases set_cases hm with ⟨rfl, rfl⟩ | ⟨-, hm⟩
      · exact ⟨L, hn, answer_stays r L, h.answers hlib hdb hold hx hn hreply⟩
      · exact ⟨M, hm, .refl M, h.loops m M hm⟩

theorem inv_run {l : List Step} (hl : Run.Guarded (World.step s) (Orderly old) ⟨⟨db, []⟩, []⟩ l) :
    Inv s db old (Run.exec (World.step s) ⟨⟨db, []⟩, []⟩ l) := by
  refine hl.invariant (I := Inv s db old) (fun w x h hx => inv_step hlib hdb hold h x hx) ?_
  refine ⟨⟨[], rfl⟩, ?_, ?_, fun n L hn => (by cases hn), fun n m L M i hn => (by cases hn)⟩
  · rintro i token ⟨t, hi, -⟩
    cases hi
  · rintro i j token ⟨t, hi, -⟩
    cases hi

end Laws

end Run

/-- **In every run in which no login of a loop fails after its refresh token has reached the service in vain, and other
clients present each token they have once, no request comes to revoke the tokens of any user, and the row of a
refresh token that a loop is about to send is in the table and not revoked.** -/
theorem agents_stay (s : Auth.Service) (hlib : JwtLaws s.jwt.lib) (db : AuthDb) (hdb : Accounts s.citext db)
    (old : String → Prop) (hold : Outstanding s db old) (l : List Step)
    (hl : Run.Guarded (World.step s) (Orderly old) ⟨⟨db, []⟩, []⟩ l) :
    (∀ (i : ℕ) q p userID, (Run.exec (World.step s) ⟨⟨db, []⟩, []⟩ l).auth.threads[i]? = some ⟨q, p⟩ →
      ¬ Alarmed userID p) ∧
    ∀ (n : ℕ) L refreshToken, (Run.exec (World.step s) ⟨⟨db, []⟩, []⟩ l).loops[n]? = some L →
      L.task.pending = some (.refresh refreshToken) → L.sent = none →
      ∃ t ∈ (Run.exec (World.step s) ⟨⟨db, []⟩, []⟩ l).auth.store.refreshTokens,
        Names s refreshToken t.id ∧ t.revokedAt = none := by
  have hinv := inv_run hlib hdb hold hl
  have hhonest := hinv.honest
  obtain ⟨l', hrun⟩ := hinv.run
  generalize Run.exec (World.step s) ⟨⟨db, []⟩, []⟩ l = w at hinv hhonest hrun
  refine ⟨fun i q p userID hi => ?_, fun n L refreshToken hn hpend hsent => ?_⟩
  · rw [hrun] at hi hhonest
    exact (hhonest.calm hlib hdb hold).silent i q p hi
  · obtain ⟨x, hx⟩ := hinv.loops n L hn
    obtain ⟨t, rfl, rfl⟩ := hx.exchanges hpend
    obtain ⟨j, tokens, hj, heq, -, -⟩ := hx.origin rfl
    have hunused : ∀ i, ¬ CameWith w.auth i tokens.refreshToken := by
      rw [heq]
      refine hx.unused (Bool.not_eq_true _ ▸ fun hp => ?_) t rfl
      obtain ⟨t', hlost⟩ | ⟨hsome, -⟩ := hx.spent hp
      · cases hlost
      · rw [hsent] at hsome
        cases hsome
    rw [hrun] at hj hunused hhonest ⊢
    obtain ⟨row, hrow, hnames, -, hlive⟩ := hhonest.unrevoked hlib hdb hold hj hunused
    exact ⟨row, hrow, heq ▸ hnames, hlive⟩

/-! ### An outage -/

/-- An account that nobody has logged in to. -/
def accountDb : AuthDb :=
  ⟨[{ id := "u1", email := "a@b.cd", passwordHash := some "saltcorrect horse", displayName := "A", emailVerified := false
      isActive := true, createdAt := 0, updatedAt := 0 }], [], []⟩

theorem accountDb_accounts : Accounts id accountDb where
  users := by decide
  emails := by decide
  identities := List.nodup_nil
  linked := fun _ h => absurd h List.not_mem_nil
  tokens := List.nodup_nil
  hashes := List.nodup_nil
  owned := fun _ h => absurd h List.not_mem_nil
  chained := fun _ h => absurd h List.not_mem_nil

def served (i : ℕ) (uuid : String) : Step := .auth (.advance i (Auth.goes uuid))

def sent : Step := .reaches 0 ⟨"", ""⟩ (Auth.goes "")

/-- A heartbeat loop logs in, and its first heartbeat fails. -/
def firstBeat : List Step :=
  [.launch .heartbeat ⟨"a@b.cd", "correct horse"⟩ "d1", sent, served 0 "t1", served 0 "", .answers 0, .turn 0, .fails 0]

/-- The answer to the refresh is lost, the login fails too, and the next heartbeat fails. -/
def outage : List Step :=
  firstBeat ++ [sent, served 1 "", served 1 "t2", served 1 "", served 1 "", .fails 0, .fails 0, .turn 0, .fails 0, sent,
    served 2 ""]

/-- After an outage all tokens of the user are revoked. -/
theorem outage_alarms :
    (Run.exec (World.step Auth.sampleService) ⟨⟨accountDb, []⟩, []⟩ outage).auth.threads.map (fun t => t.prog.pending) =
      [none, none, some (.revokeAllForUser "u1")] := by
  decide +kernel

/-- A step in which no other client comes and no call fails. -/
theorem orderly_of {old : String → Prop} {w : World} {x : Step} (hspawn : ∀ q e, x ≠ .auth (.spawn q e))
    (hfails : ∀ n L email password, Failing w n x → w.loops[n]? = some L →
      L.task.pending ≠ some (.login email password)) : Orderly old w x where
  others := fun q e _ hx _ => absurd hx (hspawn q e)
  login := fun n L email password hf hn hpend => absurd hpend (hfails n L email password hf hn)

theorem firstBeat_orderly :
    Run.Guarded (World.step Auth.pairService) (Orderly fun _ => False) ⟨⟨accountDb, []⟩, []⟩ firstBeat := by
  refine ⟨?_, ?_, ?_, ?_, ?_, ?_, ?_, trivial⟩
  · exact orderly_of (fun q e hx => by cases hx) fun n L email password hf => hf.elim
  · exact orderly_of (fun q e hx => by cases hx) fun n L email password hf => hf.elim
  · exact orderly_of (fun q e hx => by cases hx) fun n L email password hf => hf.elim
  · exact orderly_of (fun q e hx => by cases hx) fun n L email password hf => hf.elim
  · refine orderly_of (fun q e hx => by cases hx) ?_
    rintro n L email password ⟨rfl, L', hL, hr⟩ -
    have hok : ((Run.exec (World.step Auth.pairService) ⟨⟨accountDb, []⟩, []⟩ (firstBeat.take 4)).loops[0]?.map fun L =>
        (Run.exec (World.step Auth.pairService) ⟨⟨accountDb, []⟩, []⟩ (firstBeat.take 4)).reply L) =
        some (some (.ok ⟨Auth.accessText, Auth.refreshText⟩)) := by decide +kernel
    rw [show (Run.exec (World.step Auth.pairService) ⟨⟨accountDb, []⟩, []⟩ (firstBeat.take 4)).loops[0]? = some L' from hL]
      at hok
    cases hr.symm.trans (Option.some.inj hok)
  · exact orderly_of (fun q e hx => by cases hx) fun n L email password hf => hf.elim
  · refine orderly_of (fun q e hx => by cases hx) ?_
    rintro n L email password rfl hL hpend
    have hbeat : ((Run.exec (World.step Auth.pairService) ⟨⟨accountDb, []⟩, []⟩ (firstBeat.take 6)).loops[0]?.map fun L =>
        L.task.pending) = some (some (.heartbeat Auth.accessText "d1")) := by decide +kernel
    rw [show (Run.exec (World.step Auth.pairService) ⟨⟨accountDb, []⟩, []⟩ (firstBeat.take 6)).loops[0]? = some L from hL]
      at hbeat
    cases hpend.symm.trans (Option.some.inj hbeat)

/-- The loop is about to exchange its first token, which is good. -/
theorem firstBeat_stays :
    ((Run.exec (World.step Auth.pairService) ⟨⟨accountDb, []⟩, []⟩ firstBeat).loops[0]?.map fun L =>
      (L.task.pending, L.sent)) = some (some (.refresh Auth.refreshText), none) ∧
    ∃ t ∈ (Run.exec (World.step Auth.pairService) ⟨⟨accountDb, []⟩, []⟩ firstBeat).auth.store.refreshTokens,
      Names Auth.pairService Auth.refreshText t.id ∧ t.revokedAt = none := by
  have hpending : ((Run.exec (World.step Auth.pairService) ⟨⟨accountDb, []⟩, []⟩ firstBeat).loops[0]?.map fun L =>
      (L.task.pending, L.sent)) = some (some (.refresh Auth.refreshText), none) := by decide +kernel
  refine ⟨hpending, ?_⟩
  obtain ⟨L, hL, hp⟩ := Option.map_eq_some_iff.1 hpending
  exact (agents_stay Auth.pairService Auth.pairLib_laws accountDb accountDb_accounts (fun _ => False)
    ⟨fun _ h => h.elim, fun _ _ _ h => h.elim⟩ firstBeat firstBeat_orderly).2 0 L _ hL (congrArg Prod.fst hp)
    (congrArg Prod.snd hp)

end DeskSync.Agent.Tokens
