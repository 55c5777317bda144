import DeskSync.Lib.Expand
import DeskSync.Fleet.SingleUse

/-!
# The lifetime of an attempt counter

`RecordFailedAttempt` sends up to three commands: `INCR`, then `TTL` of the challenge, then `EXPIRE` with that
lifetime, if there is one. Here each of them is a step of its own. Once the challenge has gone between the
comparison and `INCR`, the counter is created anew and never gets a deadline (`counter_without_deadline`); and
`EXPIRE` sets what `TTL` has rounded to whole seconds, some time after it was read.

`countersSettle` is the condition: where no other `Confirm` of the challenge tends its counter, and the deletion
after the last attempt does not follow either, no command on the counter goes wrong. What is kept is that every
counter is in line, or some `Confirm` of its challenge still tends it (`Tended`); the condition is exact for that
(`tended_iff`). When no `Confirm` is in progress, nobody tends, so every counter is in line
(`countersInLine_of_countersSettle`).
-/

namespace DeskSync.Fleet.Counters

open Backend Proc Elements
open Proc.Prog (perform)

/-! ### Commands -/

/-- A command of `RecordFailedAttempt`, or any other call of a port. `Save` and `Consume` are a command each. -/
inductive Command where
  | call (c : Cmd)
  | incr (pairingID : String)
  | ttl (pairingID : String)
  | expire (pairingID : String) (seconds : ℕ)
  deriving DecidableEq, Repr

abbrev Command.Res : Command → Type
  | .call c => c.Res
  | .incr _ | .ttl _ => ℕ
  | .expire _ _ => Unit

abbrev Reply (c : Command) : Type := Except RepoError c.Res × Here

def incr (id : String) (r : Redis) : Except RepoError ℕ × Redis :=
  (.ok (RedisStore.incr id r).count,
    { r with attempts := Function.update r.attempts id (some (RedisStore.incr id r)) })

def ttl (id : String) (r : Redis) : Except RepoError ℕ × Redis := (.ok (RedisStore.ttlSeconds id r), r)

/-- `EXPIRE` does nothing to a missing counter. -/
def expire (id : String) (seconds : ℕ) (r : Redis) : Except RepoError Unit × Redis :=
  (.ok (), match r.counter id with
    | none => r
    | some c =>
      { r with attempts := Function.update r.attempts id (some { c with expireAt := some (r.now + seconds * 1000) }) })

def Command.effect (e : Env) : (c : Command) → Cloud → Except RepoError c.Res × Cloud
  | .call c => c.effect e
  | .incr id => onRedis (Counters.incr id)
  | .ttl id => onRedis (Counters.ttl id)
  | .expire id seconds => onRedis (Counters.expire id seconds)

def exec (e : Env) (c : Command) (s : Cloud) : Reply c × Cloud :=
  let out := e.fault.apply RepoError.other (c.effect e) s
  ((out.1, e.here), out.2)

/-- The error of `TTL` ends the mirroring, and that of `EXPIRE` is dropped. -/
def recordFailedAttempt (pairingID : String) : Prog Reply (Fleet.Reply (.recordFailedAttempt pairingID)) := do
  let (n, here) ← perform (Command.incr pairingID)
  match n with
  | .error e => return (.error e, here)
  | .ok n =>
    let (ttl, _) ← perform (Command.ttl pairingID)
    match ttl with
    | .error _ => return (.ok n, here)
    | .ok ttl =>
      if 0 < ttl then
        let _ ← perform (Command.expire pairingID ttl)
        return (.ok n, here)
      else return (.ok n, here)

/-- The commands of a call. -/
def ofCmd : (c : Cmd) → Prog Reply (Fleet.Reply c)
  | .recordFailedAttempt id => recordFailedAttempt id
  | c => perform (Command.call c)

/-- Any number of requests in flight, each over its commands. -/
def system (s : Services) : System Cloud Request Reply Response Env Tick where
  start q _ := (q.start s).expand ofCmd
  exec := exec
  env d w := { w with redis := w.redis.tick d }

abbrev World := Pool Cloud Request Reply Response

/-! ### Counters -/

section Redis
variable (r : Redis) (id x : String)

/-- A new counter has no deadline, and an old one keeps its own. -/
theorem incr_live : (RedisStore.incr id r).expireAt.all (r.now ≤ ·) = true := by
  unfold RedisStore.incr Redis.counter
  cases hc : r.attempts id with
  | none => rfl
  | some c =>
    cases hlive : c.expireAt.all (r.now ≤ ·) with
    | false => simp [Option.filter, hlive]
    | true => simp [Option.filter, hlive]

theorem counter_incr : (incr id r).2.counter x = if x = id then some (RedisStore.incr id r) else r.counter x := by
  by_cases h : x = id
  · subst h
    simp only [incr, Redis.counter, Function.update_self, Option.filter, if_true]
    exact if_pos (incr_live r x)
  · simp only [incr, Redis.counter, Function.update_of_ne h, if_neg h]
    rfl

theorem counter_expire (seconds : ℕ) :
    (expire id seconds r).2.counter x =
      if x = id then (r.counter id).map fun c => { c with expireAt := some (r.now + seconds * 1000) }
      else r.counter x := by
  unfold expire
  cases hc : r.counter id with
  | none =>
    by_cases h : x = id
    · rw [if_pos h, h]
      exact hc
    · rw [if_neg h]
  | some c =>
    by_cases h : x = id
    · simp [Redis.counter, Option.filter, h]
    · simp [Redis.counter, h]

theorem stored_expire (seconds : ℕ) : (expire id seconds r).2.stored x = r.stored x := by
  unfold expire
  cases r.counter id <;> rfl

theorem counter_save (ch : Challenge) (ttl : Time) :
    (RedisStore.save ch ttl r).2.counter x = if x = ch.pairingID then none else r.counter x := by
  by_cases h : x = ch.pairingID
  · simp [RedisStore.save, Redis.counter, h]
  · simp only [RedisStore.save, Redis.counter, Function.update_of_ne h, if_neg h]
    rfl

theorem counter_consume :
    (RedisStore.consume id r).2.counter x = if x = id then none else r.counter x := by
  by_cases h : x = id
  · simp [RedisStore.consume, Redis.counter, h]
  · simp only [RedisStore.consume, Redis.counter, Function.update_of_ne h, if_neg h]
    rfl

end Redis

/-- Where no time passes and no command fails, `RecordFailedAttempt` alone is the call it is elsewhere. -/
theorem run_ofCmd {e : Env} (he : e.fault = .none) (c : Cmd) (w : Cloud) :
    (ofCmd c).run exec (fun _ => e) w = Fleet.exec e c w := by
  cases c with
  | recordFailedAttempt id =>
    have hcounter := counter_incr w.redis id id
    rw [if_pos rfl] at hcounter
    have hlive : ({ w.redis with attempts := Function.update w.redis.attempts id (some (RedisStore.incr id w.redis)) } :
        Redis).counter id = some (RedisStore.incr id w.redis) := hcounter
    have httl : RedisStore.ttlSeconds id
        { w.redis with attempts := Function.update w.redis.attempts id (some (RedisStore.incr id w.redis)) } =
          RedisStore.ttlSeconds id w.redis := rfl
    simp only [ofCmd, recordFailedAttempt, Prog.perform_bind, Prog.run_call, exec, he, Fault.apply, Command.effect,
      onRedis, Counters.incr, Counters.ttl, Fleet.exec, Cmd.effect, RedisStore.recordFailedAttempt, httl]
    by_cases hpos : 0 < RedisStore.ttlSeconds id w.redis
    · simp only [if_pos hpos, Prog.run_call, Prog.pure_eq, Prog.run_ret, exec, he, Fault.apply, Command.effect,
        onRedis, Counters.expire, hlive, Function.update_idem]
    · simp only [if_neg hpos, Prog.pure_eq, Prog.run_ret]
  | _ => rfl

/-- A request that runs alone does what it does when `RecordFailedAttempt` is one call. -/
theorem run_start (s : Services) {e : Env} (he : e.fault = .none) (q : Request) (w : Cloud) :
    ((q.start s).expand ofCmd).run exec (fun _ => e) w = (q.start s).run Fleet.exec (fun _ => e) w :=
  Prog.run_expand (fun c s => run_ofCmd he c s) _ w

/-! ### The condition -/

/-- Every counter carries a deadline, no later than that of its challenge, which exists. -/
def CountersInLine (r : Redis) : Prop :=
  ∀ x c, r.counter x = some c →
    ∃ st, r.stored x = some st ∧ ∃ deadline, c.expireAt = some deadline ∧ deadline ≤ st.expireAt

/-- The same for one id. -/
def inLine (r : Redis) (x : String) : Bool :=
  (r.counter x).all fun c => (r.stored x).any fun st => c.expireAt.any (· ≤ st.expireAt)

/-- The command the thread, a `Confirm`, is about to send is one that may put the counter in line, or delete it. -/
def tends (x : String) : Thread Request Reply Response → Bool
  | ⟨.confirm _ _ _ _, .call (.ttl y) _⟩ => y == x
  | ⟨.confirm _ _ _ _, .call (.expire y _) _⟩ => y == x
  | ⟨.confirm _ _ _ _, .call (.call (.consume y)) _⟩ => y == x
  | _ => false

def failed (c : Command) : Reply c := (.error .other, ⟨0, "", fun _ => none⟩)

/-- The request has counted the last attempt: the deletion of the challenge follows even if its command on the
counter fails. -/
def lastAttempt (x : String) : Thread Request Reply Response → Bool
  | ⟨.confirm _ _ _ _, .call (.ttl y) k⟩ => (k (failed (.ttl y))).pending == some (.call (.consume x))
  | ⟨.confirm _ _ _ _, .call (.expire y seconds) k⟩ =>
    (k (failed (.expire y seconds))).pending == some (.call (.consume x))
  | _ => false

/-- The command goes well: `INCR` is answered if it makes a counter; `TTL` goes through and finds half a second left;
`EXPIRE` finds no counter, or the challenge with at least the lifetime left that it sets; the deletion is not lost.
A counter in line already survives a `TTL`, and a command that is lost. -/
def goesWell (e : Env) (r : Redis) (x : String) : Command → Bool
  | .incr _ => e.fault != .replyLost || (r.counter x).isSome
  | .ttl _ => e.fault == .none && decide (0 < RedisStore.ttlSeconds x r) || inLine r x
  | .expire _ seconds =>
    if e.fault = .lost then inLine r x
    else (r.counter x).isNone || (r.stored x).any fun st => r.now + seconds * 1000 ≤ st.expireAt
  | .call (.consume _) => e.fault != .lost || inLine r x
  | _ => true

/-- A command of a `Confirm` goes well, unless another `Confirm` tends the counter, or the deletion follows. -/
def countersSettle (w : World) : Step → Bool
  | .advance i e =>
    match w.threads[i]? with
    | some ⟨.confirm userID x code mobile, .call c k⟩ =>
      (w.threads.eraseIdx i).any (tends x) || lastAttempt x ⟨.confirm userID x code mobile, .call c k⟩ ||
        goesWell e w.store.redis x c
    | _ => true
  | _ => true

/-- A `Confirm` that has not returned. -/
def confirming : Thread Request Reply Response → Bool
  | ⟨.confirm _ _ _ _, .call _ _⟩ => true
  | _ => false

/-- No `Confirm` is in progress. -/
def Quiet (w : World) : Prop := w.threads.any confirming = false

/-! ### Which commands a request sends -/

def mayCommand (q : Request) : Command → Prop
  | .call c => q.mayCall c ∧ ∀ id, c ≠ .recordFailedAttempt id
  | .incr id | .ttl id | .expire id _ => q.mayCall (.recordFailedAttempt id)

theorem ofCmd_only {q : Request} {c : Cmd} (h : q.mayCall c) : (ofCmd c).Only (mayCommand q) := by
  cases c with
  | recordFailedAttempt id =>
    refine ⟨h, ?_⟩
    rintro ⟨_ | n, here⟩
    · trivial
    · refine ⟨h, ?_⟩
      rintro ⟨_ | ttl, here'⟩
      · trivial
      · dsimp only [Prog.bind]
        split_ifs
        · exact ⟨h, fun _ => trivial⟩
        · trivial
  | _ => exact ⟨⟨h, fun id heq => by cases heq⟩, fun _ => trivial⟩

theorem only_step {s : Services} {w : World} (h : w.All fun q p => p.Only (mayCommand q)) (l : Step) :
    ((system s).step w l).All fun q p => p.Only (mayCommand q) :=
  h.step (fun q _ _ => (start_only s q).expand fun _ => ofCmd_only) fun _ _ _ _ _ _ _ hp => hp.2 _

/-- A `Confirm` sends its commands on the counter of its own challenge. -/
theorem mayCommand_confirm {q : Request} {x : String} (h : q.mayCall (.recordFailedAttempt x)) :
    ∃ userID code mobile, q = .confirm userID x code mobile := by
  cases q with
  | confirm userID pairingID code mobile => exact ⟨userID, code, mobile, by rw [show x = pairingID from h]⟩
  | _ => exact h.elim

/-! ### What a `Confirm` does after a command -/

/-- The next command after an attempt has been counted and the counter mirrored. -/
def burning (s : Services) (x : String) (n : ℕ) : Option Command :=
  if s.pairing.maxAttempts ≤ n then some (.call (.consume x)) else none

/-- What comes after a command of a `Confirm`: `TTL` after `INCR` with the count `n`, `EXPIRE` after a positive
lifetime, and then the deletion or nothing. -/
def Leads {α : Type} (s : Services) (x : String) : (c : Command) → (Reply c → Prog Reply α) → Prop
  | .incr _, k => (∀ n here, ∃ k', k (.ok n, here) = .call (.ttl x) k' ∧
      (k' (failed (.ttl x))).pending = burning s x n) ∧ ∀ err here, (k (.error err, here)).pending = none
  | .ttl _, k => ∃ n, (∀ err here, (k (.error err, here)).pending = burning s x n) ∧
      ∀ seconds here, if 0 < seconds then ∃ k', k (.ok seconds, here) = .call (.expire x seconds) k' ∧
        (k' (failed (.expire x seconds))).pending = burning s x n
      else (k (.ok seconds, here)).pending = burning s x n
  | .expire _ _, k => ∃ n, ∀ r, (k r).pending = burning s x n
  | .call (.consume _), k => ∀ r, (k r).pending = none
  | .call _, _ => True

section Leads
variable (s : Services) (userID x code mobile : String)

theorem burn_resumes : ((Response.pairing <$> PairingService.burn x).expand ofCmd).Resumes (Leads s x) :=
  ⟨fun _ => rfl, fun _ => trivial⟩

/-- `Confirm` once a wrong code has been counted. -/
def counted (n : ℕ) : Prog Reply Response :=
  (Response.pairing <$> if s.pairing.maxAttempts ≤ n then PairingService.burn x
    else return PairingService.invalidCode).expand ofCmd

theorem pending_counted (n : ℕ) : (counted s x n).pending = burning s x n := by
  unfold counted burning
  split_ifs <;> rfl

theorem counted_resumes (n : ℕ) : (counted s x n).Resumes (Leads s x) := by
  unfold counted
  split_ifs
  · exact burn_resumes s x
  · trivial

/-- The commands of `Confirm` after a wrong code. -/
theorem recordFailure_eq :
    (Response.pairing <$> s.pairing.recordFailure x).expand ofCmd =
      .call (.incr x) fun
        | (.error _, _) => .ret (.pairing PairingService.invalidCode)
        | (.ok n, _) => .call (.ttl x) fun
          | (.error _, _) => counted s x n
          | (.ok seconds, _) =>
            if 0 < seconds then .call (.expire x seconds) fun _ => counted s x n else counted s x n := by
  refine congrArg (Prog.call (Command.incr x)) (funext ?_)
  rintro ⟨_ | n, here⟩
  · rfl
  refine congrArg (Prog.call (Command.ttl x)) (funext ?_)
  rintro ⟨_ | seconds, here'⟩
  · rfl
  dsimp only [Prog.bind]
  split_ifs <;> rfl

theorem recordFailure_resumes :
    ((Response.pairing <$> s.pairing.recordFailure x).expand ofCmd).Resumes (Leads s x) := by
  rw [recordFailure_eq]
  refine ⟨⟨fun n here => ⟨_, rfl, pending_counted s x n⟩, fun _ _ => rfl⟩, ?_⟩
  rintro ⟨_ | n, here⟩
  · trivial
  refine ⟨⟨n, fun _ _ => pending_counted s x n, fun seconds here' => ?_⟩, ?_⟩
  · split_ifs with hpos
    · exact ⟨_, if_pos hpos, pending_counted s x n⟩
    · exact (congrArg Prog.pending (if_neg hpos)).trans (pending_counted s x n)
  rintro ⟨_ | seconds, here'⟩
  · exact counted_resumes s x n
  dsimp only
  split_ifs
  · exact ⟨⟨n, fun _ => pending_counted s x n⟩, fun _ => counted_resumes s x n⟩
  · exact counted_resumes s x n

theorem establish_resumes (desktop : String) :
    ((Response.pairing <$> PairingService.establish userID x mobile desktop).expand ofCmd).Resumes (Leads s x) := by
  refine ⟨trivial, ?_⟩
  rintro ⟨_ | pairing, here⟩
  · trivial
  · exact ⟨fun _ => rfl, fun _ => trivial⟩

theorem authorize_resumes (desktop : String) :
    ((Response.pairing <$> PairingService.authorize userID x mobile desktop).expand ofCmd).Resumes (Leads s x) := by
  refine ⟨trivial, ?_⟩
  rintro ⟨err | dev, here⟩
  · cases err <;> trivial
  · dsimp only [Prog.bind]
    split_ifs
    · trivial
    · exact establish_resumes s userID x mobile desktop

theorem confirm_resumes :
    (((Request.confirm userID x code mobile).start s).expand ofCmd).Resumes (Leads s x) := by
  show ((Response.pairing <$> s.pairing.confirm userID x code mobile).expand ofCmd).Resumes (Leads s x)
  unfold PairingService.confirm
  generalize (blank x || blank code || blank mobile) = missing
  split_ifs
  · trivial
  · refine ⟨trivial, ?_⟩
    rintro ⟨err | ch, here⟩
    · cases err <;> trivial
    · dsimp only [Prog.bind, PairingService.checkChallenge]
      split_ifs
      · trivial
      · exact burn_resumes s x
      · exact recordFailure_resumes s x
      · exact authorize_resumes s userID x mobile ch.desktopDeviceID

end Leads

/-- What comes after the commands of every `Confirm` in flight. -/
def Led (s : Services) (q : Request) (p : Prog Reply Response) : Prop :=
  ∀ userID x code mobile, q = .confirm userID x code mobile → p.Resumes (Leads s x)

theorem led_step {s : Services} {w : World} (h : w.All (Led s)) (l : Step) : ((system s).step w l).All (Led s) :=
  h.step
    (fun _ _ _ userID x code mobile hq => hq ▸ confirm_resumes s userID x code mobile)
    fun _ _ _ _ _ _ _ hp userID x code mobile hq => (hp userID x code mobile hq).2 _

/-! ### What a command does to the counters -/

section Lines
variable (r : Redis) (id x : String)

theorem countersInLine_iff : CountersInLine r ↔ ∀ x, inLine r x = true := by
  refine forall_congr' fun x => ?_
  simp only [inLine, Option.all_eq_true, Option.any_eq_true, decide_eq_true_eq]

theorem inLine_incr : inLine (incr id r).2 id = ((r.counter id).isSome && inLine r id) := by
  have hstored : (incr id r).2.stored id = r.stored id := rfl
  rw [inLine, counter_incr, if_pos rfl, hstored, Option.all_some]
  unfold RedisStore.incr inLine
  cases hc : r.counter id with
  | none => simp
  | some c => simp

theorem inLine_expire (seconds : ℕ) :
    inLine (expire id seconds r).2 id =
      ((r.counter id).isNone || (r.stored id).any fun st => r.now + seconds * 1000 ≤ st.expireAt) := by
  rw [inLine, counter_expire, if_pos rfl, stored_expire]
  cases r.counter id <;> simp

theorem inLine_consume : inLine (RedisStore.consume id r).2 id = true := by
  rw [inLine, counter_consume, if_pos rfl, Option.all_none]

theorem inLine_save (ch : Challenge) (ttl : Time) : inLine (RedisStore.save ch ttl r).2 ch.pairingID = true := by
  rw [inLine, counter_save, if_pos rfl, Option.all_none]

variable {r id x}

/-- A counter in line lapses before its challenge does. -/
theorem inLine_tick (d : Time) (h : inLine r x = true) : inLine (r.tick d) x = true := by
  simp only [inLine, Option.all_eq_true, Option.any_eq_true, decide_eq_true_eq] at h ⊢
  intro c hc
  obtain ⟨hc, hlive⟩ := Option.filter_eq_some_iff.1 hc
  have hlive : ∀ deadline, c.expireAt = some deadline → r.now + d ≤ deadline := fun deadline hdeadline =>
    of_decide_eq_true ((Option.all_eq_true _ _).1 hlive deadline hdeadline)
  have hold : r.counter x = some c := by
    refine Option.filter_eq_some_iff.2 ⟨hc, (Option.all_eq_true _ _).2 fun deadline hdeadline => ?_⟩
    exact decide_eq_true ((Nat.le_add_right _ d).trans (hlive deadline hdeadline))
  obtain ⟨st, hst, deadline, hdeadline, hle⟩ := h c hold
  obtain ⟨hst, -⟩ := Option.filter_eq_some_iff.1 hst
  refine ⟨st, Option.filter_eq_some_iff.2 ⟨hst, ?_⟩, deadline, hdeadline, hle⟩
  exact decide_eq_true ((hlive deadline hdeadline).trans hle)

end Lines

variable {e : Env} {w : Cloud} {c : Command} {x : String}

theorem exec_lost (h : e.fault = .lost) : (exec e c w).2 = w := by
  simp only [exec, h, Fault.apply]

theorem exec_applied (h : e.fault ≠ .lost) : (exec e c w).2 = (c.effect e w).2 :=
  Fault.apply_applied h

theorem exec_answered (h : e.fault = .none) : (exec e c w).1 = ((c.effect e w).1, e.here) := by
  simp only [exec, h, Fault.apply]

theorem exec_failed (h : e.fault ≠ .none) : (exec e c w).1 = (.error .other, e.here) :=
  congrArg (·, e.here) (Fault.apply_failed h)

/-- The counter of a `Confirm` after its command: `INCR` leaves a deadline as it is and makes none. -/
theorem inLine_own {userID code mobile : String} (h : mayCommand (.confirm userID x code mobile) c) :
    inLine (exec e c w).2.redis x =
      if e.fault = .lost then inLine w.redis x
      else match c with
        | .incr _ => (w.redis.counter x).isSome && inLine w.redis x
        | .expire _ seconds =>
          (w.redis.counter x).isNone || (w.redis.stored x).any fun st => w.redis.now + seconds * 1000 ≤ st.expireAt
        | .call (.consume _) => true
        | _ => inLine w.redis x := by
  split_ifs with hlost
  · rw [exec_lost hlost]
  · rw [exec_applied hlost]
    cases c with
    | incr id =>
      obtain rfl : id = x := h
      exact inLine_incr w.redis id
    | ttl id => rfl
    | expire id seconds =>
      obtain rfl : id = x := h
      exact inLine_expire w.redis id seconds
    | call c =>
      cases c with
      | consume id =>
        obtain rfl : id = x := h.1
        exact inLine_consume w.redis id
      | get id =>
        simp only [Command.effect, Cmd.effect, onRedis, RedisStore.get]
        split <;> rfl
      | deviceForUser _ _ => rfl
      | upsertActivePairing _ _ _ => rfl
      | recordFailedAttempt id => exact absurd rfl (h.2 id)
      | _ => exact h.1.elim

/-- Saving a challenge deletes its counter, and the challenge that is consumed is another one. -/
theorem inLine_call {q : Request} {call : Cmd} (hne : ∀ id, q.mayCall (.recordFailedAttempt id) → x ≠ id)
    (h : mayCommand q (.call call)) (hlost : e.fault ≠ .lost) (hx : inLine w.redis x = true) :
    inLine (call.effect e w).2.redis x = true := by
  rw [← exec_store hlost]
  rcases exec_redis e call w with hr | ⟨-, ⟨ch, ttl, rfl, hr⟩ | ⟨id, rfl, -⟩ | ⟨id, rfl, hr⟩⟩
  · rwa [hr]
  · rw [hr]
    by_cases hch : x = ch.pairingID
    · rw [hch]
      exact inLine_save w.redis ch ttl
    · rw [inLine, counter_save, if_neg hch, stored_save, if_neg hch]
      exact hx
  · exact absurd rfl (h.2 id)
  · have hid : q.mayCall (.recordFailedAttempt id) := by
      cases q with
      | confirm userID pairingID code mobile => exact h.1
      | _ => exact h.1.elim
    rw [hr, inLine, counter_consume, if_neg (hne id hid), stored_consume, if_neg (hne id hid)]
    exact hx

/-- Any other request leaves the counter in line. -/
theorem inLine_others {q : Request} (hq : ∀ userID code mobile, q ≠ .confirm userID x code mobile)
    (h : mayCommand q c) (hx : inLine w.redis x = true) : inLine (exec e c w).2.redis x = true := by
  have hne : ∀ id, q.mayCall (.recordFailedAttempt id) → x ≠ id := by
    rintro id hid rfl
    obtain ⟨userID, code, mobile, heq⟩ := mayCommand_confirm hid
    exact hq userID code mobile heq
  by_cases hlost : e.fault = .lost
  · rwa [exec_lost hlost]
  rw [exec_applied hlost]
  cases c with
  | incr id =>
    show inLine (incr id w.redis).2 x = true
    rw [inLine, counter_incr, if_neg (hne id h)]
    exact hx
  | ttl id => exact hx
  | expire id seconds =>
    show inLine (expire id seconds w.redis).2 x = true
    rw [inLine, counter_expire, if_neg (hne id h), stored_expire]
    exact hx
  | call c => exact inLine_call hne h hlost hx

/-! ### The invariant -/

/-- Every counter is in line, or a `Confirm` of its challenge tends it. -/
def Tended (w : World) : Prop := ∀ x, inLine w.store.redis x = true ∨ w.threads.any (tends x) = true

/-- A request tends the counter of its own challenge. -/
theorem own_of_tends {q : Request} {p : Prog Reply Response} (hp : p.Only (mayCommand q))
    (h : tends x ⟨q, p⟩ = true) : ∃ userID code mobile, q = .confirm userID x code mobile := by
  unfold tends at h
  split at h
  · next heq =>
    cases heq
    obtain rfl := beq_iff_eq.1 h
    exact mayCommand_confirm hp.1
  · next heq =>
    cases heq
    obtain rfl := beq_iff_eq.1 h
    exact mayCommand_confirm hp.1
  · next heq =>
    cases heq
    obtain rfl := beq_iff_eq.1 h
    exact mayCommand_confirm hp.1.1
  · cases h

section Steps
variable {s : Services} {w : World} {i : ℕ} {q : Request} {k : Reply c → Prog Reply Response}

theorem any_tends (hi : w.threads[i]? = some ⟨q, .call c k⟩) (x : String) :
    ((system s).step w (.advance i e)).threads.any (tends x) =
      (tends x ⟨q, k (exec e c w.store).1⟩ || (w.threads.eraseIdx i).any (tends x)) := by
  rw [(system s).step_advance hi e]
  exact any_set (List.getElem?_eq_some_iff.1 hi).1

/-- The counters of other challenges than the request's own. -/
theorem tended_others (hq : ∀ userID code mobile, q ≠ .confirm userID x code mobile)
    (honly : w.All fun q p => p.Only (mayCommand q)) (hi : w.threads[i]? = some ⟨q, .call c k⟩)
    (hx : inLine w.store.redis x = true ∨ w.threads.any (tends x) = true) :
    inLine ((system s).step w (.advance i e)).store.redis x = true ∨
      ((system s).step w (.advance i e)).threads.any (tends x) = true := by
  have hcall := honly i _ _ hi
  rcases hx with hx | hx
  · left
    rw [(system s).step_advance hi e]
    exact inLine_others hq hcall.1 hx
  · right
    rw [any_tends hi]
    rw [any_eraseIdx hi, Bool.or_eq_true] at hx
    rcases hx with hown | hx
    · obtain ⟨userID, code, mobile, heq⟩ := own_of_tends hcall hown
      exact absurd heq (hq userID code mobile)
    · rw [hx, Bool.or_true]

theorem tends_returned {userID code mobile : String} {p : Prog Reply Response} (h : p.pending = none) :
    tends x ⟨.confirm userID x code mobile, p⟩ = false := by
  cases p with
  | ret a => rfl
  | call c k => cases h

/-- After the mirroring, a request tends the counter if it has counted the last attempt. -/
theorem tends_burning {userID code mobile : String} {p : Prog Reply Response} {n : ℕ}
    (h : p.pending = burning s x n) :
    tends x ⟨.confirm userID x code mobile, p⟩ = (burning s x n == some (.call (.consume x))) := by
  unfold burning at h ⊢
  split_ifs at h ⊢ with hlast
  · cases p with
    | ret a => cases h
    | call c k =>
      obtain rfl : c = .call (.consume x) := Option.some.inj h
      simp [tends]
  · exact tends_returned h

section Own
variable {userID code mobile : String}

theorem goesWell_incr {k : Reply (.incr x) → Prog Reply Response} (hled : Leads s x (.incr x) k)
    (hline : inLine w.store.redis x = true) :
    goesWell e w.store.redis x (.incr x) = true ↔
      inLine (exec e (.incr x) w.store).2.redis x = true ∨
        tends x ⟨.confirm userID x code mobile, k (exec e (.incr x) w.store).1⟩ = true := by
  have hown : mayCommand (.confirm userID x code mobile) (.incr x) := rfl
  rw [inLine_own hown]
  cases he : e.fault with
  | none =>
    obtain ⟨k', hk', -⟩ := hled.1 (RedisStore.incr x w.store.redis).count e.here
    have hnext : k (exec e (.incr x) w.store).1 = .call (.ttl x) k' := by
      rw [exec_answered he]
      exact hk'
    simp [goesWell, he, hnext, tends]
  | lost => simp [goesWell, he, hline]
  | replyLost =>
    rw [exec_failed (by simp [he]), tends_returned (hled.2 _ _)]
    simp [goesWell, he, hline]

theorem goesWell_ttl {k : Reply (.ttl x) → Prog Reply Response} (hled : Leads s x (.ttl x) k) :
    (lastAttempt x ⟨.confirm userID x code mobile, .call (.ttl x) k⟩ ||
        goesWell e w.store.redis x (.ttl x)) = true ↔
      inLine (exec e (.ttl x) w.store).2.redis x = true ∨
        tends x ⟨.confirm userID x code mobile, k (exec e (.ttl x) w.store).1⟩ = true := by
  have hown : mayCommand (.confirm userID x code mobile) (.ttl x) := rfl
  obtain ⟨n, hfailed, hmirror⟩ := hled
  have hlast : lastAttempt x ⟨.confirm userID x code mobile, .call (.ttl x) k⟩ =
      (burning s x n == some (.call (.consume x))) :=
    congrArg (· == some (Command.call (.consume x))) (hfailed _ _)
  rw [inLine_own hown, hlast]
  cases he : e.fault with
  | none =>
    have hreply : (exec e (.ttl x) w.store).1 = (.ok (RedisStore.ttlSeconds x w.store.redis), e.here) :=
      exec_answered he
    have hseconds := hmirror (RedisStore.ttlSeconds x w.store.redis) e.here
    rw [hreply]
    split_ifs at hseconds with hpos
    · obtain ⟨k', hk', -⟩ := hseconds
      rw [hk']
      simp [goesWell, he, hpos, tends]
    · rw [tends_burning hseconds]
      simp [goesWell, he, hpos, or_comm]
  | _ =>
    rw [exec_failed (by simp [he]), tends_burning (hfailed _ _)]
    simp [goesWell, he, or_comm]

/-- A command of a `Confirm` whose counter no other one tends: it goes well, or the deletion follows, if and only if
the counter is in line after it or tended by what follows. -/
theorem goesWell_iff (h : mayCommand (.confirm userID x code mobile) c) (hled : Leads s x c k)
    (hx : inLine w.store.redis x = true ∨ tends x ⟨.confirm userID x code mobile, .call c k⟩ = true) :
    (lastAttempt x ⟨.confirm userID x code mobile, .call c k⟩ || goesWell e w.store.redis x c) = true ↔
      inLine (exec e c w.store).2.redis x = true ∨
        tends x ⟨.confirm userID x code mobile, k (exec e c w.store).1⟩ = true := by
  cases c with
  | incr id =>
    obtain rfl : id = x := h
    exact goesWell_incr hled (by simpa [tends] using hx)
  | ttl id =>
    obtain rfl : id = x := h
    exact goesWell_ttl hled
  | expire id seconds =>
    obtain rfl : id = x := h
    obtain ⟨n, hnext⟩ := hled
    have hlast : lastAttempt id ⟨.confirm userID id code mobile, .call (.expire id seconds) k⟩ =
        (burning s id n == some (.call (.consume id))) :=
      congrArg (· == some (Command.call (.consume id))) (hnext _)
    rw [inLine_own (show mayCommand (.confirm userID id code mobile) (.expire id seconds) from rfl), hlast,
      tends_burning (hnext _), Bool.or_eq_true, or_comm]
    rfl
  | call c =>
    have hlast : lastAttempt x ⟨.confirm userID x code mobile, .call (.call c) k⟩ = false := rfl
    rw [inLine_own h, hlast, Bool.false_or]
    cases c with
    | consume id =>
      obtain rfl : id = x := h.1
      rw [tends_returned (hled _)]
      cases he : e.fault <;> simp [goesWell, he]
    | _ =>
      have hline : inLine w.store.redis x = true := by simpa [tends] using hx
      simp [goesWell, hline]

/-- The deletion follows an `INCR` that counts the last attempt. -/
theorem lastAttempt_incr {k : Reply (.incr x) → Prog Reply Response} (hled : Leads s x (.incr x) k)
    (he : e.fault = .none) :
    lastAttempt x ⟨.confirm userID x code mobile, k (exec e (.incr x) w.store).1⟩ =
      decide (s.pairing.maxAttempts ≤ (RedisStore.incr x w.store.redis).count) := by
  obtain ⟨k', hk', hnext⟩ := hled.1 (RedisStore.incr x w.store.redis).count e.here
  have hreply : k (exec e (.incr x) w.store).1 = .call (.ttl x) k' := by
    rw [exec_answered he]
    exact hk'
  rw [hreply, lastAttempt, hnext]
  unfold burning
  split_ifs with hlast <;> simp [hlast]

/-- It follows the `EXPIRE` as it does the `TTL` before. -/
theorem lastAttempt_ttl {k : Reply (.ttl x) → Prog Reply Response} (hled : Leads s x (.ttl x) k)
    (he : e.fault = .none) (hpos : 0 < RedisStore.ttlSeconds x w.store.redis) :
    lastAttempt x ⟨.confirm userID x code mobile, k (exec e (.ttl x) w.store).1⟩ =
      lastAttempt x ⟨.confirm userID x code mobile, .call (.ttl x) k⟩ := by
  obtain ⟨n, hfailed, hmirror⟩ := hled
  have hseconds := hmirror (RedisStore.ttlSeconds x w.store.redis) e.here
  rw [if_pos hpos] at hseconds
  obtain ⟨k', hk', hnext⟩ := hseconds
  have hreply : k (exec e (.ttl x) w.store).1 = .call (.expire x (RedisStore.ttlSeconds x w.store.redis)) k' := by
    rw [exec_answered he]
    exact hk'
  have hbefore : (k (failed (.ttl x))).pending = burning s x n := hfailed _ _
  rw [hreply]
  exact congrArg (· == some (Command.call (.consume x))) (hnext.trans hbefore.symm)

end Own

/-- What the condition asks of a command of a `Confirm`. -/
theorem countersSettle_confirm {userID code mobile : String} (honly : w.All fun q p => p.Only (mayCommand q))
    (hled : w.All (Led s)) (hi : w.threads[i]? = some ⟨.confirm userID x code mobile, .call c k⟩)
    (hx : inLine w.store.redis x = true ∨ w.threads.any (tends x) = true) :
    countersSettle w (.advance i e) = true ↔
      inLine ((system s).step w (.advance i e)).store.redis x = true ∨
        ((system s).step w (.advance i e)).threads.any (tends x) = true := by
  have hsettle : countersSettle w (.advance i e) = ((w.threads.eraseIdx i).any (tends x) ||
      (lastAttempt x ⟨.confirm userID x code mobile, .call c k⟩ || goesWell e w.store.redis x c)) := by
    simp only [countersSettle, hi, Bool.or_assoc]
  rw [hsettle, any_tends hi, (system s).step_advance hi e]
  rw [any_eraseIdx hi] at hx
  cases hothers : (w.threads.eraseIdx i).any (tends x) with
  | true => simp only [Bool.true_or, Bool.or_true, or_true]
  | false =>
    rw [hothers, Bool.or_false] at hx
    rw [Bool.false_or, Bool.or_false]
    exact goesWell_iff (honly i _ _ hi).1 (hled i _ _ hi _ _ _ _ rfl).1 hx

/-- The condition is exact: a step keeps the counters tended if and only if it meets it. -/
theorem tended_iff (honly : w.All fun q p => p.Only (mayCommand q)) (hled : w.All (Led s)) (hw : Tended w)
    (l : Step) :
    Tended ((system s).step w l) ↔ countersSettle w l = true := by
  cases l with
  | spawn q e =>
    refine iff_of_true (fun x => (hw x).imp_right fun hx => ?_) rfl
    rw [System.step, List.any_append, hx, Bool.true_or]
  | env d => exact iff_of_true (fun x => (hw x).imp_left (inLine_tick d)) rfl
  | advance i e =>
    cases hi : w.threads[i]? with
    | none =>
      have hstep : (system s).step w (.advance i e) = w := by simp only [System.step, hi]
      rw [hstep]
      exact iff_of_true hw (by simp only [countersSettle, hi])
    | some t =>
      obtain ⟨q, p⟩ := t
      cases p with
      | ret a =>
        have hstep : (system s).step w (.advance i e) = w := by simp only [System.step, hi]
        rw [hstep]
        exact iff_of_true hw (by simp only [countersSettle, hi])
      | call c k =>
        cases q with
        | confirm userID x code mobile =>
          rw [countersSettle_confirm honly hled hi (hw x)]
          constructor
          · exact fun h => h x
          · intro h y
            by_cases hy : y = x
            · rwa [hy]
            · refine tended_others ?_ honly hi (hw y)
              rintro userID' code' mobile' ⟨⟩
              exact hy rfl
        | _ =>
          refine iff_of_true (fun y => tended_others ?_ honly hi (hw y)) (by simp only [countersSettle, hi])
          rintro userID' code' mobile' ⟨⟩

end Steps

theorem confirming_of_tends {t : Thread Request Reply Response} (h : tends x t = true) : confirming t = true := by
  unfold tends at h
  split at h
  · rfl
  · rfl
  · rfl
  · cases h

/-- When no `Confirm` is in progress, no request tends a counter. -/
theorem Tended.countersInLine {w : World} (hw : Tended w) (hquiet : Quiet w) : CountersInLine w.store.redis := by
  refine (countersInLine_iff _).2 fun x => (hw x).resolve_right fun htends => ?_
  obtain ⟨t, hmem, ht⟩ := List.any_eq_true.1 htends
  have hconfirming : w.threads.any confirming = true := List.any_eq_true.2 ⟨t, hmem, confirming_of_tends ht⟩
  exact Bool.false_ne_true (hquiet.symm.trans hconfirming)

theorem tended_init (db : FleetDb) (now : Time) : Tended ⟨.init db now, []⟩ := fun _ => .inl rfl

/-- The runs that keep every counter tended are those whose steps meet the condition. -/
theorem always_tended_iff (s : Services) (db : FleetDb) (now : Time) (l : List Step) :
    Run.Always (system s).step Tended ⟨.init db now, []⟩ l ↔
      Run.Guarded (system s).step (fun w l => countersSettle w l = true) ⟨.init db now, []⟩ l :=
  Run.always_iff_guarded
    (J := fun w : World => (w.All fun q p => p.Only (mayCommand q)) ∧ w.All (Led s) ∧ Tended w)
    (fun _ hw => hw.2.2)
    (fun _ l hw hg => ⟨only_step hw.1 l, led_step hw.2.1 l, (tended_iff hw.1 hw.2.1 hw.2.2 l).2 hg⟩)
    (fun _ l hw h => (tended_iff hw.1 hw.2.1 hw.2.2 l).1 h)
    ⟨Pool.All.nil _, Pool.All.nil _, tended_init db now⟩ l

/-- In every run whose steps meet the condition: whenever no `Confirm` is in progress, every counter carries a
deadline no later than that of its challenge. -/
theorem countersInLine_of_countersSettle (s : Services) (db : FleetDb) (now : Time) (l : List Step)
    (h : Run.Guarded (system s).step (fun w l => countersSettle w l = true) ⟨.init db now, []⟩ l) :
    Run.Always (system s).step (fun w => Quiet w → CountersInLine w.store.redis) ⟨.init db now, []⟩ l :=
  ((always_tended_iff s db now l).2 h).mono fun _ hw => hw.countersInLine

/-! ### A counter without a deadline -/

/-- One-digit codes and five attempts. -/
def fiveAttempts : Services := { sampleServices with pairing := .new ⟨0, 1, 0⟩ fun token => "#" ++ token }

def wrongCode : Step := .spawn (.confirm "u1" "x" "0" "m1") (goes "")

/-- A wrong code is compared while the challenge is there, and counted after a right one has consumed it. -/
def countedLate : List Step :=
  initiated ++ [wrongCode, .advance 1 (goes ""), confirmFrom "m2", .advance 2 (goes ""), .advance 2 (goes ""),
    .advance 2 (goes "p2"), .advance 2 (goes ""), .advance 1 (goes ""), .advance 1 (goes "")]

/-- A wrong code is counted three seconds after it was compared. -/
def countedInTime : List Step :=
  initiated ++ [wrongCode, .advance 1 (goes ""), .env 3000, .advance 1 (goes ""), .advance 1 (goes ""),
    .advance 1 (goes "")]

set_option maxRecDepth 8000 in
theorem counter_without_deadline :
    ¬Run.Always (system fiveAttempts).step (fun w => Quiet w → CountersInLine w.store.redis)
      ⟨.init sampleDb 0, []⟩ countedLate := by
  intro h
  have hquiet : Quiet ((system fiveAttempts).run (.init sampleDb 0) countedLate) := by
    unfold Quiet
    decide
  have hline := (countersInLine_iff _).1 (h.last hquiet) "x"
  have hout : inLine ((system fiveAttempts).run (.init sampleDb 0) countedLate).store.redis "x" = false := by decide
  exact Bool.false_ne_true (hout.symm.trans hline)

set_option maxRecDepth 8000 in
theorem countersInLine_countedInTime :
    ((system fiveAttempts).run (.init sampleDb 0) countedInTime).store.redis.counter "x" = some ⟨1, some 300000⟩ ∧
      Run.Always (system fiveAttempts).step (fun w => Quiet w → CountersInLine w.store.redis)
        ⟨.init sampleDb 0, []⟩ countedInTime :=
  ⟨by decide, countersInLine_of_countersSettle fiveAttempts sampleDb 0 countedInTime (by decide)⟩

end DeskSync.Fleet.Counters
