import DeskSync.Fleet.Repository

/-!
# The Redis challenge store

`services/pairing/internal/store/redis.go`. The two key families are two maps, and a key is looked at
through its expiry: it is gone once Redis's clock has passed its deadline, whether or not the entry has
been evicted. `RecordFailedAttempt` gives the counter the remaining lifetime of the challenge in whole
seconds, so the counter may lapse up to half a second before the challenge does.
-/

namespace DeskSync.Fleet

open Backend

/-- The value under `pairing:challenge:<id>`. -/
structure Stored where
  challenge : Challenge
  expireAt : Time
  deriving DecidableEq, Repr

/-- The value under `pairing:attempts:<id>`. -/
structure Counter where
  count : ℕ
  expireAt : Option Time
  deriving DecidableEq, Repr

structure Redis where
  now : Time
  challenges : String → Option Stored
  attempts : String → Option Counter

namespace Redis
variable (r : Redis) (id : String)

/-- The challenge entry, while it lives. -/
def stored : Option Stored := (r.challenges id).filter fun s => r.now ≤ s.expireAt

/-- The attempt counter, while it lives. -/
def counter : Option Counter := (r.attempts id).filter fun c => c.expireAt.all (r.now ≤ ·)

/-- What the attempt counter was last set to, lapsed or not. -/
def recorded : ℕ := (r.attempts id).elim 0 (·.count)

/-- The counter has an entry whose deadline has passed. -/
def lapsed : Bool := (r.attempts id).any fun c => c.expireAt.any (· < r.now)

/-- Redis's clock goes on by `d`. -/
def tick (d : Time) : Redis := { r with now := r.now + d }

end Redis

namespace RedisStore

/-- `SET` with the given lifetime, and `DEL` of the attempts, in one transaction. -/
def save (ch : Challenge) (ttl : Time) (r : Redis) : Except RepoError Unit × Redis :=
  (.ok (), { r with
    challenges := Function.update r.challenges ch.pairingID (some ⟨ch, r.now + ttl⟩)
    attempts := Function.update r.attempts ch.pairingID none })

def get (id : String) (r : Redis) : Except RepoError Challenge × Redis :=
  match r.stored id with
  | some s => (.ok s.challenge, r)
  | none => (.error .challengeNotFound, r)

/-- `TTL`: the remaining lifetime rounded to seconds, `0` when there is no such key. -/
def ttlSeconds (id : String) (r : Redis) : ℕ :=
  match r.stored id with
  | some s => (s.expireAt - r.now + 500) / 1000
  | none => 0

/-- `INCR`: a missing or lapsed counter starts from zero and has no deadline. -/
def incr (id : String) (r : Redis) : Counter :=
  match r.counter id with
  | some c => { c with count := c.count + 1 }
  | none => ⟨1, none⟩

def recordFailedAttempt (id : String) (r : Redis) : Except RepoError ℕ × Redis :=
  let c := incr id r
  let ttl := ttlSeconds id r
  let c := if 0 < ttl then { c with expireAt := some (r.now + ttl * 1000) } else c
  (.ok c.count, { r with attempts := Function.update r.attempts id (some c) })

def consume (id : String) (r : Redis) : Except RepoError Unit × Redis :=
  (.ok (), { r with
    challenges := Function.update r.challenges id none
    attempts := Function.update r.attempts id none })

end RedisStore

end DeskSync.Fleet
