import DeskSync.Lib.Proc
import DeskSync.Signaling.Protocol

/-!
# The signaling hub

The hub keeps the connected peers of every session in a map under one lock; a peer's outbound queue has
a lock of its own. The calls (`Access`) of the handlers are the sections under these locks: what `Join`,
`Leave` and `relay` do to the map, and `enqueue` and `close` on a peer. The hub lock is also held over
the peer sections inside `Join` and `Leave`; the model lets sections of other handlers come between
these, which only adds interleavings. What `Leave` does to the map it does at once.

A Go channel panics when it is closed twice or written to after it was closed; the model of a queue
(`Queue`) keeps its own closed flag, apart from the one `Peer` guards it with, and records a panic.

The reader of a connection, and with it its calls of `Dispatch`, is one goroutine; the writer takes
messages from the queue at any time (`drain`).
-/

namespace DeskSync.Signaling

open Proc
open Proc.Prog (perform)

def outboundBuffer : ℕ := 64

variable {Raw : Type}

/-- A pointer to a peer, with the fields that never change. -/
structure Peer where
  id : ℕ
  sessionID : String
  role : Role
  deriving DecidableEq

/-- A buffered Go channel. -/
structure Queue (Raw : Type) where
  msgs : List Raw := []
  isClosed : Bool := false

/-- The fields of a peer that change. -/
structure PeerState (Raw : Type) where
  out : Queue Raw := {}
  guard : NonceGuard := {}
  closed : Bool := false

/-- `map[Role]*Peer`. -/
abbrev Room := Role → Option Peer

def Room.empty : Room := fun _ => none

/-- The map of the hub and the peers made so far, by their `id`; `panicked` once a queue was closed
twice or written to after it was closed. -/
structure Store (Raw : Type) where
  rooms : String → Option Room := fun _ => none
  peers : List (PeerState Raw) := []
  panicked : Bool := false

def Store.registered (s : Store Raw) (sessionID : String) (role : Role) : Option Peer :=
  (s.rooms sessionID).bind (· role)

/-! ### Sections -/

/-- A section under a lock, or a read from the connection. The `sender` of `enqueue` is the peer whose
message is relayed, and only there for the history. -/
inductive Access (Raw : Type)
  | join (sessionID : String) (role : Role)
  | leave (p : Peer)
  | target (sender : Peer)
  | enqueue (p : Peer) (msg : Raw) (sender : Option Peer)
  | close (p : Peer)
  | accept (p : Peer) (nonce : UInt64)
  | read (p : Peer)

@[reducible] def Reply : Access Raw → Type
  | .join .. => Option (Peer × Option Peer)
  | .leave _ => Option (Option Peer)
  | .target _ => Option Peer
  | .enqueue .. => Bool
  | .close _ => Unit
  | .accept .. => Bool
  | .read _ => Unit

namespace Store

/-- `Join` on the map: the new peer and the one already there, unless the role is taken. -/
def join (s : Store Raw) (sessionID : String) (role : Role) :
    Option (Peer × Option Peer) × Store Raw :=
  let r := (s.rooms sessionID).getD Room.empty
  if (r role).isSome then
    (none, { s with rooms := Function.update s.rooms sessionID (some r) })
  else
    let p : Peer := ⟨s.peers.length, sessionID, role⟩
    (some (p, r role.other),
      { s with
        rooms := Function.update s.rooms sessionID (some (Function.update r role (some p)))
        peers := s.peers ++ [{}] })

/-- `Leave` on the map: the peer left behind, unless `p` is not in the map. -/
def leave (s : Store Raw) (p : Peer) : Option (Option Peer) × Store Raw :=
  match s.rooms p.sessionID with
  | none => (none, s)
  | some r =>
    if r p.role ≠ some p then (none, s)
    else
      let r := Function.update r p.role none
      let room := if r p.role.other = none then none else some r
      (some (r p.role.other), { s with rooms := Function.update s.rooms p.sessionID room })

/-- `relay` on the map: the other peer of the room. -/
def target (s : Store Raw) (sender : Peer) : Option Peer :=
  match s.rooms sender.sessionID with
  | none => none
  | some r => r sender.role.other

def set (s : Store Raw) (p : Peer) (st : PeerState Raw) : Store Raw :=
  { s with peers := s.peers.set p.id st }

/-- `enqueue`. -/
def enqueue (s : Store Raw) (p : Peer) (msg : Raw) : Bool × Store Raw :=
  match s.peers[p.id]? with
  | none => (false, s)
  | some st =>
    if st.closed then (false, s)
    else if st.out.isClosed then (false, { s with panicked := true })
    else if st.out.msgs.length < outboundBuffer then
      (true, s.set p { st with out := { st.out with msgs := st.out.msgs ++ [msg] } })
    else (false, s)

/-- `close`. -/
def close (s : Store Raw) (p : Peer) : Store Raw :=
  match s.peers[p.id]? with
  | none => s
  | some st =>
    if st.closed then s
    else if st.out.isClosed then { s with panicked := true }
    else s.set p { st with closed := true, out := { st.out with isClosed := true } }

/-- The nonce guard of a peer. -/
def accept (s : Store Raw) (p : Peer) (nonce : UInt64) : Bool × Store Raw :=
  match s.peers[p.id]? with
  | none => (false, s)
  | some st => ((st.guard.accept nonce).1, s.set p { st with guard := (st.guard.accept nonce).2 })

/-- The writer takes a message from the queue. -/
def drain (s : Store Raw) (id : ℕ) : Store Raw :=
  match s.peers[id]? with
  | none => s
  | some st => { s with peers := s.peers.set id { st with out := { st.out with msgs := st.out.msgs.tail } } }

end Store

def exec (_ : Unit) : (c : Access Raw) → Store Raw → Reply c × Store Raw
  | .join sessionID role, s => s.join sessionID role
  | .leave p, s => s.leave p
  | .target sender, s => (s.target sender, s)
  | .enqueue p msg _, s => s.enqueue p msg
  | .close p, s => ((), s.close p)
  | .accept p nonce, s => s.accept p nonce
  | .read _, s => ((), s)

/-! ### Handlers -/

abbrev Handler (Raw : Type) (α : Type) := Prog (@Reply Raw) α

variable (c : Codec Raw)

/-- `Hub.Join`. -/
def join (sessionID : String) (role : Role) : Handler Raw (Option Peer) := do
  let joined : Option (Peer × Option Peer) ← perform (Access.join sessionID role)
  match joined with
  | none => pure none
  | some (p, none) => pure (some p)
  | some (p, some other) =>
    let _ : Bool ← perform (Access.enqueue other (control c sessionID kindPeerJoined role.name) none)
    let _ : Bool ←
      perform (Access.enqueue p (control c sessionID kindPeerJoined role.other.name) none)
    pure (some p)

/-- `Hub.Leave`. -/
def leave (p : Peer) : Handler Raw Unit := do
  let left : Option (Option Peer) ← perform (Access.leave p)
  match left with
  | none => pure ()
  | some other =>
    perform (Access.close p)
    match other with
    | none => pure ()
    | some other =>
      let _ : Bool ←
        perform (Access.enqueue other (control c p.sessionID kindPeerLeft p.role.name) none)
      pure ()

/-- `Hub.relay`. -/
def relay (sender : Peer) (raw : Raw) : Handler Raw Unit := do
  let target : Option Peer ← perform (Access.target sender)
  match target with
  | none => pure ()
  | some target =>
    let queued : Bool ← perform (Access.enqueue target raw (some sender))
    if queued then pure () else leave c target

inductive DispatchResult
  | continue
  | reject
  | bye
  deriving DecidableEq

/-- `Hub.Dispatch`. -/
def dispatch (p : Peer) (raw : Raw) : Handler Raw DispatchResult :=
  match parse c raw with
  | none => pure .reject
  | some env =>
    if env.sessionID ≠ p.sessionID then pure .reject
    else do
      let accepted : Bool ← perform (Access.accept p env.nonce)
      if accepted = false then pure .reject
      else if env.kind c = kindHeartbeat then pure .continue
      else if env.kind c = kindBye then do
        relay c p raw
        pure .bye
      else if env.kind c = kindOffer ∨ env.kind c = kindAnswer ∨ env.kind c = kindICECandidate then do
        relay c p raw
        pure .continue
      else pure .reject

/-- What `ReadMessage` returns, until it fails. -/
inductive Read (Raw : Type)
  | text (data : Raw)
  /-- A message that is not a text message. -/
  | binary

/-- The reader loop of `Handler.serve` and its cleanup. -/
def pump (p : Peer) : List (Read Raw) → Handler Raw Unit
  | [] => leave c p
  | .binary :: reads => do
    perform (Access.read p)
    pump p reads
  | .text data :: reads => do
    perform (Access.read p)
    let result ← dispatch c p data
    match result with
    | .continue => pump p reads
    | .reject | .bye => leave c p

/-- `Handler.serve` for a verified ticket. -/
def serve (sessionID : String) (role : Role) (reads : List (Read Raw)) : Handler Raw Unit := do
  let peer ← join c sessionID role
  match peer with
  | none => pure ()
  | some p => pump c p reads

/-- A call on the hub for a peer that has joined. -/
inductive Call (Raw : Type)
  | dispatch (raw : Raw)
  | leave

/-- Calls on the hub for one peer, one after the other. -/
def calls (p : Peer) : List (Call Raw) → Handler Raw Unit
  | [] => pure ()
  | .dispatch raw :: rest => do
    let _ ← dispatch c p raw
    calls p rest
  | .leave :: rest => do
    leave c p
    calls p rest

/-- A connection: the handler of the WebSocket endpoint, or any calls of one goroutine. -/
inductive Request (Raw : Type)
  | serve (sessionID : String) (role : Role) (reads : List (Read Raw))
  | calls (sessionID : String) (role : Role) (ops : List (Call Raw))

def Request.sessionID : Request Raw → String
  | .serve sessionID _ _ => sessionID
  | .calls sessionID _ _ => sessionID

def Request.role : Request Raw → Role
  | .serve _ role _ => role
  | .calls _ role _ => role

/-- The messages of a connection that are dispatched, in order. -/
def Request.messages : Request Raw → List Raw
  | .serve _ _ reads => reads.filterMap fun
    | .text data => some data
    | .binary => none
  | .calls _ _ ops => ops.filterMap fun
    | .dispatch raw => some raw
    | .leave => none

def start : Request Raw → Handler Raw Unit
  | .serve sessionID role reads => serve c sessionID role reads
  | .calls sessionID role ops => do
    let peer ← join c sessionID role
    match peer with
    | none => pure ()
    | some p => calls c p ops

/-- One hub and any number of connections. -/
def hub : System (Store Raw) (Request Raw) (@Reply Raw) Unit Unit ℕ where
  start q _ := start c q
  exec := exec
  env id s := s.drain id

abbrev World (Raw : Type) := Pool (Store Raw) (Request Raw) (@Reply Raw) Unit

abbrev Step (Raw : Type) := Label (Request Raw) Unit ℕ

def fresh : World Raw := ⟨{}, []⟩

/-! ### Events -/

inductive Event (Raw : Type)
  /-- `p` is in the map. -/
  | joined (p : Peer)
  /-- `p` is no longer in the map. -/
  | removed (p : Peer)
  /-- The message is on the queue of `p`, put there by the connection `i`. -/
  | put (i : ℕ) (p : Peer) (msg : Raw) (sender : Option Peer)
  /-- The queue of `p` is closed. -/
  | closed (p : Peer)
  /-- The connection `i` has read a message. -/
  | read (i : ℕ)

/-- What a section does that the history records. -/
def eventOf (i : ℕ) : Access Raw → Store Raw → Option (Event Raw)
  | .join sessionID role, s => (s.join sessionID role).1.map fun r => .joined r.1
  | .leave p, s => (s.leave p).1.map fun _ => .removed p
  | .enqueue p msg sender, s => if (s.enqueue p msg).1 then some (.put i p msg sender) else none
  | .close p, s =>
    match s.peers[p.id]? with
    | some st => if st.closed then none else some (.closed p)
    | none => none
  | .read _, _ => some (.read i)
  | _, _ => none

def event (w : World Raw) : Step Raw → Option (Event Raw)
  | .advance i _ =>
    match w.threads[i]? with
    | some ⟨_, .call a _⟩ => eventOf i a w.store
    | _ => none
  | _ => none

/-- A hub and its history after the steps `l`. -/
def run (l : List (Step Raw)) : World Raw × List (Event Raw) :=
  Run.exec (Run.observe (hub c).step event) (fresh, []) l

end DeskSync.Signaling
