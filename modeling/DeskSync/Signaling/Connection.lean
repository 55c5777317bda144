import DeskSync.Signaling.Hub

/-!
# The stages of a connection

A connection joins, and then dispatches its messages one after the other. Its `Stage` says where it is:
the peer it joined as, the messages it has still to dispatch, the message it is dispatching, and the
peer it has taken out of the map but not closed yet. `Next` is the protocol of the stages: what a
connection may call at each and where the reply takes it. Every connection follows it
(`conforms_start`), as far as the replies of the hub are about the right session (`Addressed`).

`step_cases` says what a step of the hub can do, in terms of stages.
-/

namespace DeskSync.Signaling

open Proc

variable {Raw : Type}

/-- The message a connection is dispatching. -/
inductive Phase (Raw : Type)
  | idle
  /-- Its nonce has been accepted. -/
  | accepted (raw : Raw)
  /-- Its target has been looked up. -/
  | relaying (target : Peer) (raw : Raw)

inductive Stage (Raw : Type)
  | joining (sessionID : String) (role : Role) (rest : List Raw)
  /-- Joined as `p`, with the messages `rest` to come; `gone` is to be closed. -/
  | up (p : Peer) (rest : List Raw) (phase : Phase Raw) (gone : Option Peer)

/-- The replies name peers of the session that was asked for. -/
def Addressed : (a : Access Raw) → Reply a → Prop
  | .join sessionID role, r => ∀ p other, r = some (p, other) →
    p.sessionID = sessionID ∧ p.role = role ∧ ∀ o ∈ other, o.sessionID = sessionID
  | .leave p, r => ∀ other, r = some other → ∀ o ∈ other, o.sessionID = p.sessionID
  | .target sender, r => ∀ t ∈ r, t.sessionID = sender.sessionID ∧ t.role = sender.role.other
  | _, _ => True

/-- `Parse` accepts the message, for the session of `p`. -/
def ParsedFor (c : Codec Raw) (p : Peer) (raw : Raw) (env : Envelope Raw) : Prop :=
  parse c raw = some env ∧ env.sessionID = p.sessionID

/-- The kinds `Dispatch` relays. -/
def relayable (kind : String) : Prop :=
  kind = kindOffer ∨ kind = kindAnswer ∨ kind = kindICECandidate ∨ kind = kindBye

/-- A presence message of the hub for the session of `p`. -/
def IsControl (c : Codec Raw) (p : Peer) (msg : Raw) : Prop :=
  ∃ kind ∈ [kindPeerJoined, kindPeerLeft], ∃ role : Role, msg = control c p.sessionID kind role.name

inductive Next (c : Codec Raw) : Stage Raw → (a : Access Raw) → Reply a → Stage Raw → Prop
  | refused (sessionID role rest) : Next c (.joining sessionID role rest) (.join sessionID role) none
      (.joining sessionID role rest)
  | joined (rest p other) : Next c (.joining p.sessionID p.role rest) (.join p.sessionID p.role)
      (some (p, other)) (.up p rest .idle none)
  | announces (p rest phase o msg r) (h : IsControl c o msg) :
      Next c (.up p rest phase none) (.enqueue o msg none) r (.up p rest phase none)
  | finds (p rest phase q) : Next c (.up p rest phase none) (.leave q) none (.up p rest phase none)
  | removes (p rest phase q other) :
      Next c (.up p rest phase none) (.leave q) (some other) (.up p rest phase (some q))
  | closes (p rest phase q) :
      Next c (.up p rest phase (some q)) (.close q) () (.up p rest phase none)
  | reads (p rest phase) : Next c (.up p rest phase none) (.read p) () (.up p rest .idle none)
  | rejects (p rest phase nonce) :
      Next c (.up p rest phase none) (.accept p nonce) false (.up p rest .idle none)
  | accepts (p rest phase raw rest' env) (hrest : (raw :: rest').Sublist rest)
      (henv : ParsedFor c p raw env) : Next c (.up p rest phase none) (.accept p env.nonce) true
      (.up p rest' (.accepted raw) none)
  | alone (p rest raw) :
      Next c (.up p rest (.accepted raw) none) (.target p) none (.up p rest .idle none)
  | targets (p rest raw env t) (henv : ParsedFor c p raw env) (hkind : relayable (env.kind c))
      (ht : t.sessionID = p.sessionID ∧ t.role = p.role.other) :
      Next c (.up p rest (.accepted raw) none) (.target p) (some t) (.up p rest (.relaying t raw) none)
  | relays (p rest raw t r) : Next c (.up p rest (.relaying t raw) none) (.enqueue t raw (some p)) r
      (.up p rest .idle none)

/-! ### Every connection follows the protocol -/

/-- Between two calls on the hub. -/
def Stage.Up (p : Peer) (rest : List Raw) (x : Stage Raw) : Prop := ∃ phase, x = .up p rest phase none

/-- The handler follows the protocol from the stage and returns with `fin`. -/
abbrev Follows {α : Type} (c : Codec Raw) (fin : Stage Raw → Prop) (x : Stage Raw)
    (h : Handler Raw α) : Prop :=
  h.Conforms Addressed (Next c) (fun x _ => fin x) x

variable {c : Codec Raw} {p : Peer} {rest : List Raw}

theorem follows_leave (c : Codec Raw) (p : Peer) (rest : List Raw) (phase : Phase Raw) (q : Peer) :
    Follows c (Stage.Up p rest) (.up p rest phase none) (leave c q) := by
  intro left hleft
  cases left with
  | none => exact ⟨_, .finds p rest phase q, phase, rfl⟩
  | some other =>
    refine ⟨_, .removes p rest phase q other, fun u _ => ⟨_, .closes p rest phase q, ?_⟩⟩
    cases other with
    | none => exact ⟨phase, rfl⟩
    | some o =>
      intro r _
      have ho : o.sessionID = q.sessionID := hleft (some o) rfl o rfl
      refine ⟨_, .announces p rest phase o _ r ⟨kindPeerLeft, by simp, q.role, ?_⟩, phase, rfl⟩
      rw [ho]

theorem follows_relay {raw : Raw} {env : Envelope Raw} (henv : ParsedFor c p raw env)
    (hkind : relayable (env.kind c)) :
    Follows c (Stage.Up p rest) (.up p rest (.accepted raw) none) (relay c p raw) := by
  intro target htarget
  cases target with
  | none => exact ⟨_, .alone p rest raw, .idle, rfl⟩
  | some t =>
    refine ⟨_, .targets p rest raw env t henv hkind (htarget t rfl), fun queued _ => ?_⟩
    refine ⟨_, .relays p rest raw t queued, ?_⟩
    cases queued with
    | true => exact ⟨.idle, rfl⟩
    | false => exact follows_leave c p rest .idle t

theorem follows_dispatch (phase : Phase Raw) {raw : Raw} {rest' : List Raw}
    (hrest : (raw :: rest').Sublist rest) :
    Follows c (fun x => Stage.Up p rest x ∨ Stage.Up p rest' x) (.up p rest phase none)
      (dispatch c p raw) := by
  unfold dispatch
  cases hparse : parse c raw with
  | none => exact .inl ⟨phase, rfl⟩
  | some env =>
    dsimp only
    by_cases hsession : env.sessionID ≠ p.sessionID
    · rw [if_pos hsession]
      exact .inl ⟨phase, rfl⟩
    rw [if_neg hsession]
    have henv : ParsedFor c p raw env := ⟨hparse, not_not.1 hsession⟩
    intro accepted _
    cases accepted with
    | false => exact ⟨_, .rejects p rest phase env.nonce, .inl ⟨.idle, rfl⟩⟩
    | true =>
      refine ⟨_, .accepts p rest phase raw rest' env hrest henv, ?_⟩
      have hrelay (hkind : relayable (env.kind c)) (r : DispatchResult) :
          Follows c (fun x => Stage.Up p rest x ∨ Stage.Up p rest' x)
            (.up p rest' (.accepted raw) none) (do relay c p raw; pure r) :=
        (follows_relay henv hkind).bind fun x _ hx => .inr hx
      simp only [Prog.bind, Bool.true_eq_false, if_false]
      by_cases hbeat : env.kind c = kindHeartbeat
      · rw [if_pos hbeat]
        exact .inr ⟨_, rfl⟩
      rw [if_neg hbeat]
      by_cases hbye : env.kind c = kindBye
      · rw [if_pos hbye]
        exact hrelay (.inr (.inr (.inr hbye))) _
      rw [if_neg hbye]
      by_cases hother : env.kind c = kindOffer ∨ env.kind c = kindAnswer ∨ env.kind c = kindICECandidate
      · rw [if_pos hother]
        refine hrelay ?_ _
        rcases hother with h | h | h
        · exact .inl h
        · exact .inr (.inl h)
        · exact .inr (.inr (.inl h))
      · rw [if_neg hother]
        exact .inr ⟨_, rfl⟩

theorem follows_pump (reads : List (Read Raw)) {rest : List Raw} (phase : Phase Raw)
    (hrest : (Request.serve p.sessionID p.role reads).messages.Sublist rest) :
    Follows c (fun _ => True) (.up p rest phase none) (pump c p reads) := by
  have hleave (rest : List Raw) (phase : Phase Raw) :
      Follows c (fun _ => True) (.up p rest phase none) (leave c p) :=
    (follows_leave c p rest phase p).mono fun _ _ _ => trivial
  induction reads generalizing rest phase with
  | nil => exact hleave rest phase
  | cons read reads ih =>
    cases read with
    | binary => exact fun u _ => ⟨_, .reads p rest phase, ih .idle hrest⟩
    | text data =>
      refine fun u _ => ⟨_, .reads p rest phase, (follows_dispatch .idle hrest).bind ?_⟩
      intro x result hx
      have hnext : ∃ rest' phase, x = .up p rest' phase none ∧
          (Request.serve p.sessionID p.role reads).messages.Sublist rest' := by
        rcases hx with ⟨phase, rfl⟩ | ⟨phase, rfl⟩
        · exact ⟨rest, phase, rfl, (List.sublist_cons_self _ _).trans hrest⟩
        · exact ⟨_, phase, rfl, List.Sublist.refl _⟩
      obtain ⟨rest', phase, rfl, hrest'⟩ := hnext
      cases result with
      | «continue» => exact ih phase hrest'
      | reject => exact hleave rest' phase
      | bye => exact hleave rest' phase

theorem follows_calls (ops : List (Call Raw)) {rest : List Raw} (phase : Phase Raw)
    (hrest : (Request.calls p.sessionID p.role ops).messages.Sublist rest) :
    Follows c (fun _ => True) (.up p rest phase none) (calls c p ops) := by
  induction ops generalizing rest phase with
  | nil => trivial
  | cons op ops ih =>
    cases op with
    | leave =>
      refine (follows_leave c p rest phase p).bind ?_
      rintro x _ ⟨phase, rfl⟩
      exact ih phase hrest
    | dispatch raw =>
      refine (follows_dispatch phase hrest).bind ?_
      rintro x _ (⟨phase, rfl⟩ | ⟨phase, rfl⟩)
      · exact ih phase ((List.sublist_cons_self _ _).trans hrest)
      · exact ih phase (List.Sublist.refl _)

/-- `Join`, and what follows for a connection that has joined. -/
theorem follows_join {sessionID : String} {role : Role} {msgs : List Raw}
    {f : Option Peer → Handler Raw Unit} (hnone : f none = pure ())
    (hsome : ∀ p, p.sessionID = sessionID → p.role = role →
      ∀ phase, Follows c (fun _ => True) (.up p msgs phase none) (f (some p))) :
    Follows c (fun _ => True) (.joining sessionID role msgs) (join c sessionID role >>= f) := by
  intro r hr
  cases r with
  | none =>
    refine ⟨_, .refused sessionID role msgs, ?_⟩
    show Follows c _ _ (f none)
    rw [hnone]
    trivial
  | some joined =>
    obtain ⟨p, other⟩ := joined
    obtain ⟨rfl, rfl, hother⟩ := hr p other rfl
    refine ⟨_, .joined msgs p other, ?_⟩
    cases other with
    | none => exact hsome p rfl rfl .idle
    | some o =>
      have ho : o.sessionID = p.sessionID := hother o rfl
      intro b _
      refine ⟨_, .announces p msgs .idle o _ b ⟨kindPeerJoined, by simp, p.role, by rw [ho]⟩, ?_⟩
      intro b' _
      exact ⟨_, .announces p msgs .idle p _ b' ⟨kindPeerJoined, by simp, p.role.other, rfl⟩,
        hsome p rfl rfl .idle⟩

/-- Where a connection starts. -/
def Request.initial (q : Request Raw) : Stage Raw := .joining q.sessionID q.role q.messages

theorem follows_start (c : Codec Raw) (q : Request Raw) :
    Follows c (fun _ => True) q.initial (start c q) := by
  cases q with
  | serve sessionID role reads =>
    refine follows_join rfl ?_
    rintro p rfl rfl phase
    exact follows_pump reads phase (List.Sublist.refl _)
  | calls sessionID role ops =>
    refine follows_join rfl ?_
    rintro p rfl rfl phase
    exact follows_calls ops phase (List.Sublist.refl _)

/-! ### Steps -/

/-- Every connection is at its stage; `X` gives the stages. -/
def Staged (c : Codec Raw) (w : World Raw) (X : ℕ → Stage Raw) : Prop :=
  ∀ i q prog, w.threads[i]? = some ⟨q, prog⟩ → Follows c (fun _ => True) (X i) prog

/-- The stages before any connection has started. -/
def noStages : ℕ → Stage Raw := fun _ => .joining "" .controller []

theorem staged_fresh (c : Codec Raw) : Staged c (fresh : World Raw) noStages := by
  intro i q prog h
  simp [fresh] at h

/-- What a step can do: nothing, start a connection, take a message from a queue, or run the next
section of a connection, which takes it to its next stage. -/
theorem step_cases {w : World Raw} {X : ℕ → Stage Raw} (hw : Staged c w X)
    (hs : ∀ a, Addressed a (exec () a w.store).1) (l : Step Raw) :
    ((hub c).step w l = w ∧ event w l = none) ∨
    (∃ q, (hub c).step w l = { w with threads := w.threads ++ [⟨q, start c q⟩] } ∧ event w l = none ∧
      Staged c ((hub c).step w l) (Function.update X w.threads.length q.initial)) ∨
    (∃ id, (hub c).step w l = { w with store := w.store.drain id } ∧ event w l = none ∧
      Staged c ((hub c).step w l) X) ∨
    (∃ i q a k x', l = .advance i () ∧ w.threads[i]? = some ⟨q, .call a k⟩ ∧
      (hub c).step w l =
        ⟨(exec () a w.store).2, w.threads.set i ⟨q, k (exec () a w.store).1⟩⟩ ∧
      event w l = eventOf i a w.store ∧ Next c (X i) a (exec () a w.store).1 x' ∧
      Staged c ((hub c).step w l) (Function.update X i x')) := by
  rcases (hub c).conform_cases hw (fun q _ => follows_start c q) (fun _ => hs) l with
    ⟨i, e, rfl, hnone, hstep⟩ | ⟨q, e, rfl, hstep, hst⟩ | ⟨i, e, q, a, k, x', rfl, hi, hstep, hnext, hst⟩ |
    ⟨id, rfl, hstep, hst⟩
  · refine .inl ⟨hstep, ?_⟩
    unfold event
    dsimp only
    split
    · rename_i q a k hi
      exact absurd hi (hnone q a k)
    · rfl
  · exact .inr (.inl ⟨q, hstep, rfl, hst⟩)
  · refine .inr (.inr (.inr ⟨i, q, a, k, x', rfl, hi, hstep, ?_, hnext, hst⟩))
    simp only [event, hi]
  · exact .inr (.inr (.inl ⟨id, hstep, rfl, hst⟩))

end DeskSync.Signaling
