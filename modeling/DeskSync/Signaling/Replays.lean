import DeskSync.Signaling.Relay
import DeskSync.Signaling.Json
import DeskSync.Agent.Signal

/-!
# The nonces on a peer's queue

The agent's `ReplayGuard` accepts a sequence of envelopes if their nonces increase strictly. What the hub
puts on a peer's queue comes from two sources: the presence messages it makes itself, all with the nonce
0, and the messages relayed from the connections of the other role, each of which counts for itself.
`accepted_iff_inSequence` says when the guard accepts what a queue is given: a presence message has to be
the first message on it, and a connection that takes over from another source has to start above the last
nonce. `presence_rejected` is a run in which it does not: the second presence message of a queue.

That a connection's own messages increase is what the hub's guard ensures (`Relaying.nonces`).
-/

namespace DeskSync.Signaling

open Agent (ReplayGuard)

variable {Raw : Type}

/-! ### Nonces -/

/-- The nonce of an envelope. -/
def nonceOf (c : Codec Raw) (msg : Raw) : Option UInt64 := (c.unmarshalEnvelope msg).map (·.nonce)

/-- The nonces on the queue of the peer `id`, in order. -/
def noncesOn (c : Codec Raw) (id : ℕ) (h : List (Event Raw)) : List UInt64 :=
  (putOn id h).filterMap (nonceOf c)

/-- The replay guard of a client accepts everything that is put on its queue. -/
def Accepted (c : Codec Raw) (h : List (Event Raw)) : Prop :=
  ∀ id, ReplayGuard.acceptsAll {} (noncesOn c id h) = true

/-- The last message put on the queue of the peer `id`, with the connection that put it there and the
peer whose message it relays. -/
def lastPut (id : ℕ) (h : List (Event Raw)) : Option (ℕ × Raw × Option Peer) :=
  (h.filterMap fun
    | .put i q msg sender => if q.id = id then some (i, msg, sender) else none
    | _ => none).getLast?

/-- What a step may put on a queue: a presence message on a queue that was given none before; a message
of the connection whose message was the last; or a relayed message with a nonce above the last. -/
def InSequence (c : Codec Raw) (p : World Raw × List (Event Raw)) (l : Step Raw) : Prop :=
  ∀ i q msg sender, event p.1 l = some (.put i q msg sender) →
    ∀ j prev prevSender, lastPut q.id p.2 = some (j, prev, prevSender) → sender ≠ none ∧
      (j = i ∧ prevSender ≠ none ∨ ∀ n ∈ nonceOf c prev, ∀ n' ∈ nonceOf c msg, n < n')

theorem accepted_iff {c : Codec Raw} {h : List (Event Raw)} :
    Accepted c h ↔ ∀ id, (noncesOn c id h).Pairwise (· < ·) := by
  simp only [Accepted, ReplayGuard.acceptsAll_iff]
  simp

theorem noncesOn_append (c : Codec Raw) (id : ℕ) (h h' : List (Event Raw)) :
    noncesOn c id (h ++ h') = noncesOn c id h ++ noncesOn c id h' := by
  rw [noncesOn, putOn_append, List.filterMap_append]
  rfl

/-- The last message of a queue is among those put on it. -/
theorem lastPut_split {id j : ℕ} {h : List (Event Raw)} {prev : Raw} {prevSender : Option Peer}
    (hlast : lastPut id h = some (j, prev, prevSender)) :
    ∃ l, putOn id h = l ++ [prev] ∧ ∃ q, q.id = id ∧ .put j q prev prevSender ∈ h := by
  obtain ⟨l, hl⟩ := List.getLast?_eq_some_iff.1 hlast
  refine ⟨l.map fun x => x.2.1, ?_, ?_⟩
  · have hput : putOn id h = (h.filterMap fun
        | .put i q msg sender => if q.id = id then some (i, msg, sender) else none
        | _ => none).map fun x => x.2.1 := by
      rw [List.map_filterMap, putOn]
      refine List.filterMap_congr fun e _ => ?_
      cases e with
      | put i q msg sender => by_cases hid : q.id = id <;> simp [hid]
      | _ => rfl
    rw [hput, hl, List.map_append]
    rfl
  · have hmem : (j, prev, prevSender) ∈ l ++ [(j, prev, prevSender)] := List.mem_concat_self
    rw [← hl, List.mem_filterMap] at hmem
    obtain ⟨e, he, hsome⟩ := hmem
    cases e with
    | put i q msg sender =>
      dsimp only at hsome
      split_ifs at hsome with hid
      obtain ⟨rfl, rfl, rfl⟩ := Option.some.inj hsome
      exact ⟨q, hid, he⟩
    | _ => cases hsome

theorem lastPut_eq_none {id : ℕ} {h : List (Event Raw)} (hlast : lastPut id h = none) :
    putOn id h = [] := by
  have hnil := List.getLast?_eq_none_iff.1 hlast
  rw [putOn, List.filterMap_eq_nil_iff]
  rw [List.filterMap_eq_nil_iff] at hnil
  intro e he
  have hsame := hnil e he
  cases e with
  | put i q msg sender =>
    by_cases hid : q.id = id
    · simp [hid] at hsame
    · simp [hid]
  | _ => rfl

/-! ### What is put on a queue -/

section Put
variable {go : Json.Library Raw} {X : ℕ → Stage Raw} {w : World Raw} {h : List (Event Raw)}
  {i : ℕ} {q : Peer} {msg : Raw} {sender : Option Peer}

theorem nonceOf_parse {c : Codec Raw} {raw : Raw} {env : Envelope Raw} (hparse : parse c raw = some env) :
    nonceOf c raw = some env.nonce := by
  unfold parse at hparse
  split at hparse
  · cases hparse
  · rename_i e he
    split_ifs at hparse
    obtain rfl := Option.some.inj hparse
    rw [nonceOf, he]
    rfl

/-- A relayed message is an envelope that the hub has accepted. -/
theorem parse_relayed {c : Codec Raw} (hp : Relaying c X (w, h)) (hput : .put i q msg sender ∈ h)
    (hsender : sender ≠ none) : ∃ env, parse c msg = some env := by
  rcases hp.entries i q msg sender hput with ⟨hnone, -⟩ | ⟨-, req, prog, -, hmay⟩
  · exact absurd hnone hsender
  · obtain ⟨env, hparse, -⟩ := hmay.accepted
    exact ⟨env, hparse⟩

/-- Every message on a queue has a nonce, which is 0 for a presence message. -/
theorem nonceOf_put (hp : Relaying (codec go) X (w, h)) (hput : .put i q msg sender ∈ h) :
    ∃ n, nonceOf (codec go) msg = some n ∧ (sender = none → n = 0) := by
  rcases hp.entries i q msg sender hput with ⟨rfl, kind, -, role, rfl⟩ | ⟨hsender, -⟩
  · obtain ⟨payload, hread⟩ : ∃ payload,
        (codec go).unmarshalEnvelope (control (codec go) q.sessionID kind role.name) =
          some ⟨1, 0, 0, q.sessionID, payload⟩ := unmarshalEnvelope_control _ _ _
    exact ⟨0, by rw [nonceOf, hread]; rfl, fun _ => rfl⟩
  · obtain ⟨env, hparse⟩ := parse_relayed hp hput hsender
    exact ⟨env.nonce, nonceOf_parse hparse, fun hnone => absurd hnone hsender⟩

theorem noncesOn_last {c : Codec Raw} {j : ℕ} {prev : Raw} {prevSender : Option Peer} {m : UInt64}
    {id : ℕ} (hlast : lastPut id h = some (j, prev, prevSender)) (hm : nonceOf c prev = some m) :
    ∃ ns, noncesOn c id h = ns ++ [m] := by
  obtain ⟨l, hl, -⟩ := lastPut_split hlast
  exact ⟨l.filterMap (nonceOf c), by simp [noncesOn, hl, hm]⟩

/-- A connection's messages follow one another with increasing nonces. -/
theorem nonce_lt_of_same {c : Codec Raw} (hp : Relaying c X (w, h ++ [.put i q msg sender])) {prev : Raw}
    {prevSender : Option Peer} {q' : Peer} (hsender : sender ≠ none) (hprev : prevSender ≠ none)
    (hput : .put i q' prev prevSender ∈ h) :
    ∀ n ∈ nonceOf c prev, ∀ n' ∈ nonceOf c msg, n < n' := by
  obtain ⟨env, henv⟩ := parse_relayed hp (List.mem_append_left _ hput) hprev
  obtain ⟨env', henv'⟩ := parse_relayed hp List.mem_concat_self hsender
  obtain ⟨s, rfl⟩ := Option.ne_none_iff_exists'.1 hsender
  obtain ⟨s', rfl⟩ := Option.ne_none_iff_exists'.1 hprev
  have hnonces : (relayedBy i (h ++ [.put i q msg (some s)])).Pairwise (Increasing c) := hp.nonces i
  have hmsg : relayedBy i [.put i q msg (some s)] = [msg] := by simp [relayedBy]
  have hmem : prev ∈ relayedBy i h := List.mem_filterMap.2 ⟨_, hput, by simp⟩
  rw [relayedBy_append, hmsg] at hnonces
  have hlt := (List.pairwise_append.1 hnonces).2.2 prev hmem msg (List.mem_singleton_self msg)
  rw [nonceOf_parse henv, nonceOf_parse henv']
  rintro _ ⟨⟩ _ ⟨⟩
  exact hlt env henv env' henv'

/-- The guard accepts one more message exactly if it is in sequence. -/
theorem accepted_put (hp : Relaying (codec go) X (w, h ++ [.put i q msg sender]))
    (hacc : Accepted (codec go) h) :
    Accepted (codec go) (h ++ [.put i q msg sender]) ↔
      ∀ j prev prevSender, lastPut q.id h = some (j, prev, prevSender) → sender ≠ none ∧
        (j = i ∧ prevSender ≠ none ∨
          ∀ n ∈ nonceOf (codec go) prev, ∀ n' ∈ nonceOf (codec go) msg, n < n') := by
  obtain ⟨n, hn, hzero⟩ := nonceOf_put hp List.mem_concat_self
  rw [accepted_iff] at hacc ⊢
  have hself : noncesOn (codec go) q.id (h ++ [.put i q msg sender]) =
      noncesOn (codec go) q.id h ++ [n] := by
    rw [noncesOn_append]
    simp [noncesOn, putOn, hn]
  constructor
  · intro hall j prev prevSender hlast
    have hq := hall q.id
    obtain ⟨-, -, q', -, hput⟩ := lastPut_split hlast
    obtain ⟨m, hm, -⟩ := nonceOf_put hp (List.mem_append_left _ hput)
    obtain ⟨ns, hns⟩ := noncesOn_last hlast hm
    rw [hself, hns] at hq
    have hlt : m < n := (List.pairwise_append.1 hq).2.2 m List.mem_concat_self n (List.mem_singleton_self n)
    refine ⟨fun hnone => ?_, .inr ?_⟩
    · rw [hzero hnone] at hlt
      exact absurd hlt (UInt64.not_lt.2 (UInt64.zero_le ..))
    · rw [hm, hn]
      rintro _ ⟨⟩ _ ⟨⟩
      exact hlt
  · intro hseq id
    by_cases hid : q.id = id
    · subst hid
      rw [hself]
      cases hlast : lastPut q.id h with
      | none =>
        rw [noncesOn, lastPut_eq_none hlast]
        exact List.pairwise_singleton _ n
      | some x =>
        obtain ⟨j, prev, prevSender⟩ := x
        obtain ⟨hsender, hbelow⟩ := hseq j prev prevSender hlast
        obtain ⟨-, -, q', -, hput⟩ := lastPut_split hlast
        obtain ⟨m, hm, -⟩ := nonceOf_put hp (List.mem_append_left _ hput)
        obtain ⟨ns, hns⟩ := noncesOn_last hlast hm
        have hlt : m < n := by
          rcases hbelow with ⟨rfl, hprev⟩ | hbelow
          · exact nonce_lt_of_same hp hsender hprev hput m hm n hn
          · exact hbelow m hm n hn
        have hq := hacc q.id
        rw [hns] at hq ⊢
        refine List.pairwise_append.2 ⟨hq, List.pairwise_singleton _ n, fun m' hm' n' hn' => ?_⟩
        rw [List.mem_singleton.1 hn']
        rcases List.mem_append.1 hm' with hm' | hm'
        · exact UInt64.lt_trans ((List.pairwise_append.1 hq).2.2 m' hm' m (List.mem_singleton_self m)) hlt
        · rw [List.mem_singleton.1 hm']
          exact hlt
    · have hsame : noncesOn (codec go) id (h ++ [.put i q msg sender]) = noncesOn (codec go) id h := by
        rw [noncesOn_append]
        simp [noncesOn, putOn, hid]
      rw [hsame]
      exact hacc id

end Put

/-! ### The result -/

/-- Another step puts nothing on a queue. -/
theorem accepted_quiet {c : Codec Raw} {h h' : List (Event Raw)} (hh : ∀ id, putOn id h' = []) :
    Accepted c (h ++ h') ↔ Accepted c h := by
  simp only [accepted_iff, noncesOn_append]
  simp [noncesOn, hh]

/-- In every run, the clients' guards accept all that is put on their queues if and only if everything is
put there in sequence. -/
theorem accepted_iff_inSequence (go : Json.Library Raw) (l : List (Step Raw)) :
    Run.Always (Run.observe (hub (codec go)).step event) (fun p => Accepted (codec go) p.2) (fresh, []) l ↔
      Run.Guarded (Run.observe (hub (codec go)).step event) (InSequence (codec go)) (fresh, []) l := by
  have hstep (p : World Raw × List (Event Raw)) (l : Step Raw)
      (hp : (∃ X, Relaying (codec go) X p) ∧ Accepted (codec go) p.2) :
      Accepted (codec go) (Run.observe (hub (codec go)).step event p l).2 ↔ InSequence (codec go) p l := by
    obtain ⟨w, h⟩ := p
    obtain ⟨⟨X, hrel⟩, hacc⟩ := hp
    obtain ⟨X', hrel'⟩ := relaying_step hrel l
    unfold Run.observe InSequence at *
    dsimp only at *
    cases hev : event w l with
    | none => simp [hacc]
    | some e =>
      rw [hev, Option.toList_some] at hrel'
      cases e with
      | put i q msg sender =>
        rw [Option.toList_some, accepted_put hrel' hacc]
        constructor
        · rintro hseq _ _ _ _ ⟨⟩
          exact hseq
        · exact fun hseq => hseq i q msg sender rfl
      | _ =>
        rw [Option.toList_some, accepted_quiet fun id => rfl]
        simp [hacc]
  refine Run.always_iff_guarded (J := fun p : World Raw × List (Event Raw) =>
    (∃ X, Relaying (codec go) X p) ∧ Accepted (codec go) p.2) (fun _ hp => hp.2) ?_ ?_ ?_ l
  · rintro p l ⟨⟨X, hrel⟩, hacc⟩ hseq
    exact ⟨relaying_step hrel l, (hstep p l ⟨⟨X, hrel⟩, hacc⟩).2 hseq⟩
  · exact fun p l hp hacc => (hstep p l hp).1 hacc
  · exact ⟨relaying_run (codec go) [], by simp [accepted_iff, noncesOn, putOn]⟩

/-- The agent joins the phone and leaves it. -/
def comesAndGoes : List (Step Json) :=
  [.spawn (.serve "s1" .controller []) (), .advance 0 (), .spawn (.serve "s1" .agent []) ()] ++
    List.replicate 6 (.advance 1 ())

theorem presence_rejected :
    noncesOn (codec Json.documents) 0 (run (codec Json.documents) comesAndGoes).2 = [0, 0] ∧
      ¬ Run.Always (Run.observe (hub (codec Json.documents)).step event)
        (fun p => Accepted (codec Json.documents) p.2) (fresh, []) comesAndGoes := by
  have hnonces : noncesOn (codec Json.documents) 0 (run (codec Json.documents) comesAndGoes).2 = [0, 0] := by
    rfl
  refine ⟨hnonces, fun h => ?_⟩
  have hlast : Accepted (codec Json.documents) (run (codec Json.documents) comesAndGoes).2 := h.last
  have hqueue := accepted_iff.1 hlast 0
  rw [hnonces] at hqueue
  exact absurd hqueue (by decide)

end DeskSync.Signaling
