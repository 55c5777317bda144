import DeskSync.Lib.Run

/-!
# The sessions the agent answers

`SessionManager::run` of `session_runtime.rs`. Every two seconds the agent asks the backend for the
sessions that wait for it, and spawns `handle_session` for those whose id is not in the set of answered
ids; the set is emptied when it has grown past 512 ids. What the backend answers is a list of labels.

A session is answered once if and only if it is never listed again after the set was emptied
(`answered_once_iff`), and that is a condition on what is listed: number the ids in the order in which
they are first listed; an id is in the set as long as the latest number is in the same block of 512.
-/

namespace DeskSync.Session.Manager

open DeskSync.Run

structure TokenPair where
  accessToken : String
  refreshToken : String
  deriving DecidableEq

structure IceServer where
  urls : List String
  username : String
  credential : String
  deriving DecidableEq

structure SessionRef where
  id : String
  deriving DecidableEq

structure PendingSession where
  session : SessionRef
  signalingURL : String
  signalingTicket : String
  iceServers : List IceServer
  deriving DecidableEq

/-! ### The loop -/

/-- What the requests of one turn of the loop return. -/
inductive Tick
  | pending (sessions : List PendingSession)
  | failed (refresh login : Option TokenPair)

structure Loop where
  tokens : TokenPair
  active : Finset String

def reauth (refresh login : Option TokenPair) : Option TokenPair := refresh <|> login

/-- The body of the loop over the pending sessions; the flag is whether `handle_session` is spawned. -/
def answer (active : Finset String) (sessionID : String) : Finset String × Bool :=
  if sessionID ∈ active then (active, false)
  else
    let active := insert sessionID active
    if active.card > 512 then (insert sessionID ∅, true) else (active, true)

/-- The same with the sessions for which `handle_session` is spawned. -/
def answerSession (active : Finset String) (ps : PendingSession) : Finset String × List PendingSession :=
  let (active, spawn) := answer active ps.session.id
  (active, if spawn then [ps] else [])

/-- A turn of the loop. -/
def tick (loop : Loop) : Tick → Loop × List PendingSession
  | .failed refresh login => ({ loop with tokens := (reauth refresh login).getD loop.tokens }, [])
  | .pending sessions =>
    let (active, spawned) := exec (record answerSession) (loop.active, []) sessions
    ({ loop with active }, spawned)

/-- The sessions for which a run spawns `handle_session`; `login` is `none` when the client or the login
fails. -/
def run (login : Option TokenPair) (ticks : List Tick) : List PendingSession :=
  match login with
  | none => []
  | some tokens => (exec (record tick) (⟨tokens, ∅⟩, []) ticks).2

/-! ### What is listed -/

def Tick.listed : Tick → List String
  | .pending sessions => sessions.map fun ps => ps.session.id
  | .failed _ _ => []

/-- The ids that the polls of a run list, in order. -/
def listed (ticks : List Tick) : List String := ticks.flatMap Tick.listed

def note (ids : List String) (id : String) : List String := if id ∈ ids then ids else ids ++ [id]

/-- The ids in the order in which they are first listed. -/
def firsts (ids : List String) : List String := ids.foldl note []

/-- If `id` has been listed, then its number is in the same block of 512 as the latest one. -/
def InBlock (before : List String) (id : String) : Prop :=
  id ∈ before → (firsts before).idxOf id / 512 = ((firsts before).length - 1) / 512

theorem firsts_concat (ids : List String) (id : String) : firsts (ids ++ [id]) = note (firsts ids) id := by
  rw [firsts, List.foldl_append]
  rfl

theorem mem_firsts {ids : List String} {id : String} : id ∈ firsts ids ↔ id ∈ ids := by
  induction ids using List.reverseRecOn with
  | nil => rfl
  | append_singleton ids x ih =>
    rw [firsts_concat, note]
    split_ifs with hx
    · simp only [List.mem_append, List.mem_singleton, ih]
      constructor
      · exact .inl
      · rintro (h | rfl)
        · exact h
        · exact ih.1 hx
    · simp [ih]

theorem nodup_firsts (ids : List String) : (firsts ids).Nodup := by
  induction ids using List.reverseRecOn with
  | nil => exact List.nodup_nil
  | append_singleton ids x ih =>
    rw [firsts_concat, note]
    split_ifs with hx
    · exact ih
    · exact List.nodup_append.2 ⟨ih, List.nodup_singleton x, fun a ha b hb => by
        rintro rfl
        exact hx (List.mem_singleton.1 hb ▸ ha)⟩

/-! ### The set of answered ids -/

/-- `answerSession` with ids for sessions. -/
def answerID (active : Finset String) (id : String) : Finset String × List String :=
  ((answer active id).1, if (answer active id).2 then [id] else [])

def answered (ids : List String) : Finset String × List String := exec (record answerID) (∅, []) ids

theorem answered_concat (ids : List String) (id : String) :
    answered (ids ++ [id]) = ((answer (answered ids).1 id).1,
      (answered ids).2 ++ if (answer (answered ids).1 id).2 then [id] else []) := by
  rw [answered, exec_append]
  rfl

/-- The ids of the current block. -/
def block (ids : List String) : List String := ids.drop (512 * ((ids.length - 1) / 512))

theorem mem_block {ids : List String} (h : ids.Nodup) {id : String} (hid : id ∈ ids) :
    id ∈ block ids ↔ ids.idxOf id / 512 = (ids.length - 1) / 512 := by
  have hlt := List.idxOf_lt_length_of_mem hid
  have hdrop : id ∈ block ids ↔ 512 * ((ids.length - 1) / 512) ≤ ids.idxOf id := by
    constructor
    · intro hmem
      obtain ⟨i, hi, hget⟩ := List.getElem_of_mem hmem
      simp only [block, List.getElem_drop] at hget
      rw [← hget, h.idxOf_getElem]
      omega
    · intro hle
      have hget : (block ids)[ids.idxOf id - 512 * ((ids.length - 1) / 512)]? = some id := by
        rw [block, List.getElem?_drop, Nat.add_sub_cancel' hle, List.getElem?_idxOf hid]
      exact List.mem_of_getElem? hget
  rw [hdrop]
  omega

theorem length_block (ids : List String) : (block ids).length = ids.length - 512 * ((ids.length - 1) / 512) :=
  List.length_drop

theorem block_concat (ids : List String) (id : String) :
    block (ids ++ [id]) = if (block ids).length = 512 then [id] else block ids ++ [id] := by
  have hblock : block (ids ++ [id]) = (ids ++ [id]).drop (512 * (ids.length / 512)) := by
    rw [block, List.length_append, List.length_singleton, Nat.add_sub_cancel]
  have hlength := length_block ids
  rw [hblock]
  split_ifs with hfull
  · rw [List.drop_append_of_le_length (by omega), List.drop_of_length_le (by omega)]
    rfl
  · have hsame : ids.length / 512 = (ids.length - 1) / 512 := by omega
    rw [hsame, List.drop_append_of_le_length (by omega), block]

/-- As long as no id is listed outside its block, each is answered once and the set has those of the
current block. -/
theorem answered_of_inBlock {ids : List String} (h : Follows InBlock ids) :
    answered ids = ((block (firsts ids)).toFinset, firsts ids) := by
  induction ids using List.reverseRecOn with
  | nil => rfl
  | append_singleton ids id ih =>
    have hbefore : Follows InBlock ids := fun h₁ b h₂ heq => h h₁ b (h₂ ++ [id]) (by rw [heq]; simp)
    rw [answered_concat, ih hbefore, firsts_concat]
    dsimp only
    by_cases hid : id ∈ firsts ids
    · have hmem : id ∈ (block (firsts ids)).toFinset := by
        rw [List.mem_toFinset, mem_block (nodup_firsts ids) hid]
        exact h ids id [] rfl (mem_firsts.1 hid)
      simp [answer, hmem, note, hid]
    · have hnot : id ∉ block (firsts ids) := fun hmem => hid (List.mem_of_mem_drop hmem)
      have hcard : (block (firsts ids)).toFinset.card = (block (firsts ids)).length :=
        List.toFinset_card_of_nodup ((nodup_firsts ids).drop)
      have hle : (block (firsts ids)).length ≤ 512 := by
        rw [length_block]
        omega
      have hinsert : (insert id (block (firsts ids)).toFinset).card = (block (firsts ids)).length + 1 := by
        rw [Finset.card_insert_of_notMem (by simpa using hnot), hcard]
      rw [note, if_neg hid, block_concat]
      simp only [answer, List.mem_toFinset, hnot, if_false, hinsert]
      by_cases hfull : (block (firsts ids)).length = 512
      · simp [hfull]
      · have hsmall : ¬ (block (firsts ids)).length + 1 > 512 := by omega
        simp only [hfull, hsmall, if_false, if_true, List.toFinset_append, Prod.mk.injEq, and_true]
        ext x
        simp

theorem answered_nodup_iff (ids : List String) : (answered ids).2.Nodup ↔ Follows InBlock ids := by
  constructor
  · intro h
    induction ids using List.reverseRecOn with
    | nil => exact follows_nil
    | append_singleton ids id ih =>
      rw [answered_concat] at h
      have hbefore := ih (List.nodup_append.1 h).1
      refine hbefore.concat fun hid => ?_
      rw [answered_of_inBlock hbefore] at h
      have hfirst := mem_firsts.2 hid
      rw [← mem_block (nodup_firsts ids) hfirst]
      by_contra hnot
      have hspawn : (answer (block (firsts ids)).toFinset id).2 = true := by
        unfold answer
        rw [if_neg (by simpa using hnot)]
        dsimp only
        split_ifs <;> rfl
      simp only [hspawn, if_true] at h
      exact (List.nodup_append.1 h).2.2 id hfirst id (List.mem_singleton_self id) rfl
  · intro h
    rw [answered_of_inBlock h]
    exact nodup_firsts ids

/-! ### The run -/

theorem answerSession_ids (active : Finset String) (acc : List PendingSession) (sessions : List PendingSession) :
    let r := exec (record answerSession) (active, acc) sessions
    (r.1, r.2.map fun ps => ps.session.id) =
      exec (record answerID) (active, acc.map fun ps => ps.session.id)
        (sessions.map fun ps => ps.session.id) := by
  induction sessions generalizing active acc with
  | nil => rfl
  | cons ps sessions ih =>
    have hids : (acc ++ (answerSession active ps).2).map (fun ps => ps.session.id) =
        acc.map (fun ps => ps.session.id) ++ (answerID active ps.session.id).2 := by
      rw [List.map_append]
      unfold answerSession answerID
      dsimp only
      split_ifs <;> rfl
    have hactive : (answerSession active ps).1 = (answerID active ps.session.id).1 := rfl
    simp only [List.map_cons, List.foldl_cons, record]
    rw [ih, hids, hactive]

theorem tick_ids (loop : Loop) (t : Tick) :
    ((tick loop t).1.active, (tick loop t).2.map fun ps => ps.session.id) =
      exec (record answerID) (loop.active, []) t.listed := by
  cases t with
  | failed refresh login => rfl
  | pending sessions => exact answerSession_ids loop.active [] sessions

theorem ticks_ids (loop : Loop) (acc : List PendingSession) (ticks : List Tick) :
    let r := exec (record tick) (loop, acc) ticks
    (r.1.active, r.2.map fun ps => ps.session.id) =
      exec (record answerID) (loop.active, acc.map fun ps => ps.session.id) (listed ticks) := by
  induction ticks generalizing loop acc with
  | nil => rfl
  | cons t ticks ih =>
    have htick := tick_ids loop t
    dsimp only [List.foldl_cons, record]
    rw [ih, List.map_append, show listed (t :: ticks) = t.listed ++ listed ticks from rfl, exec_append,
      exec_record _ _ (acc.map _) t.listed, ← htick]

/-- `handle_session` is spawned at most once per session id. -/
def AnsweredOnce (spawned : List PendingSession) : Prop := (spawned.map fun ps => ps.session.id).Nodup

theorem spawned_ids (tokens : TokenPair) (ticks : List Tick) :
    (run (some tokens) ticks).map (fun ps => ps.session.id) = (answered (listed ticks)).2 := by
  have h := ticks_ids ⟨tokens, ∅⟩ [] ticks
  exact congrArg Prod.snd h

/-- A run answers each session at most once, if and only if it never starts or no session is listed
outside its block. -/
theorem answered_once_iff (login : Option TokenPair) (ticks : List Tick) :
    AnsweredOnce (run login ticks) ↔ login = none ∨ Follows InBlock (listed ticks) := by
  cases login with
  | none => simp [AnsweredOnce, run]
  | some tokens => simp [AnsweredOnce, spawned_ids, answered_nodup_iff]

/-! ### A session that stays pending -/

def sessionID (n : ℕ) : String := String.ofList (.replicate (n + 1) 's')

def sessionOf (n : ℕ) : PendingSession := ⟨⟨sessionID n⟩, "", "", []⟩

/-- The first session stays pending while `n` sessions come and go. -/
def staysPending (n : ℕ) : List Tick := (List.range n).map fun i => .pending [sessionOf i, sessionOf 0]

theorem sessionID_injective : Function.Injective sessionID := by
  intro n m h
  have hlength := congrArg (fun s => s.toList.length) h
  simpa [sessionID] using hlength

theorem listed_staysPending (n : ℕ) :
    listed (staysPending (n + 1)) = listed (staysPending n) ++ [sessionID n] ++ [sessionID 0] := by
  rw [staysPending, List.range_succ, List.map_append, listed, List.flatMap_append, List.append_assoc]
  rfl

theorem firsts_staysPending (n : ℕ) :
    firsts (listed (staysPending n) ++ [sessionID n]) = (List.range (n + 1)).map sessionID := by
  induction n with
  | zero => rfl
  | succ n ih =>
    have hfirst : sessionID 0 ∈ (List.range (n + 1)).map sessionID :=
      List.mem_map_of_mem (List.mem_range.2 (by omega))
    have hnew : sessionID (n + 1) ∉ (List.range (n + 1)).map sessionID := by
      intro hmem
      obtain ⟨i, hi, heq⟩ := List.mem_map.1 hmem
      have := sessionID_injective heq
      have := List.mem_range.1 hi
      omega
    have hsame : note ((List.range (n + 1)).map sessionID) (sessionID 0) =
        (List.range (n + 1)).map sessionID := if_pos hfirst
    rw [firsts_concat, listed_staysPending, firsts_concat, ih, hsame, note, if_neg hnew,
      List.range_succ (n := n + 1), List.map_append]
    rfl

theorem staysPending_inBlock {n : ℕ} (h : Follows InBlock (listed (staysPending (n + 1)))) : n < 512 := by
  rw [listed_staysPending] at h
  have hlisted : sessionID 0 ∈ listed (staysPending n) ++ [sessionID n] := by
    rw [← mem_firsts, firsts_staysPending]
    exact List.mem_map_of_mem (List.mem_range.2 (by omega))
  have hnumber := h _ (sessionID 0) [] rfl hlisted
  have hfirst : List.idxOf (sessionID 0) ((List.range (n + 1)).map sessionID) = 0 := by
    rw [List.range_succ_eq_map, List.map_cons, List.idxOf_cons_self]
  rw [firsts_staysPending, hfirst, List.length_map, List.length_range] at hnumber
  omega

/-- After 512 more sessions the first one is answered again. -/
theorem answered_twice : ¬ AnsweredOnce (run (some ⟨"access", "refresh"⟩) (staysPending 513)) := by
  intro h
  rw [AnsweredOnce, spawned_ids, answered_nodup_iff] at h
  exact absurd (staysPending_inBlock h) (by omega)

end DeskSync.Session.Manager
