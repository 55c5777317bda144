import DeskSync.Fleet.SingleUse

/-!
# Guessing a pairing code

A wrong code is compared in the step that reads the challenge, counted by the next call of the
confirmation, and the challenge is burned by the one after. Guesses made at the same time are all
compared before the first is counted (`concurrent_guesses`), and a count that fails is only logged.

`guessesSettle` is the condition under which the bound holds: a challenge is compared while no other
`Confirm` of it is about to count a wrong code, or to burn it after the last attempt; while the
challenge lives, counting succeeds on a counter that has not lapsed before it, and the burning is not
lost. Then at most `maxAttempts` wrong codes are compared, and none matches after that
(`bruteForceBound_of_guessesSettle`). The invariant `Guess`: the wrong comparisons are the recorded
count, plus one while a confirmation is about to record; and once the count has reached the limit, some
confirmation is about to burn the challenge, or it is gone.
-/

namespace DeskSync.Fleet

open Backend Proc

/-! ### Wrong codes -/

/-- At most `maxAttempts` wrong codes are compared with a challenge, and no code matches after them. -/
structure BruteForceBound (maxAttempts : ℕ) (h : List Event) : Prop where
  bounded : ∀ x, h.count (.compared x false) ≤ maxAttempts
  locked : ∀ x h₁ h₂, h = h₁ ++ .compared x true :: h₂ → h₁.count (.compared x false) < maxAttempts

/-! ### The condition -/

/-- The thread is a `Confirm` of `x` that is about to count a wrong code. -/
def records (x : String) : Thread Request Reply Response → Bool
  | ⟨.confirm _ y _ _, .call (.recordFailedAttempt _) _⟩ => y == x
  | _ => false

/-- The thread is a `Confirm` of `x` that is about to burn the challenge. -/
def burns (x : String) : Thread Request Reply Response → Bool
  | ⟨.confirm _ y _ _, .call (.consume _) k⟩ => y == x && !confirms (k someReply)
  | _ => false

/-- The recorded wrong codes have reached the limit. -/
def lockedOut (s : Services) (w : World) (x : String) : Bool :=
  decide (s.pairing.maxAttempts ≤ w.store.redis.recorded x)

/-- A comparison is made while every earlier wrong one has been counted and, at the limit, the challenge
has been burned; counting and burning a live challenge do not fail, and its counter has not lapsed. -/
def guessesSettle (s : Services) (w : World) : Step → Bool
  | .advance i e =>
    match w.threads[i]? with
    | some ⟨.confirm userID x code mobile, .call (.get _) _⟩ =>
      verdict s ⟨userID, x, code, mobile⟩ (exec e (.get x) w.store).1 == none ||
        w.threads.all fun t => !records x t && !(lockedOut s w x && burns x t)
    | some ⟨.confirm _ x _ _, .call (.recordFailedAttempt _) _⟩ =>
      (w.store.redis.stored x).isNone || (e.fault == .none && !w.store.redis.lapsed x)
    | some t@⟨.confirm _ x _ _, .call (.consume _) _⟩ =>
      (w.store.redis.stored x).isNone || !(lockedOut s w x && burns x t) || e.fault != .lost
    | _ => true
  | _ => true

/-! ### The points -/

def Point.isRecording : Point → Bool
  | .recording => true
  | _ => false

def Point.isBurning : Point → Bool
  | .burning => true
  | _ => false

section Points
variable (s : Services) (a : ConfirmArgs) (pt : Point) (x : String)

theorem records_point :
    records x ⟨a.request, Point.prog s a pt⟩ = (a.pairingID == x && pt.isRecording) := by
  cases pt <;> first | rfl | exact (Bool.and_false _).symm | exact (Bool.and_true _).symm

theorem burns_point : burns x ⟨a.request, Point.prog s a pt⟩ = (a.pairingID == x && pt.isBurning) := by
  cases pt <;> first | rfl | exact (Bool.and_false _).symm

variable {s a pt x} {pt' : Point}

/-- Counting is reached from the comparison only. -/
theorem reading_of_isRecording {c : Cmd} {r : Reply c} (h : Next s a pt c r pt')
    (hpt' : pt'.isRecording = true) : pt = .reading := by
  cases pt with
  | reading => rfl
  | recording =>
    cases c with
    | recordFailedAttempt id => obtain ⟨-, ⟨_, -, -, rfl⟩ | ⟨-, _, rfl⟩⟩ := h <;> cases hpt'
    | _ => exact h.elim
  | burning =>
    cases c with
    | consume id =>
      obtain ⟨-, _, rfl⟩ := h
      cases hpt'
    | _ => exact h.elim
  | authorizing d =>
    cases c with
    | deviceForUser id userID => obtain ⟨-, -, ⟨_, rfl⟩ | ⟨_, -, -, rfl⟩⟩ := h <;> cases hpt'
    | _ => exact h.elim
  | establishing d =>
    cases c with
    | upsertActivePairing userID mobile id =>
      obtain ⟨-, -, -, ⟨-, _, rfl⟩ | ⟨_, -, rfl⟩⟩ := h <;> cases hpt'
    | _ => exact h.elim
  | spending p =>
    cases c with
    | consume id =>
      obtain ⟨-, rfl⟩ := h
      cases hpt'
    | _ => exact h.elim
  | returned r => exact h.elim

end Points

/-- Request `i` is about to count a wrong code for `x`. -/
def Records (w : World) (i : ℕ) (x : String) : Prop := ∃ t, w.threads[i]? = some t ∧ records x t = true

/-- Request `i` is about to burn `x`. -/
def Burns (w : World) (i : ℕ) (x : String) : Prop := ∃ t, w.threads[i]? = some t ∧ burns x t = true

theorem Records.point {s : Services} {w : World} (hloc : w.All (ConfirmLocal s)) {i : ℕ} {x : String}
    (h : Records w i x) : ∃ a, w.threads[i]? = some ⟨ConfirmArgs.request a, Point.prog s a .recording⟩ ∧
      a.pairingID = x := by
  obtain ⟨t, hi, ht⟩ := h
  obtain ⟨a, p, rfl, rfl⟩ : ∃ a p, t = ⟨ConfirmArgs.request a, p⟩ ∧ a.pairingID = x := by
    unfold records at ht
    split at ht
    · exact ⟨⟨_, _, _, _⟩, _, rfl, by simpa using ht⟩
    · cases ht
  obtain ⟨pt, rfl⟩ := hloc i _ _ hi a rfl
  rw [records_point] at ht
  cases pt with
  | recording => exact ⟨a, hi, rfl⟩
  | _ => simp [Point.isRecording] at ht

theorem Burns.point {s : Services} {w : World} (hloc : w.All (ConfirmLocal s)) {i : ℕ} {x : String}
    (h : Burns w i x) : ∃ a, w.threads[i]? = some ⟨ConfirmArgs.request a, Point.prog s a .burning⟩ ∧
      a.pairingID = x := by
  obtain ⟨t, hi, ht⟩ := h
  obtain ⟨a, p, rfl, rfl⟩ : ∃ a p, t = ⟨ConfirmArgs.request a, p⟩ ∧ a.pairingID = x := by
    unfold burns at ht
    split at ht
    · exact ⟨⟨_, _, _, _⟩, _, rfl, by simpa using And.left (by simpa using ht)⟩
    · cases ht
  obtain ⟨pt, rfl⟩ := hloc i _ _ hi a rfl
  rw [burns_point] at ht
  cases pt with
  | burning => exact ⟨a, hi, rfl⟩
  | _ => simp [Point.isBurning] at ht

/-! ### Steps -/

section Steps
variable {s : Services} {w : World} {l : Step} {x : String} {i j : ℕ} {e : Env}

/-- A confirmation comes to count by a wrong comparison. -/
theorem records_step (hloc : w.All (ConfirmLocal s)) (h : Records ((system s).step w l) j x) :
    Records w j x ∨ event s w l = some (.compared x false) ∧ ∃ e, l = .advance j e := by
  obtain ⟨a, hj, rfl⟩ := h.point (confirmLocal_step hloc l)
  rcases confirm_cases hloc hj with hold | ⟨⟨e, hp⟩ | hp⟩ | ⟨e, pt, c, k, pt', rfl, hcall, hprog, hp, hnext⟩
  · exact .inl ⟨_, hold, by rw [records_point]; simp [Point.isRecording]⟩
  · cases hp
  · cases hp
  · have hpt' : pt'.isRecording = true := by
      have hx := records_point s a .recording a.pairingID
      rw [hp, records_point] at hx
      simpa [Point.isRecording] using hx
    obtain rfl := reading_of_isRecording hnext hpt'
    right
    cases hprog
    obtain ⟨-, hnext⟩ := hnext
    refine ⟨?_, e, rfl⟩
    rw [event_get hcall]
    split at hnext
    · rcases hnext with ⟨_, rfl⟩ | rfl <;> cases hpt'
    · rename_i hv
      exact congrArg (Option.map _) hv
    · obtain ⟨_, -, rfl⟩ := hnext
      cases hpt'

/-- After a wrong comparison the confirmation is about to count. -/
theorem records_of_compared (hloc : w.All (ConfirmLocal s))
    (h : event s w l = some (.compared x false)) :
    ∃ i e, l = .advance i e ∧ Records ((system s).step w l) i x := by
  obtain ⟨i, e, a, id, k, rfl, rfl, hi, hv⟩ := event_compared h
  obtain ⟨pt, hpt⟩ := hloc i _ _ hi a rfl
  obtain ⟨pt', hpt', hnext⟩ := next_of_call s a hpt.symm (exec e (.get id) w.store).1
  have hrec : pt' = .recording := by
    cases pt with
    | reading =>
      obtain ⟨rfl, hnext⟩ := hnext
      rw [hv] at hnext
      exact hnext
    | _ => exact hnext.elim
  subst hrec
  refine ⟨i, e, rfl, ⟨a.request, Point.prog s a .recording⟩, ?_, by
    rw [records_point]; simp [Point.isRecording]⟩
  rw [(system s).step_advance hi, ← hpt']
  exact List.getElem?_set_self (List.getElem?_eq_some_iff.1 hi).1

/-- What changes the recorded count of a challenge: a confirmation that counts. -/
theorem recorded_step (honly : w.All fun q p => p.Only q.mayCall) :
    ((system s).step w l).store.redis.recorded x = w.store.redis.recorded x ∨
      ((system s).step w l).store.redis.stored x = none ∨ event s w l = some (.saved x) ∨
      ∃ i e, l = .advance i e ∧ Records w i x := by
  rcases (system s).step_cases w l with hs | ⟨q, e, rfl, hs⟩ | ⟨i, e, q, c, k, rfl, hi, hs⟩ | ⟨d, rfl, hs⟩
  · rw [hs]
    exact .inl rfl
  · rw [hs]
    exact .inl rfl
  · rw [hs]
    dsimp only [system]
    rcases exec_redis e c w.store with hr | ⟨hf, ⟨ch, ttl, rfl, hr⟩ | ⟨id, rfl, hr⟩ | ⟨id, rfl, hr⟩⟩
    · rw [hr]
      exact .inl rfl
    · rw [hr, recorded_save]
      by_cases hx : x = ch.pairingID
      · subst hx
        right; right; left
        cases q with
        | initiate userID desktop => simp [event, hi, hf]
        | _ => exact (honly i _ _ hi).1.elim
      · exact .inl (if_neg hx)
    · rw [hr]
      by_cases hx : x = id
      · subst hx
        right; right; right
        refine ⟨i, e, rfl, _, hi, ?_⟩
        cases q with
        | confirm userID pairingID code mobile =>
          obtain ⟨rfl, -⟩ := honly i _ _ hi
          simp [records]
        | _ => exact (honly i _ _ hi).1.elim
      · exact .inl (recorded_record_ne _ _ _ hx)
    · rw [hr, stored_consume]
      by_cases hx : x = id
      · exact .inr (.inl (if_pos hx))
      · exact .inl (recorded_consume_ne _ _ _ hx)
  · rw [hs]
    exact .inl rfl

/-- A comparison finds every earlier one counted, and the challenge unlocked. -/
theorem settled_of_compared {b : Bool} (hg : guessesSettle s w l = true)
    (hev : event s w l = some (.compared x b)) :
    (∀ i, ¬ Records w i x) ∧ (lockedOut s w x = true → ∀ i, ¬ Burns w i x) := by
  obtain ⟨j, e, a, id, k, rfl, rfl, hj, hv⟩ := event_compared hev
  simp only [guessesSettle, hj, ConfirmArgs.request] at hg
  rw [hv] at hg
  simp only [reduceCtorEq, Bool.or_eq_true, beq_iff_eq, false_or, List.all_eq_true, Bool.and_eq_true,
    Bool.not_eq_true', Bool.and_eq_false_iff] at hg
  constructor
  · rintro i ⟨t, hi, ht⟩
    rw [(hg t (List.mem_of_getElem? hi)).1] at ht
    cases ht
  · rintro hlock i ⟨t, hi, ht⟩
    rcases (hg t (List.mem_of_getElem? hi)).2 with h | h
    · rw [h] at hlock; cases hlock
    · rw [h] at ht; cases ht

/-- While the challenge lives, counting goes through, and the count is reported. -/
theorem count_step (hloc : w.All (ConfirmLocal s)) (hg : guessesSettle s w (.advance i e) = true)
    (hlive : w.store.redis.stored x ≠ none) (hrec : Records w i x) :
    ((system s).step w (.advance i e)).store.redis.recorded x = w.store.redis.recorded x + 1 ∧
      ¬ Records ((system s).step w (.advance i e)) i x ∧
      (s.pairing.maxAttempts ≤ w.store.redis.recorded x + 1 →
        Burns ((system s).step w (.advance i e)) i x) := by
  obtain ⟨a, hi, rfl⟩ := hrec.point hloc
  obtain ⟨k, hprog⟩ : ∃ k, Point.prog s a .recording = .call (.recordFailedAttempt a.pairingID) k :=
    ⟨_, rfl⟩
  rw [hprog] at hi
  have hg : e.fault = .none ∧ w.store.redis.lapsed a.pairingID = false := by
    simpa [guessesSettle, hi, ConfirmArgs.request, Option.isNone_iff_eq_none, hlive] using hg
  obtain ⟨hcount, hrec⟩ := recordFailedAttempt_live w.store.redis a.pairingID hg.2
  have hreply : (exec e (.recordFailedAttempt a.pairingID) w.store).1.1 =
      .ok (w.store.redis.recorded a.pairingID + 1) := by
    rw [(exec_goes hg.1 _).1]
    exact hcount
  have hstore : (exec e (.recordFailedAttempt a.pairingID) w.store).2.redis =
      (RedisStore.recordFailedAttempt a.pairingID w.store.redis).2 := by
    rw [(exec_goes hg.1 _).2]
    rfl
  obtain ⟨pt', hpt', hnext⟩ := next_of_call s a hprog
    (exec e (.recordFailedAttempt a.pairingID) w.store).1
  have hafter : ((system s).step w (.advance i e)).threads[i]? =
      some ⟨a.request, Point.prog s a pt'⟩ := by
    rw [(system s).step_advance hi, ← hpt']
    exact List.getElem?_set_self (List.getElem?_eq_some_iff.1 hi).1
  refine ⟨?_, ?_, fun hmax => ⟨_, hafter, ?_⟩⟩
  · rw [(system s).step_advance hi]
    change (exec e (.recordFailedAttempt a.pairingID) w.store).2.redis.recorded a.pairingID = _
    rw [hstore, hrec]
  · rintro ⟨t, ht, hr⟩
    rw [hafter] at ht
    cases ht
    rw [records_point] at hr
    obtain ⟨-, ⟨_, -, -, rfl⟩ | ⟨-, _, rfl⟩⟩ := hnext <;> simp [Point.isRecording] at hr
  · rw [burns_point]
    obtain ⟨-, ⟨_, -, -, rfl⟩ | ⟨hlt, -⟩⟩ := hnext
    · simp [Point.isBurning]
    · exact absurd (hlt _ hreply) (not_lt.2 hmax)

/-- At the limit, a live challenge is gone after the burning. -/
theorem burn_step (hloc : w.All (ConfirmLocal s)) (hg : guessesSettle s w (.advance i e) = true)
    (hlive : w.store.redis.stored x ≠ none) (hlock : lockedOut s w x = true) (hburn : Burns w i x) :
    ((system s).step w (.advance i e)).store.redis.stored x = none := by
  obtain ⟨a, hi, rfl⟩ := hburn.point hloc
  obtain ⟨k, hprog⟩ : ∃ k, Point.prog s a .burning = .call (.consume a.pairingID) k := ⟨_, rfl⟩
  rw [hprog] at hi
  obtain ⟨t, ht, hburn⟩ := hburn
  rw [hi] at ht
  cases ht
  refine stored_consume_step hi ?_
  simp only [guessesSettle, hi, ConfirmArgs.request, Bool.or_eq_true, Option.isNone_iff_eq_none, hlive,
    false_or, hlock, Bool.true_and, Bool.not_eq_true', bne_iff_ne] at hg
  exact hg.resolve_left fun hno => by cases hno.symm.trans hburn

end Steps

/-! ### The invariant -/

/-- The number of wrong codes compared with the challenge. -/
abbrev wrongs (x : String) (h : List Event) : ℕ := h.count (.compared x false)

/-- Where the guessing of a challenge stands. -/
inductive Guess (s : Services) (w : World) (h : List Event) (x : String) : Prop
  | unborn (gone : w.store.redis.stored x = none) (unsaved : x ∉ h.filterMap Event.savedID)
      (quiet : ∀ i, ¬ Records w i x) (none : wrongs x h = 0)
  | dead (gone : w.store.redis.stored x = none) (saved : x ∈ h.filterMap Event.savedID)
      (bound : wrongs x h ≤ s.pairing.maxAttempts)
  | idle (saved : x ∈ h.filterMap Event.savedID) (quiet : ∀ i, ¬ Records w i x)
      (counted : w.store.redis.recorded x = wrongs x h) (bound : wrongs x h ≤ s.pairing.maxAttempts)
      (burn : s.pairing.maxAttempts ≤ wrongs x h → ∃ i, Burns w i x)
  | recording (i : ℕ) (saved : x ∈ h.filterMap Event.savedID) (records : Records w i x)
      (only : ∀ j, Records w j x → j = i) (counted : w.store.redis.recorded x + 1 = wrongs x h)
      (bound : wrongs x h ≤ s.pairing.maxAttempts)

/-- The invariant of a run with its history. -/
structure GuessInv (s : Services) (p : World × List Event) : Prop where
  loc : p.1.All (ConfirmLocal s)
  only : p.1.All fun q p => p.Only q.mayCall
  guess : ∀ x, Guess s p.1 p.2 x
  locked : ∀ x b h₁ h₂, p.2 = h₁ ++ .compared x b :: h₂ → wrongs x h₁ < s.pairing.maxAttempts

section Step
variable {s : Services} {w : World} {h : List Event} {l : Step} {x : String}

theorem Guess.bound (hx : Guess s w h x) : wrongs x h ≤ s.pairing.maxAttempts := by
  cases hx with
  | unborn _ _ _ none => omega
  | dead _ _ bound => exact bound
  | idle _ _ _ bound _ => exact bound
  | recording _ _ _ _ _ bound => exact bound

/-- A comparison is made only while there are attempts left. -/
theorem Guess.lt_of_compared (hx : Guess s w h x) (hg : guessesSettle s w l = true) {b : Bool}
    (hev : event s w l = some (.compared x b)) : wrongs x h < s.pairing.maxAttempts := by
  have hsettled := settled_of_compared hg hev
  cases hx with
  | unborn gone _ _ _ => exact absurd gone (compared_stored hev)
  | dead gone _ _ => exact absurd gone (compared_stored hev)
  | idle _ _ counted bound burn =>
    by_contra hge
    obtain ⟨i, hi⟩ := burn (not_lt.1 hge)
    exact hsettled.2 (decide_eq_true (counted ▸ not_lt.1 hge)) i hi
  | recording i _ records _ _ _ => exact absurd records (hsettled.1 i)

/-- The steps of other requests leave a request where it is. -/
theorem stays {P : Thread Request Reply Response → Prop} {i : ℕ} (hi : ∃ t, w.threads[i]? = some t ∧ P t)
    (hl : ∀ e, l ≠ .advance i e) : ∃ t, ((system s).step w l).threads[i]? = some t ∧ P t := by
  obtain ⟨t, ht, hp⟩ := hi
  rcases (system s).thread_next l ht with ht' | ⟨e, -, -, hadv, -⟩
  · exact ⟨t, ht', hp⟩
  · exact absurd hadv (hl e)

/-- A saved challenge starts with no attempts recorded. -/
theorem recorded_of_saved (hev : event s w l = some (.saved x)) :
    ((system s).step w l).store.redis.recorded x = 0 := by
  obtain ⟨i, e, q, ch, ttl, k, rfl, rfl, hf, hi⟩ := event_saved hev
  have hredis : (exec e (.save ch ttl) w.store).2.redis = (RedisStore.save ch ttl w.store.redis).2 := by
    rw [exec_store hf]
    rfl
  rw [(system s).step_advance hi]
  change (exec e (.save ch ttl) w.store).2.redis.recorded ch.pairingID = 0
  rw [hredis, recorded_save, if_pos rfl]

theorem wrongs_step (x : String) : wrongs x (h ++ (event s w l).toList) =
    wrongs x h + if event s w l = some (.compared x false) then 1 else 0 := by
  rw [wrongs, List.count_append]
  cases event s w l with
  | none => simp
  | some ev => simp [List.count_singleton]

/-- The guessing of a live challenge goes on. -/
theorem guess_live (hw : GuessInv s (w, h)) (hg : guessesSettle s w l = true)
    (hsaved : x ∈ (h ++ (event s w l).toList).filterMap Event.savedID)
    (hlive : w.store.redis.stored x ≠ none)
    (hlive' : ((system s).step w l).store.redis.stored x ≠ none)
    (hns : event s w l ≠ some (.saved x))
    (hbound : wrongs x (h ++ (event s w l).toList) ≤ s.pairing.maxAttempts) :
    Guess s ((system s).step w l) (h ++ (event s w l).toList) x := by
  have hwrongs := wrongs_step (s := s) (w := w) (h := h) (l := l) x
  have hguess : Guess s w h x := hw.guess x
  cases hguess with
  | unborn gone _ _ _ => exact absurd gone hlive
  | dead gone _ _ => exact absurd gone hlive
  | idle _ quiet counted _ burn =>
    have hcount : ((system s).step w l).store.redis.recorded x = w.store.redis.recorded x := by
      rcases recorded_step (s := s) (w := w) (l := l) (x := x) hw.only with hr | hr | hr | ⟨i, e, -, hi⟩
      · exact hr
      · exact absurd hr hlive'
      · exact absurd hr hns
      · exact absurd hi (quiet i)
    by_cases hev : event s w l = some (.compared x false)
    · rw [if_pos hev] at hwrongs
      obtain ⟨i, e, rfl, hi⟩ := records_of_compared hw.loc hev
      refine .recording i hsaved hi (fun j hj => ?_) (by omega) hbound
      rcases records_step hw.loc hj with hj | ⟨-, e', hl⟩
      · exact absurd hj (quiet j)
      · exact (Label.advance.inj hl).1.symm
    · rw [if_neg hev] at hwrongs
      refine .idle hsaved (fun j hj => ?_) (by omega) hbound (fun hmax => ?_)
      · rcases records_step hw.loc hj with hj | ⟨hc, -⟩
        · exact quiet j hj
        · exact hev hc
      · obtain ⟨i, hi⟩ := burn (by omega)
        refine ⟨i, stays hi ?_⟩
        rintro e rfl
        exact hlive' (burn_step hw.loc hg hlive (decide_eq_true (by omega)) hi)
  | recording i _ hrec only counted _ =>
    have hev : event s w l ≠ some (.compared x false) := fun hev =>
      (settled_of_compared hg hev).1 i hrec
    have honly : ∀ j, Records ((system s).step w l) j x → j = i := by
      intro j hj
      rcases records_step hw.loc hj with hj | ⟨hc, -⟩
      · exact only j hj
      · exact absurd hc hev
    rw [if_neg hev] at hwrongs
    by_cases hl : ∃ e, l = .advance i e
    · obtain ⟨e, rfl⟩ := hl
      obtain ⟨hcount, hquiet, hburn⟩ :
          ((system s).step w (.advance i e)).store.redis.recorded x = w.store.redis.recorded x + 1 ∧
            _ ∧ _ := count_step hw.loc hg hlive hrec
      refine .idle hsaved (fun j hj => ?_) (by omega) hbound (fun hmax => ⟨i, hburn (by omega)⟩)
      obtain rfl := honly j hj
      exact hquiet hj
    · have hl : ∀ e, l ≠ .advance i e := fun e he => hl ⟨e, he⟩
      refine .recording i hsaved (stays hrec hl) honly ?_ hbound
      rcases recorded_step (s := s) (w := w) (l := l) (x := x) hw.only with hr | hr | hr | ⟨j, e, rfl, hj⟩
      · omega
      · exact absurd hr hlive'
      · exact absurd hr hns
      · obtain rfl := only j hj
        exact absurd rfl (hl e)

/-- A challenge that has not been saved stays so, or is born. -/
theorem guess_unborn (hw : GuessInv s (w, h)) (hunsaved : x ∉ h.filterMap Event.savedID) :
    Guess s ((system s).step w l) (h ++ (event s w l).toList) x := by
  have hguess : Guess s w h x := hw.guess x
  cases hguess with
  | dead _ saved _ => exact absurd saved hunsaved
  | idle saved _ _ _ _ => exact absurd saved hunsaved
  | recording _ saved _ _ _ _ => exact absurd saved hunsaved
  | unborn gone _ quiet hnone =>
    have hcmp : ∀ b, event s w l ≠ some (.compared x b) := fun b hev => compared_stored hev gone
    have hwrongs := wrongs_step (s := s) (w := w) (h := h) (l := l) x
    rw [if_neg (hcmp false), hnone] at hwrongs
    have hquiet : ∀ i, ¬ Records ((system s).step w l) i x := by
      intro i hi
      rcases records_step hw.loc hi with hi | ⟨hc, -⟩
      · exact quiet i hi
      · exact hcmp false hc
    by_cases hev : event s w l = some (.saved x)
    · have hmax := s.pairing.maxAttempts_pos
      have hzero := recorded_of_saved hev
      exact .idle (by simp [hev, Event.savedID]) hquiet (by omega) (by omega) (fun h => by omega)
    · refine .unborn ?_ ?_ hquiet hwrongs
      · by_contra hst
        rcases stored_step hw.only hst with hst | hst
        · exact hst gone
        · exact hev hst
      · rw [List.filterMap_append, List.mem_append]
        rintro (hmem | hmem)
        · exact hunsaved hmem
        · obtain ⟨ev, hmem, hid⟩ := List.mem_filterMap.1 hmem
          cases ev with
          | saved y =>
            cases hid
            exact hev (by simpa using hmem)
          | _ => cases hid

theorem guessInv_step (hw : GuessInv s (w, h)) (hg : guessesSettle s w l = true)
    (hfresh : ∀ x, event s w l = some (.saved x) → x ∉ h.filterMap Event.savedID) :
    GuessInv s ((system s).step w l, h ++ (event s w l).toList) := by
  have hguess : ∀ x, Guess s w h x := hw.guess
  refine ⟨confirmLocal_step hw.loc l, only_step hw.only l, fun x => ?_, ?_⟩
  · by_cases hsaved : x ∈ h.filterMap Event.savedID
    · have hsaved' : x ∈ (h ++ (event s w l).toList).filterMap Event.savedID := by
        rw [List.filterMap_append]
        exact List.mem_append_left _ hsaved
      have hns : event s w l ≠ some (.saved x) := fun hev => hfresh x hev hsaved
      have hbound : wrongs x (h ++ (event s w l).toList) ≤ s.pairing.maxAttempts := by
        rw [wrongs_step]
        split_ifs with hev
        · exact (hguess x).lt_of_compared hg hev
        · exact (hguess x).bound
      by_cases hlive' : ((system s).step w l).store.redis.stored x = none
      · exact .dead hlive' hsaved' hbound
      · exact guess_live hw hg hsaved' ((stored_step hw.only hlive').resolve_right hns) hlive' hns hbound
    · exact guess_unborn hw hsaved
  · intro x b h₁ h₂ heq
    have heq : h ++ (event s w l).toList = h₁ ++ .compared x b :: h₂ := heq
    cases hev : event s w l with
    | none =>
      rw [hev, Option.toList_none, List.append_nil] at heq
      exact hw.locked x b h₁ h₂ heq
    | some ev =>
      rw [hev, Option.toList_some] at heq
      rcases List.eq_nil_or_concat h₂ with rfl | ⟨h₃, ev', rfl⟩
      · obtain ⟨rfl, hlast⟩ := List.append_inj' heq rfl
        obtain rfl := List.singleton_inj.1 hlast
        exact (hguess x).lt_of_compared hg hev
      · rw [List.concat_eq_append, ← List.cons_append, ← List.append_assoc] at heq
        exact hw.locked x b h₁ h₃ (List.append_inj' heq rfl).1

end Step

theorem guessInv_init (s : Services) (db : FleetDb) (now : Time) :
    GuessInv s (⟨.init db now, []⟩, []) := by
  refine ⟨Pool.All.nil _, Pool.All.nil _, fun x => .unborn rfl List.not_mem_nil ?_ rfl, ?_⟩
  · rintro i ⟨t, hi, -⟩
    cases hi
  · intro x b h₁ h₂ heq
    exact absurd heq.symm (by simp)

theorem GuessInv.bruteForceBound {s : Services} {w : World} {h : List Event} (hw : GuessInv s (w, h)) :
    BruteForceBound s.pairing.maxAttempts h :=
  ⟨fun x => (hw.guess x).bound, fun x h₁ h₂ heq => hw.locked x true h₁ h₂ heq⟩

/-- In every run in which the guesses of a challenge settle, at most `maxAttempts` wrong codes are
compared with it and no code matches after them. -/
theorem bruteForceBound_of_guessesSettle (s : Services) (db : FleetDb) (now : Time) (l : List Step)
    (hids : FreshIDs (history s (.init db now) l))
    (h : Run.Guarded (system s).step (fun w l => guessesSettle s w l = true) ⟨.init db now, []⟩ l) :
    BruteForceBound s.pairing.maxAttempts (history s (.init db now) l) :=
  (history_invariant (I := GuessInv s) (fun _ _ _ hw hg hfresh => guessInv_step hw hg hfresh)
    (guessInv_init s db now) hids h).bruteForceBound

/-! ### Guessing at the same time -/

def guess : Step := .spawn (.confirm "u1" "x" "0" "m1") (goes "")

/-- Two wrong guesses are compared before either is counted; a single attempt is allowed. -/
def concurrentGuesses : List Step :=
  initiated ++ [guess, guess, .advance 1 (goes ""), .advance 2 (goes "")]

/-- A wrong guess burns the challenge, and a second one finds none. -/
def sequentialGuesses : List Step :=
  initiated ++ [guess, .advance 1 (goes ""), .advance 1 (goes ""), .advance 1 (goes ""), guess,
    .advance 2 (goes "")]

set_option maxRecDepth 8000 in
theorem concurrent_guesses :
    ¬ BruteForceBound sampleServices.pairing.maxAttempts
      (history sampleServices (.init sampleDb 0) concurrentGuesses) := by
  intro h
  exact absurd (h.bounded "x") (by decide)

set_option maxRecDepth 8000 in
theorem bruteForceBound_sequentialGuesses :
    BruteForceBound sampleServices.pairing.maxAttempts
      (history sampleServices (.init sampleDb 0) sequentialGuesses) :=
  bruteForceBound_of_guessesSettle sampleServices sampleDb 0 sequentialGuesses (by decide) (by decide)

end DeskSync.Fleet
