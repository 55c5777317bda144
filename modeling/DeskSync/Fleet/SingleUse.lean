import DeskSync.Fleet.Confirm

/-!
# Single use of a pairing challenge

`Confirm` reads the challenge first and deletes it last, and drops the result of the deletion. Two
confirmations that both read it before either deletes it both succeed, with two phones
(`concurrent_confirm`); so do two in a row when the deletion is lost.

`takesTurns` rules this out: a `Confirm` reads a challenge successfully only while no other `Confirm` of
it stands between its own comparison and its return, and neither the reply of `UpsertActivePairing` nor
the deletion after it is lost. Under it each challenge leads to at most one success and one paired
device (`singleUse_of_takesTurns`). The life of a challenge has three phases (`Use`): unspent, with at
most one confirmation past its comparison; being spent by that one; and spent, gone from the store for
good, since pairing ids are not drawn twice.
-/

namespace DeskSync.Fleet

open Backend Proc

/-! ### Confirmations of one challenge -/

/-- The handler has returned a pairing. -/
def confirms (q : Handler Response) : Bool :=
  match q.result with
  | some (.pairing (.ok _)) => true
  | _ => false

/-- Request `i` is a `Confirm` of the challenge `x` that has returned success. -/
def Confirmed (w : World) (i : ℕ) (x : String) : Prop :=
  ∃ a q, w.threads[i]? = some ⟨ConfirmArgs.request a, q⟩ ∧ a.pairingID = x ∧ confirms q = true

/-- Each challenge has led to at most one success, and to at most one paired device. -/
structure SingleUse (w : World) (h : List Event) : Prop where
  once : ∀ x i j, Confirmed w i x → Confirmed w j x → i = j
  oneDevice : ∀ x m m', .paired x m ∈ h → .paired x m' ∈ h → m = m'

/-! ### The condition -/

/-- A reply of `Consume`; `Confirm` does not look at it. -/
def someReply : Except RepoError Unit × Here := (.ok (), ⟨0, "", fun _ => none⟩)

/-- The thread is a `Confirm` of `x` that has persisted its pairing and not returned yet. -/
def spends (x : String) : Thread Request Reply Response → Bool
  | ⟨.confirm _ y _ _, .call (.consume _) k⟩ => y == x && confirms (k someReply)
  | _ => false

/-- The thread is a `Confirm` of `x` between its comparison and its return. -/
def holds (x : String) : Thread Request Reply Response → Bool
  | ⟨.confirm _ y _ _, .call (.deviceForUser _ _) _⟩ => y == x
  | ⟨.confirm _ y _ _, .call (.upsertActivePairing _ _ _) _⟩ => y == x
  | t => spends x t

/-- A right comparison is made while no other `Confirm` of the challenge is past its own, and a
`Confirm` loses neither the reply of `UpsertActivePairing` nor the `Consume` after it. -/
def takesTurns (s : Services) (w : World) : Step → Bool
  | .advance i e =>
    match w.threads[i]? with
    | some ⟨.confirm userID x code mobile, .call (.get _) _⟩ =>
      verdict s ⟨userID, x, code, mobile⟩ (exec e (.get x) w.store).1 != some true ||
        w.threads.all fun t => !holds x t
    | some ⟨.confirm _ _ _ _, .call (.upsertActivePairing _ _ _) _⟩ => e.fault != .replyLost
    | some t@⟨.confirm _ x _ _, .call (.consume _) _⟩ => !spends x t || e.fault != .lost
    | _ => true
  | _ => true

/-! ### The points -/

def Point.holding : Point → Bool
  | .authorizing _ | .establishing _ | .spending _ => true
  | _ => false

def Point.isSpending : Point → Bool
  | .spending _ => true
  | _ => false

section Points
variable (s : Services) (a : ConfirmArgs) (pt : Point) (x : String)

theorem holds_point : holds x ⟨a.request, Point.prog s a pt⟩ = (a.pairingID == x && pt.holding) := by
  cases pt <;> first | rfl | exact (Bool.and_false _).symm | exact (Bool.and_true _).symm

theorem spends_point :
    spends x ⟨a.request, Point.prog s a pt⟩ = (a.pairingID == x && pt.isSpending) := by
  cases pt <;> first | rfl | exact (Bool.and_false _).symm

theorem confirms_point : confirms (Point.prog s a pt) = true ↔ ∃ p, pt = .returned (.ok p) := by
  cases pt with
  | returned result => cases result <;> simp [Point.prog, confirms]
  | _ => simp [Point.prog, confirms, PairingService.recordFailure, PairingService.burn,
      PairingService.authorize, PairingService.establish, PairingService.spend]

variable {s a pt x} {pt' : Point}

theorem holding_congr (h : Point.prog s a pt = Point.prog s a pt') : pt.holding = pt'.holding := by
  have hx := holds_point s a pt a.pairingID
  rw [h, holds_point] at hx
  simpa using hx.symm

theorem isSpending_congr (h : Point.prog s a pt = Point.prog s a pt') :
    pt.isSpending = pt'.isSpending := by
  have hx := spends_point s a pt a.pairingID
  rw [h, spends_point] at hx
  simpa using hx.symm

theorem isSpending_of_next {c : Cmd} {r : Reply c} (h : Next s a pt c r pt')
    (hpt' : pt'.isSpending = true) : ∃ d, pt = .establishing d := by
  cases pt with
  | establishing d => exact ⟨d, rfl⟩
  | reading =>
    cases c with
    | get id =>
      obtain ⟨-, h⟩ := h
      split at h
      · rcases h with ⟨_, rfl⟩ | rfl <;> cases hpt'
      · obtain rfl := h
        cases hpt'
      · obtain ⟨_, -, rfl⟩ := h
        cases hpt'
    | _ => exact h.elim
  | recording =>
    cases c with
    | recordFailedAttempt id => obtain ⟨-, ⟨_, -, -, rfl⟩ | ⟨-, _, rfl⟩⟩ := h <;> cases hpt'
    | _ => exact h.elim
  | burning =>
    cases c with
    | consume id =>
      obtain ⟨-, _, rfl⟩ := h
      cases hpt'
    | _ => exact h.elim
  | authorizing d =>
    cases c with
    | deviceForUser id userID => obtain ⟨-, -, ⟨_, rfl⟩ | ⟨_, -, -, rfl⟩⟩ := h <;> cases hpt'
    | _ => exact h.elim
  | spending p =>
    cases c with
    | consume id =>
      obtain ⟨-, rfl⟩ := h
      cases hpt'
    | _ => exact h.elim
  | returned r => exact h.elim

/-- Success is returned from the point that spends the challenge. -/
theorem isSpending_of_next_ok {c : Cmd} {r : Reply c} {p : Pairing}
    (h : Next s a pt c r (.returned (.ok p))) : pt.isSpending = true := by
  cases pt with
  | spending p => rfl
  | reading =>
    cases c with
    | get id =>
      obtain ⟨-, h⟩ := h
      split at h
      · rcases h with ⟨_, hp⟩ | hp <;> cases hp
      · cases h
      · obtain ⟨_, -, hp⟩ := h
        cases hp
    | _ => exact h.elim
  | recording =>
    cases c with
    | recordFailedAttempt id => obtain ⟨-, ⟨_, -, -, hp⟩ | ⟨-, _, hp⟩⟩ := h <;> cases hp
    | _ => exact h.elim
  | burning =>
    cases c with
    | consume id =>
      obtain ⟨-, _, hp⟩ := h
      cases hp
    | _ => exact h.elim
  | authorizing d =>
    cases c with
    | deviceForUser id userID => obtain ⟨-, -, ⟨_, hp⟩ | ⟨_, -, -, hp⟩⟩ := h <;> cases hp
    | _ => exact h.elim
  | establishing d =>
    cases c with
    | upsertActivePairing userID mobile id =>
      obtain ⟨-, -, -, ⟨-, _, hp⟩ | ⟨_, -, hp⟩⟩ := h <;> cases hp
    | _ => exact h.elim
  | returned r => exact h.elim

/-- A point that holds the challenge is reached from another one, or by a right comparison. -/
theorem holding_of_next {c : Cmd} {r : Reply c} (h : Next s a pt c r pt') (hpt : pt ≠ .reading)
    (hpt' : pt'.holding = true) : pt.holding = true := by
  cases pt with
  | reading => exact absurd rfl hpt
  | authorizing d | establishing d | spending p => rfl
  | recording =>
    cases c with
    | recordFailedAttempt id => obtain ⟨-, ⟨_, -, -, rfl⟩ | ⟨-, _, rfl⟩⟩ := h <;> cases hpt'
    | _ => exact h.elim
  | burning =>
    cases c with
    | consume id =>
      obtain ⟨-, _, rfl⟩ := h
      cases hpt'
    | _ => exact h.elim
  | returned r => exact h.elim

end Points

/-- Only confirmations hold a challenge. -/
theorem confirm_of_holds {x : String} {t : Thread Request Reply Response} (h : holds x t = true) :
    ∃ a p, t = ⟨ConfirmArgs.request a, p⟩ ∧ a.pairingID = x := by
  unfold holds spends at h
  split at h
  · exact ⟨⟨_, _, _, _⟩, _, rfl, by simpa using h⟩
  · exact ⟨⟨_, _, _, _⟩, _, rfl, by simpa using h⟩
  · split at h
    · exact ⟨⟨_, _, _, _⟩, _, rfl, by simpa using And.left (by simpa using h)⟩
    · cases h

theorem holds_of_spends {x : String} {t : Thread Request Reply Response} (h : spends x t = true) :
    holds x t = true := by
  unfold holds
  split
  · simp [spends] at h
  · simp [spends] at h
  · exact h

/-- Request `i` holds the challenge `x`. -/
def Holds (w : World) (i : ℕ) (x : String) : Prop := ∃ t, w.threads[i]? = some t ∧ holds x t = true

/-- Request `i` is about to consume the challenge `x` and to return success. -/
def Spends (w : World) (i : ℕ) (x : String) : Prop := ∃ t, w.threads[i]? = some t ∧ spends x t = true

theorem Spends.holds {w : World} {i : ℕ} {x : String} (h : Spends w i x) : Holds w i x := by
  obtain ⟨t, hi, ht⟩ := h
  exact ⟨t, hi, holds_of_spends ht⟩

/-- A holder stands at a holding point. -/
theorem Holds.point {s : Services} {w : World} (hloc : w.All (ConfirmLocal s)) {i : ℕ} {x : String}
    (h : Holds w i x) : ∃ a pt, w.threads[i]? = some ⟨ConfirmArgs.request a, Point.prog s a pt⟩ ∧
      a.pairingID = x ∧ pt.holding = true := by
  obtain ⟨t, hi, ht⟩ := h
  obtain ⟨a, p, rfl, rfl⟩ := confirm_of_holds ht
  obtain ⟨pt, rfl⟩ := hloc i _ _ hi a rfl
  rw [holds_point] at ht
  exact ⟨a, pt, hi, rfl, by simpa using ht⟩

theorem Spends.point {s : Services} {w : World} (hloc : w.All (ConfirmLocal s)) {i : ℕ} {x : String}
    (h : Spends w i x) : ∃ a p, w.threads[i]? = some ⟨ConfirmArgs.request a, Point.prog s a (.spending p)⟩ ∧
      a.pairingID = x := by
  obtain ⟨t, hi, ht⟩ := h
  obtain ⟨a, p, rfl, rfl⟩ := confirm_of_holds (holds_of_spends ht)
  obtain ⟨pt, rfl⟩ := hloc i _ _ hi a rfl
  rw [spends_point] at ht
  cases pt with
  | spending p => exact ⟨a, p, hi, rfl⟩
  | _ => simp [Point.isSpending] at ht

/-! ### Steps -/

section Steps
variable {s : Services} {w : World} {l : Step} {x : String} {j : ℕ}

/-- A challenge comes to be held by a right comparison. -/
theorem holds_step (hloc : w.All (ConfirmLocal s)) (h : Holds ((system s).step w l) j x) :
    Holds w j x ∨ event s w l = some (.compared x true) ∧ ∃ e, l = .advance j e := by
  obtain ⟨a, pt, hj, rfl, hpt⟩ := h.point (confirmLocal_step hloc l)
  rcases confirm_cases hloc hj with hold | ⟨⟨e, hp⟩ | hp⟩ | ⟨e, pt₀, c, k, pt', rfl, hcall, hprog, hp, hnext⟩
  · exact .inl ⟨_, hold, by rw [holds_point, hpt]; simp⟩
  · cases (holding_congr hp).symm.trans hpt
  · cases (holding_congr hp).symm.trans hpt
  · have hpt' : pt'.holding = true := (holding_congr hp).symm.trans hpt
    by_cases hread : pt₀ = .reading
    · subst hread
      right
      cases hprog
      obtain ⟨-, hnext⟩ := hnext
      refine ⟨?_, e, rfl⟩
      rw [event_get hcall]
      split at hnext
      · rcases hnext with ⟨_, rfl⟩ | rfl <;> cases hpt'
      · obtain rfl := hnext
        cases hpt'
      · rename_i hv
        exact congrArg (Option.map _) hv
    · left
      refine ⟨_, hcall, ?_⟩
      rw [hprog, holds_point, holding_of_next hnext hread hpt']
      simp

/-- A challenge comes to be spent by persisting the pairing. -/
theorem spends_step (hloc : w.All (ConfirmLocal s)) (h : Spends ((system s).step w l) j x) :
    Spends w j x ∨ (∃ m, event s w l = some (.paired x m)) ∧ ∃ e, l = .advance j e := by
  obtain ⟨a, p, hj, rfl⟩ := h.point (confirmLocal_step hloc l)
  rcases confirm_cases hloc hj with hold | ⟨⟨e, hp⟩ | hp⟩ | ⟨e, pt, c, k, pt', rfl, hcall, hprog, hp, hnext⟩
  · exact .inl ⟨_, hold, by rw [spends_point]; simp [Point.isSpending]⟩
  · cases hp
  · cases hp
  · have hpt' : pt'.isSpending = true := (isSpending_congr hp).symm
    obtain ⟨d, rfl⟩ := isSpending_of_next hnext hpt'
    right
    cases hprog
    obtain ⟨-, -, -, ⟨-, _, rfl⟩ | ⟨p', hr, -⟩⟩ := hnext
    · cases hpt'
    · refine ⟨⟨a.mobileDeviceID, ?_⟩, e, rfl⟩
      obtain ⟨hf, hok⟩ := exec_ok hr
      have hok : (PairingRepo.upsertActivePairing e a.userID a.mobileDeviceID d w.store.db).1 =
        .ok p' := hok
      rw [event_upsert hcall, hf, hok]
      rfl

/-- A confirmation succeeds from the point where it spends the challenge. -/
theorem confirmed_step (hloc : w.All (ConfirmLocal s)) (h : Confirmed ((system s).step w l) j x) :
    Confirmed w j x ∨ Spends w j x ∧ ∃ e, l = .advance j e := by
  obtain ⟨a, q, hj, rfl, hq⟩ := h
  rcases confirm_cases hloc hj with hold | ⟨⟨e, rfl⟩ | rfl⟩ | ⟨e, pt, c, k, pt', rfl, hcall, hprog, rfl, hnext⟩
  · exact .inl ⟨a, q, hold, rfl, hq⟩
  · cases hq
  · cases hq
  · right
    refine ⟨⟨_, hcall, ?_⟩, e, rfl⟩
    obtain ⟨p, rfl⟩ := (confirms_point s a pt').1 hq
    rw [hprog, spends_point]
    simp [isSpending_of_next_ok hnext]

/-- A pairing is persisted by a holder, which spends the challenge if it learns about it. -/
theorem paired_step (hloc : w.All (ConfirmLocal s)) {m : String}
    (h : event s w l = some (.paired x m)) :
    ∃ i e, l = .advance i e ∧ Holds w i x ∧ ¬ Spends w i x ∧
      (e.fault ≠ .replyLost → Spends ((system s).step w l) i x) := by
  obtain ⟨i, e, a, userID, d, k, rfl, rfl, hlost, hi, hok⟩ := event_paired h
  refine ⟨i, e, rfl, ⟨_, hi, by simp [holds, ConfirmArgs.request]⟩, ?_, fun hreply => ?_⟩
  · rintro ⟨t, ht, hspend⟩
    rw [hi] at ht
    cases ht
    cases hspend
  · have hnone : e.fault = .none := by
      cases he : e.fault <;> simp_all
    obtain ⟨pt, hpt⟩ := hloc i _ _ hi a rfl
    obtain ⟨pt', hpt', hnext⟩ := next_of_call s a hpt.symm
      (exec e (.upsertActivePairing userID m d) w.store).1
    have hspend : pt'.isSpending = true := by
      cases pt with
      | establishing d' =>
        obtain ⟨-, -, -, ⟨⟨err, hr⟩, -⟩ | ⟨p, -, rfl⟩⟩ := hnext
        · have hr : (PairingRepo.upsertActivePairing e userID m d w.store.db).1 = .error err :=
            (exec_goes hnone _).1.symm.trans hr
          rw [hr] at hok
          cases hok
        · rfl
      | _ => exact hnext.elim
    refine ⟨⟨a.request, Point.prog s a pt'⟩, ?_, by rw [spends_point, hspend]; simp⟩
    rw [(system s).step_advance hi, ← hpt']
    exact List.getElem?_set_self (List.getElem?_eq_some_iff.1 hi).1

end Steps

/-! ### The life of a challenge -/

/-- The devices paired through the challenge so far. -/
def pairedWith (x : String) (h : List Event) : List String :=
  h.filterMap fun
    | .paired y m => if y = x then some m else none
    | _ => none

theorem mem_pairedWith {x m : String} {h : List Event} : m ∈ pairedWith x h ↔ .paired x m ∈ h := by
  simp only [pairedWith, List.mem_filterMap]
  constructor
  · rintro ⟨ev, hev, hm⟩
    cases ev with
    | paired y m' =>
      simp only [Option.ite_none_right_eq_some, Option.some.injEq] at hm
      obtain ⟨rfl, rfl⟩ := hm
      exact hev
    | _ => cases hm
  · exact fun h => ⟨_, h, by simp⟩

/-- The phases of a challenge. -/
inductive Use (w : World) (h : List Event) (x : String) : Prop
  | unspent (hold : ∀ i j, Holds w i x → Holds w j x → i = j) (spend : ∀ i, ¬ Spends w i x)
      (paired : pairedWith x h = []) (confirmed : ∀ i, ¬ Confirmed w i x)
  | spending (i : ℕ) (m : String) (hold : ∀ j, Holds w j x → j = i) (spend : Spends w i x)
      (paired : pairedWith x h = [m]) (confirmed : ∀ i, ¬ Confirmed w i x)
  | spent (m : String) (hold : ∀ i, ¬ Holds w i x) (gone : w.store.redis.stored x = none)
      (saved : x ∈ h.filterMap Event.savedID) (paired : pairedWith x h = [m])
      (confirmed : ∀ i j, Confirmed w i x → Confirmed w j x → i = j)

/-- The invariant of a run with its history. -/
structure UseInv (s : Services) (p : World × List Event) : Prop where
  loc : p.1.All (ConfirmLocal s)
  only : p.1.All fun q p => p.Only q.mayCall
  saved : ∀ x, p.1.store.redis.stored x ≠ none → x ∈ p.2.filterMap Event.savedID
  held : ∀ i x, Holds p.1 i x → x ∈ p.2.filterMap Event.savedID
  use : ∀ x, Use p.1 p.2 x

section Step
variable {s : Services} {w : World} {h : List Event} {l : Step} {x : String}

/-- A right comparison finds no holder. -/
theorem no_holder_of_takesTurns (hg : takesTurns s w l = true)
    (hev : event s w l = some (.compared x true)) (i : ℕ) : ¬ Holds w i x := by
  rintro ⟨t, hi, ht⟩
  obtain ⟨j, e, a, id, k, rfl, rfl, hj, hv⟩ := event_compared hev
  simp only [takesTurns, hj, ConfirmArgs.request] at hg
  rw [hv] at hg
  simp only [bne_self_eq_false, Bool.false_or, List.all_eq_true, Bool.not_eq_true'] at hg
  rw [hg t (List.mem_of_getElem? hi)] at ht
  cases ht

/-- The reply of `UpsertActivePairing` is not lost. -/
theorem reply_of_takesTurns {i : ℕ} {e : Env} {m : String} (hg : takesTurns s w (.advance i e) = true)
    (hev : event s w (.advance i e) = some (.paired x m)) : e.fault ≠ .replyLost := by
  obtain ⟨i', e', a, userID, d, k, hl, rfl, -, hi, -⟩ := event_paired hev
  obtain ⟨rfl, rfl⟩ := Label.advance.inj hl
  simpa [takesTurns, hi, ConfirmArgs.request] using hg

/-- The `Consume` of a challenge being spent is not lost. -/
theorem consume_of_takesTurns {i : ℕ} {e : Env} {a : ConfirmArgs} {p : Pairing}
    (hg : takesTurns s w (.advance i e) = true)
    (hi : w.threads[i]? = some ⟨a.request, Point.prog s a (.spending p)⟩) : e.fault ≠ .lost := by
  have hspend : spends a.pairingID ⟨a.request, Point.prog s a (.spending p)⟩ = true := by
    rw [spends_point]
    simp [Point.isSpending]
  obtain ⟨c, k, hprog⟩ : ∃ c k, Point.prog s a (.spending p) = .call (.consume c) k := ⟨_, _, rfl⟩
  rw [hprog] at hi hspend
  simp only [takesTurns, hi, ConfirmArgs.request, Bool.or_eq_true, Bool.not_eq_true', bne_iff_ne] at hg
  exact hg.resolve_left fun hno => by cases hno.symm.trans hspend

theorem pairedWith_append (x : String) (h h' : List Event) :
    pairedWith x (h ++ h') = pairedWith x h ++ pairedWith x h' :=
  List.filterMap_append

/-- Only a pairing through the challenge adds to its devices. -/
theorem pairedWith_toList (hev : ∀ m, event s w l ≠ some (.paired x m)) :
    pairedWith x (h ++ (event s w l).toList) = pairedWith x h := by
  have hnil : pairedWith x (event s w l).toList = [] := by
    refine List.eq_nil_iff_forall_not_mem.2 fun m hm => hev m ?_
    simpa [Option.mem_toList] using mem_pairedWith.1 hm
  rw [pairedWith_append, hnil, List.append_nil]

theorem useInv_step (hw : UseInv s (w, h)) (hg : takesTurns s w l = true)
    (hfresh : ∀ x, event s w l = some (.saved x) → x ∉ h.filterMap Event.savedID) :
    UseInv s ((system s).step w l, h ++ (event s w l).toList) := by
  obtain ⟨hloc, honly, hsaved, hheld, huse⟩ := hw
  have hmono : ∀ x, x ∈ h.filterMap Event.savedID →
      x ∈ (h ++ (event s w l).toList).filterMap Event.savedID := by
    intro x hx
    rw [List.filterMap_append]
    exact List.mem_append_left _ hx
  refine ⟨confirmLocal_step hloc l, only_step honly l, ?_, ?_, ?_⟩
  · intro x hx
    rcases stored_step honly hx with hx | hev
    · exact hmono x (hsaved x hx)
    · simp [hev, Event.savedID]
  · intro i x hi
    rcases holds_step hloc hi with hi | ⟨hev, -⟩
    · exact hmono x (hheld i x hi)
    · exact hmono x (hsaved x (compared_stored hev))
  · intro x
    cases huse x with
    | unspent hold spend paired confirmed =>
      have hconf : ∀ i, ¬ Confirmed ((system s).step w l) i x := by
        intro i hi
        rcases confirmed_step hloc hi with hi | ⟨hi, -⟩
        · exact confirmed i hi
        · exact spend i hi
      by_cases hev : ∃ m, event s w l = some (.paired x m)
      · obtain ⟨m, hev⟩ := hev
        obtain ⟨i, e, rfl, hi, -, hspend⟩ := paired_step hloc hev
        refine .spending i m (fun j hj => ?_) (hspend (reply_of_takesTurns hg hev)) ?_ hconf
        · rcases holds_step hloc hj with hj | ⟨hcmp, -⟩
          · exact hold j i hj hi
          · cases hev.symm.trans hcmp
        · rw [pairedWith_append, paired, hev]
          simp [pairedWith]
      · have hev : ∀ m, event s w l ≠ some (.paired x m) := fun m hm => hev ⟨m, hm⟩
        refine .unspent (fun i j hi hj => ?_) (fun i hi => ?_) ?_ hconf
        · rcases holds_step hloc hi with hi | ⟨hcmp, e, rfl⟩ <;>
            rcases holds_step hloc hj with hj | ⟨hcmp', e', hl⟩
          · exact hold i j hi hj
          · exact absurd hi (no_holder_of_takesTurns hg hcmp' i)
          · exact absurd hj (no_holder_of_takesTurns hg hcmp j)
          · exact (Label.advance.inj hl).1
        · rcases spends_step hloc hi with hi | ⟨⟨m, hm⟩, -⟩
          · exact spend i hi
          · exact hev m hm
        · rw [pairedWith_toList hev, paired]
    | spending i m hold spend paired confirmed =>
      have hcmp : event s w l ≠ some (.compared x true) := fun hcmp =>
        no_holder_of_takesTurns hg hcmp i spend.holds
      have hev : ∀ m, event s w l ≠ some (.paired x m) := by
        intro m' hev
        obtain ⟨j, e, -, hj, hns, -⟩ := paired_step hloc hev
        rw [hold j hj] at hns
        exact hns spend
      have hstay : ∀ j, Holds ((system s).step w l) j x → j = i := by
        intro j hj
        rcases holds_step hloc hj with hj | ⟨hc, -⟩
        · exact hold j hj
        · exact absurd hc hcmp
      obtain ⟨a, p, hi, rfl⟩ := spend.point hloc
      by_cases hl : ∃ e, l = .advance i e
      · obtain ⟨e, rfl⟩ := hl
        refine .spent m (fun j hj => ?_) (stored_consume_step hi (consume_of_takesTurns hg hi))
          (hmono _ (hheld i _ spend.holds)) (by rw [pairedWith_toList hev, paired]) ?_
        · obtain rfl := hstay j hj
          obtain ⟨t, ht, hh⟩ := hj
          rw [(system s).step_advance (c := .consume a.pairingID) (k := _) hi,
            List.getElem?_set_self (List.getElem?_eq_some_iff.1 hi).1] at ht
          cases ht
          cases hh
        · intro j j' hj hj'
          have hone : ∀ j, Confirmed ((system s).step w (.advance i e)) j a.pairingID → j = i := by
            intro j hj
            rcases confirmed_step hloc hj with hj | ⟨hj, -⟩
            · exact absurd hj (confirmed j)
            · exact hold j hj.holds
          rw [hone j hj, hone j' hj']
      · refine .spending i m hstay ?_ (by rw [pairedWith_toList hev, paired]) (fun j hj => ?_)
        · rcases (system s).thread_next l hi with hi' | ⟨e, -, -, hadv, -⟩
          · exact ⟨_, hi', by rw [spends_point]; simp [Point.isSpending]⟩
          · exact absurd ⟨e, hadv⟩ hl
        · rcases confirmed_step hloc hj with hj | ⟨hj, e, hadv⟩
          · exact confirmed j hj
          · obtain rfl := hold j hj.holds
            exact hl ⟨e, hadv⟩
    | spent m hold gone saved paired confirmed =>
      have hev : ∀ m, event s w l ≠ some (.paired x m) := by
        intro m' hev
        obtain ⟨j, e, -, hj, -, -⟩ := paired_step hloc hev
        exact hold j hj
      refine .spent m (fun j hj => ?_) ?_ (hmono x saved) (by rw [pairedWith_toList hev, paired]) ?_
      · rcases holds_step hloc hj with hj | ⟨hcmp, -⟩
        · exact hold j hj
        · exact compared_stored hcmp gone
      · by_contra hst
        rcases stored_step honly hst with hst | hsv
        · exact hst gone
        · exact hfresh x hsv saved
      · intro i j hi hj
        have hold' : ∀ i, Confirmed ((system s).step w l) i x → Confirmed w i x := by
          intro i hi
          rcases confirmed_step hloc hi with hi | ⟨hi, -⟩
          · exact hi
          · exact absurd hi.holds (hold i)
        exact confirmed i j (hold' i hi) (hold' j hj)

end Step

theorem UseInv.singleUse {s : Services} {w : World} {h : List Event} (hw : UseInv s (w, h)) :
    SingleUse w h := by
  refine ⟨fun x i j hi hj => ?_, fun x m m' hm hm' => ?_⟩
  · cases hw.use x with
    | unspent _ _ _ confirmed => exact absurd hi (confirmed i)
    | spending _ _ _ _ _ confirmed => exact absurd hi (confirmed i)
    | spent _ _ _ _ _ confirmed => exact confirmed i j hi hj
  · rw [← mem_pairedWith] at hm hm'
    cases hw.use x with
    | unspent _ _ paired _ => simp [paired] at hm
    | spending _ _ _ _ paired _ => simp_all
    | spent _ _ _ _ paired _ => simp_all

theorem useInv_init (s : Services) (db : FleetDb) (now : Time) : UseInv s (⟨.init db now, []⟩, []) := by
  have hold : ∀ i x, ¬ Holds (⟨.init db now, []⟩ : World) i x := by
    rintro i x ⟨t, hi, -⟩
    cases hi
  refine ⟨Pool.All.nil _, Pool.All.nil _, fun x hx => absurd rfl hx,
    fun i x hi => absurd hi (hold i x), fun x => .unspent ?_ ?_ rfl ?_⟩
  · exact fun i j hi => absurd hi (hold i x)
  · exact fun i hi => hold i x hi.holds
  · rintro i ⟨a, q, hi, -⟩
    cases hi

/-- In every run in which the confirmations of a challenge take turns, each challenge leads to at most
one success and at most one paired device. -/
theorem singleUse_of_takesTurns (s : Services) (db : FleetDb) (now : Time) (l : List Step)
    (hids : FreshIDs (history s (.init db now) l))
    (h : Run.Guarded (system s).step (fun w l => takesTurns s w l = true) ⟨.init db now, []⟩ l) :
    SingleUse ((system s).run (.init db now) l) (history s (.init db now) l) :=
  (history_invariant (I := UseInv s) (fun _ _ _ hw hg hfresh => useInv_step hw hg hfresh)
    (useInv_init s db now) hids h).singleUse

/-! ### Two phones -/

/-- Request `0` stores the challenge `x`, whose code is `7`. -/
def initiated : List Step :=
  [.spawn (.initiate "u1" "d1") (goes ""), .advance 0 (goes "x"), .advance 0 (goes "")]

def confirmFrom (mobile : String) : Step := .spawn (.confirm "u1" "x" "7" mobile) (goes "")

/-- Two phones confirm the challenge, and both read it before either consumes it. -/
def concurrentConfirm : List Step :=
  initiated ++ [confirmFrom "m1", confirmFrom "m2", .advance 1 (goes ""), .advance 2 (goes ""),
    .advance 1 (goes ""), .advance 1 (goes "p1"), .advance 1 (goes ""),
    .advance 2 (goes ""), .advance 2 (goes "p2"), .advance 2 (goes "")]

/-- The second phone starts after the first has been answered. -/
def sequentialConfirm : List Step :=
  initiated ++ [confirmFrom "m1", .advance 1 (goes ""), .advance 1 (goes ""), .advance 1 (goes "p1"),
    .advance 1 (goes ""), confirmFrom "m2", .advance 2 (goes "")]

set_option maxRecDepth 8000 in
/-- Both requests of `concurrentConfirm` succeed, and pair two devices. -/
theorem concurrent_confirm :
    ¬ SingleUse ((system sampleServices).run (.init sampleDb 0) concurrentConfirm)
      (history sampleServices (.init sampleDb 0) concurrentConfirm) := by
  intro h
  have h12 : (1 : ℕ) = 2 := h.once "x" 1 2
    ⟨⟨"u1", "x", "7", "m1"⟩, _, rfl, rfl, rfl⟩ ⟨⟨"u1", "x", "7", "m2"⟩, _, rfl, rfl, rfl⟩
  exact absurd h12 (by decide)

set_option maxRecDepth 8000 in
theorem singleUse_sequentialConfirm :
    SingleUse ((system sampleServices).run (.init sampleDb 0) sequentialConfirm)
      (history sampleServices (.init sampleDb 0) sequentialConfirm) :=
  singleUse_of_takesTurns sampleServices sampleDb 0 sequentialConfirm (by decide) (by decide)

end DeskSync.Fleet
