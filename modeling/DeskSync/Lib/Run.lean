import Mathlib

/-!
# Runs of a step function

A run folds a total step function over a list of labels. Two predicates speak about the whole run:
`Always I s l` says that `I` holds in every state the run visits, `Guarded g s l` that every label is
taken in a state where its guard holds.

`invariant`: a predicate every step preserves holds at the end of every run.
`Guarded.invariant`: the same for the steps whose guard holds, along guarded runs.
`Guarded.congr`: two guards that agree where an invariant holds allow the same runs.
`Guarded.of_invariant`: where an invariant of every step implies the guard, every run is guarded.
`always_iff_guarded`: when an invariant `J` of the guarded steps implies `I`, and from a state with `J`
only guarded steps stay inside `I`, a run stays inside `I` if and only if it is guarded.
`Guarded.always_iff`: the same among the runs with a further guard.
`Guarded.of_not_exec`: where an unguarded step cannot be made good, a run that ends well is guarded.

What a run did, rather than where it is, is read off its `events`. `observe` carries them along as a
second component of the state, so that an invariant may speak about them. `Follows P h` says that every
entry of a history stands in the relation `P` to the entries before it.
-/

namespace DeskSync.Run

variable {σ α β γ : Type} {step : σ → α → σ} {I J : σ → Prop} {g g' : σ → α → Prop}

/-- The state a run ends in. -/
abbrev exec (step : σ → α → σ) (s : σ) (l : List α) : σ := l.foldl step s

theorem exec_append (s : σ) (l l' : List α) :
    exec step s (l ++ l') = exec step (exec step s l) l' :=
  List.foldl_append

/-- `I` holds in every state the run visits. -/
def Always (step : σ → α → σ) (I : σ → Prop) : σ → List α → Prop
  | s, [] => I s
  | s, a :: l => I s ∧ Always step I (step s a) l

/-- Every label of the run is taken in a state where its guard holds. -/
def Guarded (step : σ → α → σ) (g : σ → α → Prop) : σ → List α → Prop
  | _, [] => True
  | s, a :: l => g s a ∧ Guarded step g (step s a) l

instance Guarded.decidable [∀ s a, Decidable (g s a)] :
    ∀ (s : σ) (l : List α), Decidable (Guarded step g s l)
  | _, [] => isTrue trivial
  | s, a :: l =>
    have := Guarded.decidable (step s a) l
    inferInstanceAs (Decidable (g s a ∧ Guarded step g (step s a) l))

theorem Always.head {s : σ} {l : List α} (h : Always step I s l) : I s := by
  cases l with
  | nil => exact h
  | cons a l => exact h.1

theorem Always.last {s : σ} {l : List α} (h : Always step I s l) : I (exec step s l) := by
  induction l generalizing s with
  | nil => exact h
  | cons a l ih => exact ih h.2

theorem Always.mono (h : ∀ s, I s → J s) {s : σ} {l : List α} (hI : Always step I s l) :
    Always step J s l := by
  induction l generalizing s with
  | nil => exact h s hI
  | cons a l ih => exact ⟨h s hI.1, ih hI.2⟩

theorem Guarded.mono (hg : ∀ s a, g s a → g' s a) {s : σ} {l : List α}
    (h : Guarded step g s l) : Guarded step g' s l := by
  induction l generalizing s with
  | nil => trivial
  | cons a l ih => exact ⟨hg s a h.1, ih h.2⟩

theorem guarded_true (s : σ) (l : List α) : Guarded step (fun _ _ => True) s l := by
  induction l generalizing s with
  | nil => trivial
  | cons a l ih => exact ⟨trivial, ih _⟩

/-- A guard that does not look at the state. -/
theorem guarded_of_forall {g : α → Prop} {l : List α} (h : ∀ a ∈ l, g a) (s : σ) :
    Guarded step (fun _ a => g a) s l := by
  induction l generalizing s with
  | nil => trivial
  | cons a l ih => exact ⟨h a List.mem_cons_self, ih (fun b hb => h b (List.mem_cons_of_mem _ hb)) _⟩

theorem guarded_append {s : σ} {l l' : List α} :
    Guarded step g s (l ++ l') ↔ Guarded step g s l ∧ Guarded step g (exec step s l) l' := by
  induction l generalizing s with
  | nil => simp [Guarded]
  | cons a l ih => simp only [List.cons_append, Guarded, ih, List.foldl_cons, and_assoc]

/-- A predicate that every step preserves holds at the end of every run. -/
theorem invariant (hstep : ∀ s a, I s → I (step s a)) {s : σ} (hs : I s) (l : List α) :
    I (exec step s l) := by
  induction l generalizing s with
  | nil => exact hs
  | cons a l ih => exact ih (hstep s a hs)

/-- A predicate that the guarded steps preserve holds in every state of a guarded run. -/
theorem Guarded.always (hstep : ∀ s a, I s → g s a → I (step s a)) {s : σ} {l : List α}
    (h : Guarded step g s l) (hs : I s) : Always step I s l := by
  induction l generalizing s with
  | nil => exact hs
  | cons a l ih => exact ⟨hs, ih h.2 (hstep s a hs h.1)⟩

theorem Guarded.invariant (hstep : ∀ s a, I s → g s a → I (step s a)) {s : σ} {l : List α}
    (h : Guarded step g s l) (hs : I s) : I (exec step s l) :=
  (h.always hstep hs).last

theorem Guarded.and {s : σ} {l : List α} (h : Guarded step g s l) (h' : Guarded step g' s l) :
    Guarded step (fun s a => g s a ∧ g' s a) s l := by
  induction l generalizing s with
  | nil => trivial
  | cons a l ih => exact ⟨⟨h.1, h'.1⟩, ih h.2 h'.2⟩

/-- Where an invariant of every step implies the guard, every run is guarded. -/
theorem Guarded.of_invariant (hstep : ∀ s a, I s → I (step s a)) (hg : ∀ s a, I s → g s a) {s : σ}
    (hs : I s) (l : List α) : Guarded step g s l := by
  induction l generalizing s with
  | nil => trivial
  | cons a l ih => exact ⟨hg s a hs, ih (hstep s a hs)⟩

/-- Two guards that agree where an invariant holds, which the steps they allow preserve. -/
theorem Guarded.congr (hg : ∀ s a, I s → (g s a ↔ g' s a)) (hstep : ∀ s a, I s → g s a → I (step s a))
    {s : σ} (hs : I s) {l : List α} : Guarded step g s l ↔ Guarded step g' s l := by
  induction l generalizing s with
  | nil => exact Iff.rfl
  | cons a l ih =>
    rw [Guarded, Guarded, hg s a hs]
    exact and_congr_right fun ha => ih (hstep s a hs ((hg s a hs).2 ha))

/-- Where an unguarded step leads to what no later step undoes, a run that does not end there is guarded. -/
theorem Guarded.of_not_exec {g₀ : σ → α → Prop} {B : σ → Prop} (hJ : ∀ s a, J s → g₀ s a → g s a → J (step s a))
    (hbad : ∀ s a, J s → g₀ s a → ¬g s a → B (step s a)) (hB : ∀ s a, B s → B (step s a)) {s : σ} {l : List α}
    (h₀ : Guarded step g₀ s l) (hs : J s) (hend : ¬B (exec step s l)) : Guarded step g s l := by
  induction l generalizing s with
  | nil => trivial
  | cons a l ih =>
    have hg : g s a := by
      by_contra hg
      exact hend (Run.invariant hB (hbad s a hs h₀.1 hg) l)
    exact ⟨hg, ih h₀.2 (hJ s a hs h₀.1 hg) hend⟩

/-- In a run with the guard `g₀`: where `J` carries `I` along guarded steps, and a step that stays inside
`I` must have been guarded, staying inside `I` and being guarded are the same. -/
theorem Guarded.always_iff {g₀ : σ → α → Prop} (hI : ∀ s, J s → I s)
    (hJ : ∀ s a, J s → g₀ s a → g s a → J (step s a))
    (hexact : ∀ s a, J s → g₀ s a → I (step s a) → g s a) {s : σ} {l : List α}
    (h₀ : Guarded step g₀ s l) (hs : J s) : Always step I s l ↔ Guarded step g s l := by
  constructor
  · intro h
    induction l generalizing s with
    | nil => trivial
    | cons a l ih =>
      have hg := hexact s a hs h₀.1 h.2.head
      exact ⟨hg, ih h₀.2 (hJ s a hs h₀.1 hg) h.2⟩
  · intro h
    exact ((h₀.and h).always (fun s a hj hg => hJ s a hj hg.1 hg.2) hs).mono hI

/-- The same for any run. -/
theorem always_iff_guarded (hI : ∀ s, J s → I s) (hJ : ∀ s a, J s → g s a → J (step s a))
    (hexact : ∀ s a, J s → I (step s a) → g s a) {s : σ} (hs : J s) (l : List α) :
    Always step I s l ↔ Guarded step g s l :=
  (guarded_true s l).always_iff hI (fun s a hj _ => hJ s a hj) (fun s a hj _ => hexact s a hj) hs

/-! ### Events -/

/-- The events of a run, in order; `f s a` is the event of the step `a` from `s`, if it is one. -/
def events (step : σ → α → σ) (f : σ → α → Option β) : σ → List α → List β
  | _, [] => []
  | s, a :: l => (f s a).toList ++ events step f (step s a) l

/-- The step that also records its event. -/
def observe (step : σ → α → σ) (f : σ → α → Option β) (p : σ × List β) (a : α) : σ × List β :=
  (step p.1 a, p.2 ++ (f p.1 a).toList)

/-- The same for a step that yields its events, any number of them, with the next state. -/
def record (step : σ → α → σ × List β) (p : σ × List β) (a : α) : σ × List β :=
  ((step p.1 a).1, p.2 ++ (step p.1 a).2)

variable {f : σ → α → Option β}

theorem exec_observe (s : σ) (acc : List β) (l : List α) :
    exec (observe step f) (s, acc) l = (exec step s l, acc ++ events step f s l) := by
  induction l generalizing s acc with
  | nil => simp [events]
  | cons a l ih => simp only [List.foldl_cons, observe, ih, events, List.append_assoc]

/-- What a run yields is put behind what there was. -/
theorem exec_record (step : σ → α → σ × List β) (s : σ) (acc : List β) (l : List α) :
    exec (record step) (s, acc) l =
      ((exec (record step) (s, []) l).1, acc ++ (exec (record step) (s, []) l).2) := by
  induction l generalizing s acc with
  | nil => simp
  | cons a l ih =>
    have hcons (acc : List β) : exec (record step) (s, acc) (a :: l) =
        exec (record step) ((step s a).1, acc ++ (step s a).2) l := rfl
    rw [hcons, hcons, List.nil_append, ih _ (acc ++ (step s a).2), ih _ (step s a).2, List.append_assoc]

theorem events_append (s : σ) (l l' : List α) :
    events step f s (l ++ l') = events step f s l ++ events step f (exec step s l) l' := by
  induction l generalizing s with
  | nil => rfl
  | cons a l ih => simp only [List.cons_append, events, ih, List.foldl_cons, List.append_assoc]

theorem guarded_observe (f : σ → α → Option β) {s : σ} {l : List α} (acc : List β) :
    Guarded (Run.observe step f) (fun p a => g p.1 a) (s, acc) l ↔ Guarded step g s l := by
  induction l generalizing s acc with
  | nil => exact Iff.rfl
  | cons a l ih => exact and_congr_right fun _ => ih _

theorem Guarded.observe (f : σ → α → Option β) {s : σ} {l : List α} (h : Guarded step g s l)
    (acc : List β) : Guarded (Run.observe step f) (fun p a => g p.1 a) (s, acc) l :=
  (guarded_observe f acc).2 h

/-- Where the selected events of a run are distinct, each is new when it happens. -/
theorem guarded_of_nodup {sel : β → Option γ} {s : σ} {acc : List β} {l : List α}
    (h : ((acc ++ events step f s l).filterMap sel).Nodup) :
    Guarded (observe step f) (fun p a => ∀ b c, f p.1 a = some b → sel b = some c →
      c ∉ p.2.filterMap sel) (s, acc) l := by
  induction l generalizing s acc with
  | nil => trivial
  | cons a l ih =>
    rw [events, ← List.append_assoc] at h
    refine ⟨fun b c hb hc hmem => ?_, ih h⟩
    simp only [hb, Option.toList_some, List.filterMap_append, List.filterMap_cons, hc,
      List.filterMap_nil] at h
    have hdisj := (List.nodup_append.1 (List.nodup_append.1 h).1).2.2
    exact hdisj c hmem c (List.mem_singleton_self c) rfl

/-! ### Histories -/

/-- Every entry of the history stands in the relation `P` to the entries before it. -/
def Follows (P : List β → β → Prop) (h : List β) : Prop :=
  ∀ h₁ b h₂, h = h₁ ++ b :: h₂ → P h₁ b

variable {P : List β → β → Prop}

theorem follows_nil : Follows P [] := by
  intro h₁ b h₂ heq
  simp at heq

theorem Follows.concat {h : List β} {b : β} (hh : Follows P h) (hb : P h b) :
    Follows P (h ++ [b]) := by
  intro h₁ b' h₂ heq
  rcases List.eq_nil_or_concat' h₂ with rfl | ⟨h₂, c, rfl⟩
  · obtain ⟨rfl, hbb⟩ := List.append_inj' heq rfl
    obtain rfl := List.singleton_inj.1 hbb
    exact hb
  · rw [← List.cons_append, ← List.append_assoc] at heq
    exact hh h₁ b' h₂ (List.append_inj' heq rfl).1

theorem Follows.append_list {h l : List β} (hh : Follows P h)
    (hl : ∀ l₁ b l₂, l = l₁ ++ b :: l₂ → P (h ++ l₁) b) : Follows P (h ++ l) := by
  induction l using List.reverseRecOn with
  | nil => simpa using hh
  | append_singleton l b ih =>
    rw [← List.append_assoc]
    refine (ih fun l₁ b' l₂ heq => hl l₁ b' (l₂ ++ [b]) ?_).concat (hl l b [] rfl)
    rw [heq]
    simp

theorem Follows.append {h : List β} {o : Option β} (hh : Follows P h) (hb : ∀ b ∈ o, P h b) :
    Follows P (h ++ o.toList) := by
  cases o with
  | none => simpa using hh
  | some b => exact hh.concat (hb b rfl)

theorem Follows.mono {P' : List β → β → Prop} {h : List β} (hh : Follows P h)
    (hP : ∀ h b, P h b → P' h b) : Follows P' h :=
  fun h₁ b h₂ heq => hP h₁ b (hh h₁ b h₂ heq)

/-- What no entry repeats occurs at most once. -/
theorem Follows.countP_le_one {p : β → Bool} {h : List β}
    (hh : Follows (fun h b => p b = true → ∀ b' ∈ h, p b' ≠ true) h) : h.countP p ≤ 1 := by
  induction h using List.reverseRecOn with
  | nil => simp
  | append_singleton h b ih =>
    have hb := hh h b [] rfl
    have hh' := ih fun h₁ b' h₂ heq => hh h₁ b' (h₂ ++ [b]) (by rw [heq]; simp)
    rw [List.countP_append, List.countP_singleton]
    split_ifs with hp
    · rw [List.countP_eq_zero.2 (hb hp)]
    · exact hh'

/-- Where every guarded step keeps an invariant of the state and its history under which its event is
permitted, every event of a guarded run is. -/
theorem Guarded.follows {K : σ × List β → Prop} {g : σ × List β → α → Prop}
    (hstep : ∀ p a, K p → g p a → K (Run.observe step f p a))
    (hP : ∀ p a, K p → g p a → ∀ b ∈ f p.1 a, P p.2 b) {s : σ} {l : List α}
    (h : Guarded (Run.observe step f) g (s, []) l) (hs : K (s, [])) :
    Follows P (exec (Run.observe step f) (s, []) l).2 :=
  (h.invariant (I := fun p : σ × List β => K p ∧ Follows P p.2)
    (fun p a hp hg => ⟨hstep p a hp.1 hg, hp.2.append (hP p a hp.1 hg)⟩) ⟨hs, follows_nil⟩).2

theorem follows_observe {K : σ × List β → Prop} (hstep : ∀ p a, K p → K (observe step f p a))
    (hP : ∀ p a, K p → ∀ b ∈ f p.1 a, P p.2 b) {s : σ} (hs : K (s, [])) (l : List α) :
    Follows P (exec (observe step f) (s, []) l).2 :=
  (guarded_true (s, []) l).follows (fun p a hp _ => hstep p a hp) (fun p a hp _ => hP p a hp) hs

end DeskSync.Run
