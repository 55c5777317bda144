import DeskSync.Media.Bitrate

/-!
# The adaptive bitrate controller of the phone, and more loss

`adaptive_bitrate.dart`, which mirrors the controller of the agent with the same thresholds and factors.
It rounds where the agent truncates, and its integers are 64 bits wide and signed.

`Rule` is what both do at a target. `more_loss_iff`: of two samples that differ in their loss alone, the
larger loss leads to a target that is not higher, unless the smaller loss raises the target, the larger
one does not, and the estimate is below the target the larger one leads to: the estimate bounds a raise,
and nothing else.
-/

namespace DeskSync.Viewer.Bitrate

open Number Media

structure BitrateLimits where
  minBps : ℤ := 300000
  maxBps : ℤ := 8000000
  startBps : ℤ := 2500000

structure NetworkSample where
  loss : ℚ
  rttMs : ℤ
  estimatedBps : Option ℤ

structure BitrateDecision where
  targetBps : ℤ
  tier : QualityTier
  deriving DecidableEq, Repr

def tierFor (bps : ℤ) : QualityTier :=
  if bps < 800000 then .low
  else if bps < 2500000 then .medium
  else if bps < 5000000 then .high
  else .ultra

/-- `_highRttMs`. -/
def highRttMs : ℤ := 400

/-- Addition of 64-bit integers. -/
def add64 (a b : ℤ) : ℤ := (a + b).bmod (2 ^ 64)

/-- `q.round()`, the nearest 64-bit integer. -/
def round64 (q : ℚ) : ℤ := clamp (-2 ^ 63) (2 ^ 63 - 1) (roundAway q)

structure AdaptiveBitrateController where
  limits : BitrateLimits
  target : ℤ

namespace AdaptiveBitrateController

def new (limits : BitrateLimits) : AdaptiveBitrateController where
  limits := limits
  target := clamp limits.minBps limits.maxBps limits.startBps

def targetBps (c : AdaptiveBitrateController) : ℤ := c.target

def setTarget (c : AdaptiveBitrateController) (value : ℤ) : AdaptiveBitrateController :=
  { c with target := clamp c.limits.minBps c.limits.maxBps value }

/-- `(_target * _increaseFraction).round()`. -/
def increase (c : AdaptiveBitrateController) : ℤ := round64 (c.target * increaseFraction)

/-- `(_target * factor).round()`. -/
def lowered (c : AdaptiveBitrateController) (loss : ℚ) : ℤ := round64 (c.target * factor loss)

def observe (c : AdaptiveBitrateController) (sample : NetworkSample) :
    AdaptiveBitrateController × BitrateDecision :=
  let loss := clamp 0 1 sample.loss
  let c' :=
    if lossDecrease ≤ loss then c.setTarget (c.lowered loss)
    else if loss ≤ lossIncrease ∧ sample.rttMs ≤ highRttMs then
      let next := add64 c.target c.increase
      let next := match sample.estimatedBps with
        | some est =>
          let ceiling := if est < c.limits.minBps then c.limits.minBps else est
          if next < ceiling then next else ceiling
        | none => next
      c.setTarget next
    else c
  (c', { targetBps := c'.target, tier := tierFor c'.target })

/-- The controller after a sample. -/
def step (c : AdaptiveBitrateController) (sample : NetworkSample) : AdaptiveBitrateController :=
  (c.observe sample).1

/-- The target is within the limits. -/
def InRange (c : AdaptiveBitrateController) : Prop :=
  c.limits.minBps ≤ c.target ∧ c.target ≤ c.limits.maxBps

end AdaptiveBitrateController

/-! ### The rule of both controllers -/

/-- What a controller does at a target `t`: the limits, the raised target, and the lowered target of
each loss. -/
structure Rule (α : Type) where
  lo : α
  hi : α
  t : α
  raised : α
  lowered : ℚ → α

/-- The loss is small enough for a raise. -/
def Healthy (loss : ℚ) (calm : Prop) : Prop := loss ≤ lossIncrease ∧ calm

instance (loss : ℚ) (calm : Prop) [Decidable calm] : Decidable (Healthy loss calm) :=
  inferInstanceAs (Decidable (_ ∧ _))

namespace Rule

variable {α : Type} [LinearOrder α] {ρ : Rule α} {a b : ℚ} {calm : Prop} [Decidable calm]
  {ceiling : Option α}

/-- The raised target, bounded by the estimate, where there is one. -/
def bounded (ρ : Rule α) : Option α → α
  | some c => min ρ.raised c
  | none => ρ.raised

/-- The target that a loss leads to when it does not raise it. -/
def unraised (ρ : Rule α) (loss : ℚ) : α :=
  if lossDecrease ≤ loss then clamp ρ.lo ρ.hi (ρ.lowered loss) else ρ.t

def next (ρ : Rule α) (loss : ℚ) (calm : Prop) [Decidable calm] (ceiling : Option α) : α :=
  if Healthy loss calm then clamp ρ.lo ρ.hi (ρ.bounded ceiling) else ρ.unraised loss

structure Lawful (ρ : Rule α) : Prop where
  lo_le : ρ.lo ≤ ρ.t
  le_hi : ρ.t ≤ ρ.hi
  lowered_le : ∀ q, ρ.lowered q ≤ ρ.t
  lowered_anti : ∀ a b, a ≤ b → ρ.lowered b ≤ ρ.lowered a

theorem Lawful.unraised_le (h : ρ.Lawful) (q : ℚ) : ρ.unraised q ≤ ρ.t := by
  unfold unraised
  split
  · exact (clamp_mono (h.lo_le.trans h.le_hi) (h.lowered_le q)).trans (clamp_of_mem h.lo_le h.le_hi).le
  · exact le_rfl

theorem Lawful.unraised_anti (h : ρ.Lawful) (hab : a ≤ b) : ρ.unraised b ≤ ρ.unraised a := by
  by_cases ha : lossDecrease ≤ a
  · unfold unraised
    rw [if_pos ha, if_pos (ha.trans hab)]
    exact clamp_mono (h.lo_le.trans h.le_hi) (h.lowered_anti a b hab)
  · have ht : ρ.unraised a = ρ.t := if_neg ha
    rw [ht]
    exact h.unraised_le b

/-- An unraised target is not above a raise if and only if the estimate is not below it. -/
theorem Lawful.unraised_le_raise_iff (h : ρ.Lawful) (hr : ρ.t ≤ ρ.raised)
    (hc : ∀ c ∈ ceiling, ρ.lo ≤ c) (q : ℚ) :
    ρ.unraised q ≤ clamp ρ.lo ρ.hi (ρ.bounded ceiling) ↔ ∀ c ∈ ceiling, ρ.unraised q ≤ c := by
  have hu := h.unraised_le q
  rw [clamp_eq (h.lo_le.trans h.le_hi)]
  cases ceiling with
  | none =>
    refine iff_of_true ?_ fun c hc' => by cases hc'
    exact le_max_of_le_right (le_min (hu.trans hr) (hu.trans h.le_hi))
  | some c =>
    have hlo := hc c rfl
    simp only [bounded, Option.mem_def, Option.some.injEq, forall_eq']
    constructor
    · intro hle
      refine hle.trans (max_le hlo ?_)
      exact (min_le_left _ _).trans (min_le_right _ _)
    · intro hle
      exact le_max_of_le_right (le_min (le_min (hu.trans hr) hle) (hu.trans h.le_hi))

/-- The smaller loss raises the target, the larger one does not, and the estimate keeps the raise below
what the larger loss leads to. -/
def Undercut (ρ : Rule α) (a b : ℚ) (calm : Prop) (ceiling : Option α) : Prop :=
  Healthy a calm ∧ ¬Healthy b calm ∧ ∃ c ∈ ceiling, c < ρ.unraised b

theorem Lawful.next_le_iff (h : ρ.Lawful) (hab : a ≤ b) (hr : Healthy a calm → ρ.t ≤ ρ.raised)
    (hc : ∀ c ∈ ceiling, ρ.lo ≤ c) :
    ρ.next b calm ceiling ≤ ρ.next a calm ceiling ↔ ¬ρ.Undercut a b calm ceiling := by
  unfold next Undercut
  by_cases ha : Healthy a calm
  · by_cases hb : Healthy b calm
    · rw [if_pos ha, if_pos hb]
      exact iff_of_true le_rfl fun hcut => hcut.2.1 hb
    · rw [if_pos ha, if_neg hb, h.unraised_le_raise_iff (hr ha) hc]
      simp only [ha, hb, not_false_eq_true, true_and, not_exists, not_and, not_lt]
  · have hb : ¬Healthy b calm := fun hb => ha ⟨hab.trans hb.1, hb.2⟩
    rw [if_neg ha, if_neg hb]
    exact iff_of_true (h.unraised_anti hab) fun hcut => ha hcut.1

end Rule

theorem clamp_loss_mono {a b : ℚ} (h : a ≤ b) : clamp 0 1 a ≤ clamp 0 1 b :=
  clamp_mono (by norm_num) h

/-- A small loss is not a large one. -/
theorem not_lossDecrease_le {loss : ℚ} (h : loss ≤ lossIncrease) : ¬lossDecrease ≤ loss := by
  have hlt : lossIncrease < lossDecrease := by norm_num [lossIncrease, lossDecrease]
  exact not_le.2 (lt_of_le_of_lt h hlt)

/-! ### The controller of the agent -/

section Agent

open Media.AdaptiveBitrateController

variable {c : Media.AdaptiveBitrateController}

/-- The rule of the agent. -/
def agentRule (c : Media.AdaptiveBitrateController) : Rule UInt32 where
  lo := c.limits.minBps
  hi := c.limits.maxBps
  t := c.target
  raised := c.target + c.increase
  lowered := c.lowered

/-- The estimate that bounds a raise of the agent. -/
def agentCeiling (c : Media.AdaptiveBitrateController) (s : Media.NetworkSample) : Option UInt32 :=
  s.estimatedBps.map (max · c.limits.minBps)

theorem agent_step (c : Media.AdaptiveBitrateController) (s : Media.NetworkSample) :
    (c.step s).target =
      (agentRule c).next (clamp 0 1 s.loss) (s.rttMs ≤ Media.highRttMs) (agentCeiling c s) := by
  unfold Rule.next
  by_cases hh : Healthy (clamp 0 1 s.loss) (s.rttMs ≤ Media.highRttMs)
  · rw [if_pos hh, step_healthy hh]
    unfold Media.AdaptiveBitrateController.raised agentCeiling
    cases s.estimatedBps <;> rfl
  · rw [if_neg hh]
    unfold Rule.unraised
    by_cases hl : lossDecrease ≤ clamp 0 1 s.loss
    · rw [if_pos hl, step_lossy hl]
      rfl
    · rw [if_neg hl, step_hold hl hh]
      rfl

theorem agentRule_lawful (h : c.InRange) : (agentRule c).Lawful where
  lo_le := h.1
  le_hi := h.2
  lowered_le q := by
    have hmul : (c.target.toNat : ℚ) * factor q ≤ c.target.toNat :=
      mul_le_of_le_one_right (by positivity) (factor_le_one q)
    show c.lowered q ≤ c.target
    rw [UInt32.le_iff_toNat_le, lowered, toNat_asU32]
    exact (min_le_left _ _).trans (Nat.floor_le_of_le hmul)
  lowered_anti a b hab := asU32_mono (mul_le_mul_of_nonneg_left (factor_anti hab) (by positivity))

theorem agent_raised {s : Media.NetworkSample} (hover : ¬c.Overflows s) (hs : s.Healthy) :
    c.target ≤ c.target + c.increase := by
  have hlt : c.target.toNat + c.increase.toNat < 2 ^ 32 := by
    by_contra hge
    exact hover ⟨hs, not_lt.1 hge⟩
  rw [UInt32.le_iff_toNat_le, UInt32.toNat_add, Nat.mod_eq_of_lt hlt]
  omega

/-- The larger loss of the agent's sample `b` leads to more than the smaller one of `a`. -/
def AgentUndercut (c : Media.AdaptiveBitrateController) (a b : Media.NetworkSample) : Prop :=
  (agentRule c).Undercut (clamp 0 1 a.loss) (clamp 0 1 b.loss) (a.rttMs ≤ Media.highRttMs)
    (agentCeiling c a)

theorem agent_iff {a b : Media.NetworkSample} (h : c.InRange) (hrtt : a.rttMs = b.rttMs)
    (hest : a.estimatedBps = b.estimatedBps) (hloss : a.loss ≤ b.loss) (hover : ¬c.Overflows a) :
    (c.step b).target ≤ (c.step a).target ↔ ¬AgentUndercut c a b := by
  have hceiling : agentCeiling c b = agentCeiling c a := by
    unfold agentCeiling
    rw [hest]
  rw [agent_step, agent_step, hceiling]
  simp only [← hrtt]
  refine (agentRule_lawful h).next_le_iff (clamp_loss_mono hloss) (agent_raised hover) ?_
  intro e he
  obtain ⟨est, -, rfl⟩ := Option.map_eq_some_iff.1 he
  exact le_max_right _ _

end Agent

/-! ### The controller of the phone -/

section Phone

variable {c : AdaptiveBitrateController}

/-- The rule of the phone. -/
def phoneRule (c : AdaptiveBitrateController) : Rule ℤ where
  lo := c.limits.minBps
  hi := c.limits.maxBps
  t := c.target
  raised := add64 c.target c.increase
  lowered := c.lowered

/-- The estimate that bounds a raise of the phone. -/
def phoneCeiling (c : AdaptiveBitrateController) (s : NetworkSample) : Option ℤ :=
  s.estimatedBps.map (max · c.limits.minBps)

theorem min_eq_ite (a b : ℤ) : (if a < b then a else b) = min a b := by
  split
  · next h => exact (min_eq_left h.le).symm
  · next h => exact (min_eq_right (not_lt.1 h)).symm

theorem max_eq_ite (a b : ℤ) : (if a < b then b else a) = max a b := by
  split
  · next h => exact (max_eq_right h.le).symm
  · next h => exact (max_eq_left (not_lt.1 h)).symm

theorem phone_step (c : AdaptiveBitrateController) (s : NetworkSample) :
    (c.step s).target =
      (phoneRule c).next (clamp 0 1 s.loss) (s.rttMs ≤ highRttMs) (phoneCeiling c s) := by
  unfold Rule.next
  by_cases hh : Healthy (clamp 0 1 s.loss) (s.rttMs ≤ highRttMs)
  · rw [if_pos hh]
    unfold AdaptiveBitrateController.step AdaptiveBitrateController.observe phoneCeiling
    simp only
    rw [if_neg (not_lossDecrease_le hh.1), if_pos (And.intro hh.1 hh.2)]
    cases s.estimatedBps with
    | none => rfl
    | some est =>
      simp only [min_eq_ite, max_eq_ite]
      rfl
  · rw [if_neg hh]
    unfold Rule.unraised AdaptiveBitrateController.step AdaptiveBitrateController.observe
    simp only
    by_cases hl : lossDecrease ≤ clamp 0 1 s.loss
    · rw [if_pos hl, if_pos hl]
      rfl
    · rw [if_neg hl, if_neg hl, if_neg fun h => hh ⟨h.1, h.2⟩]
      rfl

theorem round64_mono {p q : ℚ} (hp : 0 ≤ p) (h : p ≤ q) : round64 p ≤ round64 q :=
  clamp_mono (by decide) (roundAway_mono_of_nonneg hp h)

theorem round64_le {q : ℚ} {n : ℤ} (hq : 0 ≤ q) (hn : q ≤ n) : round64 q ≤ n := by
  have hround : roundAway q ≤ n := by
    obtain ⟨m, rfl⟩ := Int.eq_ofNat_of_zero_le (Int.cast_nonneg_iff.1 (hq.trans hn))
    exact roundAway_le_of_le hq (by exact_mod_cast hn)
  have hnonneg := roundAway_nonneg hq
  rw [round64, clamp_eq (by decide)]
  omega

theorem phoneRule_lawful (h : c.InRange) (hpos : 0 ≤ c.limits.minBps) : (phoneRule c).Lawful where
  lo_le := h.1
  le_hi := h.2
  lowered_le q := by
    have ht : (0 : ℚ) ≤ c.target := Int.cast_nonneg (hpos.trans h.1)
    exact round64_le (mul_nonneg ht (factor_nonneg q)) (mul_le_of_le_one_right ht (factor_le_one q))
  lowered_anti a b hab := by
    have ht : (0 : ℚ) ≤ c.target := Int.cast_nonneg (hpos.trans h.1)
    exact round64_mono (mul_nonneg ht (factor_nonneg b)) (mul_le_mul_of_nonneg_left (factor_anti hab) ht)

/-- The addition in `observe` overflows. -/
def Overflows (c : AdaptiveBitrateController) (s : NetworkSample) : Prop :=
  Healthy (clamp 0 1 s.loss) (s.rttMs ≤ highRttMs) ∧ 2 ^ 63 ≤ c.target + c.increase

theorem phone_raised {s : NetworkSample} (h : c.InRange) (hpos : 0 ≤ c.limits.minBps)
    (hover : ¬Overflows c s) (hs : Healthy (clamp 0 1 s.loss) (s.rttMs ≤ highRttMs)) :
    c.target ≤ add64 c.target c.increase := by
  have hlt : c.target + c.increase < 2 ^ 63 := by
    by_contra hge
    exact hover ⟨hs, not_lt.1 hge⟩
  have ht : 0 ≤ c.target := hpos.trans h.1
  have hinc : 0 ≤ c.increase := by
    have hprod : (0 : ℚ) ≤ c.target * increaseFraction :=
      mul_nonneg (Int.cast_nonneg ht) (by norm_num [increaseFraction])
    have hround := roundAway_nonneg hprod
    rw [AdaptiveBitrateController.increase, round64, clamp_eq (by decide)]
    omega
  rw [add64, Int.bmod_eq_of_le (by omega) (by omega)]
  omega

/-- The larger loss of the phone's sample `b` leads to more than the smaller one of `a`. -/
def PhoneUndercut (c : AdaptiveBitrateController) (a b : NetworkSample) : Prop :=
  (phoneRule c).Undercut (clamp 0 1 a.loss) (clamp 0 1 b.loss) (a.rttMs ≤ highRttMs)
    (phoneCeiling c a)

theorem phone_iff {a b : NetworkSample} (h : c.InRange) (hpos : 0 ≤ c.limits.minBps)
    (hrtt : a.rttMs = b.rttMs) (hest : a.estimatedBps = b.estimatedBps) (hloss : a.loss ≤ b.loss)
    (hover : ¬Overflows c a) : (c.step b).target ≤ (c.step a).target ↔ ¬PhoneUndercut c a b := by
  have hceiling : phoneCeiling c b = phoneCeiling c a := by
    unfold phoneCeiling
    rw [hest]
  rw [phone_step, phone_step, hceiling]
  simp only [← hrtt]
  refine (phoneRule_lawful h hpos).next_le_iff (clamp_loss_mono hloss) (phone_raised h hpos hover) ?_
  intro e he
  obtain ⟨est, -, rfl⟩ := Option.map_eq_some_iff.1 he
  exact le_max_right _ _

end Phone

/-! ### Both -/

/-- In both controllers more loss does not earn a higher target, unless the estimate has kept the raise
of the smaller loss below it. -/
theorem more_loss_iff :
    (∀ (c : Media.AdaptiveBitrateController) (a b : Media.NetworkSample), c.InRange →
      a.rttMs = b.rttMs → a.estimatedBps = b.estimatedBps → a.loss ≤ b.loss → ¬c.Overflows a →
        ((c.step b).target ≤ (c.step a).target ↔ ¬AgentUndercut c a b)) ∧
    (∀ (c : AdaptiveBitrateController) (a b : NetworkSample), c.InRange → 0 ≤ c.limits.minBps →
      a.rttMs = b.rttMs → a.estimatedBps = b.estimatedBps → a.loss ≤ b.loss → ¬Overflows c a →
        ((c.step b).target ≤ (c.step a).target ↔ ¬PhoneUndercut c a b)) :=
  ⟨fun _ _ _ h hrtt hest hloss hover => agent_iff h hrtt hest hloss hover,
    fun _ _ _ h hpos hrtt hest hloss hover => phone_iff h hpos hrtt hest hloss hover⟩

/-- The first target of the agent, and no loss against a loss of 20%. -/
theorem default_monotone :
    ((Media.AdaptiveBitrateController.new .default).step ⟨1 / 5, 50, none⟩).target ≤
        ((Media.AdaptiveBitrateController.new .default).step ⟨0, 50, none⟩).target ∧
      ((AdaptiveBitrateController.new {}).step ⟨1 / 5, 50, none⟩).target ≤
        ((AdaptiveBitrateController.new {}).step ⟨0, 50, none⟩).target := by
  constructor
  · refine (more_loss_iff.1 _ ⟨0, 50, none⟩ ⟨1 / 5, 50, none⟩ ⟨by decide, by decide⟩ rfl rfl
      (by norm_num) ?_).2 ?_
    · rintro ⟨-, hover⟩
      exact absurd hover (by decide +kernel)
    · rintro ⟨-, -, e, he, -⟩
      cases he
  · refine (more_loss_iff.2 _ ⟨0, 50, none⟩ ⟨1 / 5, 50, none⟩ ⟨by decide, by decide⟩ (by decide) rfl rfl
      (by norm_num) ?_).2 ?_
    · rintro ⟨-, hover⟩
      exact absurd hover (by decide +kernel)
    · rintro ⟨-, -, e, he, -⟩
      cases he

/-- An estimate of 1 Mbps takes the target from 2.5 Mbps down to it without loss, and a loss of 5% does
not, in both controllers. Without an estimate the same happens where the sum overflows, and where a
target of the phone is negative. -/
theorem estimate_undercuts :
    (∃ (c : Media.AdaptiveBitrateController) (a b : Media.NetworkSample), c.InRange ∧
      a.rttMs = b.rttMs ∧ a.estimatedBps = b.estimatedBps ∧ a.loss ≤ b.loss ∧ ¬c.Overflows a ∧
        (c.step a).target < (c.step b).target) ∧
    (∃ (c : AdaptiveBitrateController) (a b : NetworkSample), c.InRange ∧ 0 ≤ c.limits.minBps ∧
      a.rttMs = b.rttMs ∧ a.estimatedBps = b.estimatedBps ∧ a.loss ≤ b.loss ∧ ¬Overflows c a ∧
        (c.step a).target < (c.step b).target) ∧
    (∃ (c : Media.AdaptiveBitrateController) (a b : Media.NetworkSample), c.InRange ∧
      a.rttMs = b.rttMs ∧ a.estimatedBps = none ∧ b.estimatedBps = none ∧ a.loss ≤ b.loss ∧
        (c.step a).target < (c.step b).target) ∧
    (∃ (c : AdaptiveBitrateController) (a b : NetworkSample), c.InRange ∧ 0 ≤ c.limits.minBps ∧
      a.rttMs = b.rttMs ∧ a.estimatedBps = none ∧ b.estimatedBps = none ∧ a.loss ≤ b.loss ∧
        (c.step a).target < (c.step b).target) ∧
    (∃ (c : AdaptiveBitrateController) (a b : NetworkSample), c.InRange ∧ ¬Overflows c a ∧
      a.rttMs = b.rttMs ∧ a.estimatedBps = none ∧ b.estimatedBps = none ∧ a.loss ≤ b.loss ∧
        (c.step a).target < (c.step b).target) := by
  refine ⟨⟨.new .default, ⟨0, 50, some 1000000⟩, ⟨1 / 20, 50, some 1000000⟩, ⟨by decide, by decide⟩,
      rfl, rfl, by norm_num, ?_, by decide +kernel⟩,
    ⟨.new {}, ⟨0, 50, some 1000000⟩, ⟨1 / 20, 50, some 1000000⟩, ⟨by decide, by decide⟩, by decide,
      rfl, rfl, by norm_num, ?_, by decide +kernel⟩,
    ⟨⟨⟨0, 4294967295, 0⟩, 4294967295⟩, ⟨0, 50, none⟩, ⟨1 / 20, 50, none⟩, ⟨by decide, by decide⟩,
      rfl, rfl, rfl, by norm_num, by decide +kernel⟩,
    ⟨⟨⟨0, 2 ^ 63 - 1, 0⟩, 2 ^ 63 - 1⟩, ⟨0, 50, none⟩, ⟨1 / 20, 50, none⟩, ⟨by decide, by decide⟩,
      by decide, rfl, rfl, rfl, by norm_num, by decide +kernel⟩,
    ⟨⟨⟨-100, -10, 0⟩, -50⟩, ⟨1 / 10, 50, none⟩, ⟨1, 50, none⟩, ⟨by decide, by decide⟩, ?_,
      rfl, rfl, rfl, by norm_num, by decide +kernel⟩⟩
  all_goals
    rintro ⟨-, hover⟩
    exact absurd hover (by decide +kernel)

end DeskSync.Viewer.Bitrate
