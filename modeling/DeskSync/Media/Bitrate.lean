import DeskSync.Lib.Run
import DeskSync.Lib.Number

/-!
# The adaptive bitrate controller of the agent

`transport/src/bitrate.rs`. A sample lowers the target in proportion to the loss, raises it by 8%, or
leaves it; what comes out is clamped to the limits. Fractions are exact rationals. `u32` arithmetic is
that of a release build, which wraps.

`AdaptiveBitrateController.upheld_iff`: a step is as it should be unless the addition overflows.
`bounded_iff`: for given limits no run overflows, and then every run is as it should be, if and only if
8% more than `max_bps` fits in 32 bits or the controller starts below 13, where 8% are truncated to 0.
-/

namespace DeskSync.Media

open Number

/-! ### Thresholds and factors -/

/-- `LOSS_DECREASE`. -/
def lossDecrease : ℚ := 1 / 10

/-- `LOSS_INCREASE`. -/
def lossIncrease : ℚ := 1 / 50

/-- `DECREASE_FACTOR`. -/
def decreaseFactor : ℚ := 17 / 20

/-- `INCREASE_FRACTION`. -/
def increaseFraction : ℚ := 2 / 25

/-- The severity of a loss that has been clamped to `[0, 1]`. -/
def severity (loss : ℚ) : ℚ := clamp 0 1 ((loss - lossDecrease) / (1 - lossDecrease))

/-- What the target is multiplied by on high loss. -/
def factor (loss : ℚ) : ℚ := decreaseFactor - 1 / 4 * severity loss

theorem severity_mono {a b : ℚ} (h : a ≤ b) : severity a ≤ severity b := by
  refine clamp_mono (by norm_num) ?_
  have hpos : (0 : ℚ) ≤ 1 - lossDecrease := by norm_num [lossDecrease]
  exact div_le_div_of_nonneg_right (sub_le_sub_right h _) hpos

theorem factor_anti {a b : ℚ} (h : a ≤ b) : factor b ≤ factor a := by
  have hs := severity_mono h
  unfold factor
  linarith

theorem factor_nonneg (loss : ℚ) : 0 ≤ factor loss := by
  have hs : severity loss ≤ 1 := clamp_le (by norm_num) _
  unfold factor decreaseFactor
  linarith

theorem factor_le_one (loss : ℚ) : factor loss ≤ 1 := by
  have hs : 0 ≤ severity loss := le_clamp (by norm_num) _
  unfold factor decreaseFactor
  linarith

/-! ### Samples -/

structure BitrateLimits where
  minBps : UInt32
  maxBps : UInt32
  startBps : UInt32

/-- `BitrateLimits::default`. -/
def BitrateLimits.default : BitrateLimits where
  minBps := 300000
  maxBps := 8000000
  startBps := 2500000

structure NetworkSample where
  loss : ℚ
  rttMs : UInt32
  estimatedBps : Option UInt32

inductive QualityTier where
  | low
  | medium
  | high
  | ultra
  deriving DecidableEq, Repr

structure BitrateDecision where
  targetBps : UInt32
  tier : QualityTier
  deriving DecidableEq, Repr

/-- `HIGH_RTT_MS`. -/
def highRttMs : UInt32 := 400

def tierFor (bps : UInt32) : QualityTier :=
  if bps < 800000 then .low
  else if bps < 2500000 then .medium
  else if bps < 5000000 then .high
  else .ultra

/-! ### The controller -/

structure AdaptiveBitrateController where
  limits : BitrateLimits
  target : UInt32

namespace AdaptiveBitrateController

def new (limits : BitrateLimits) : AdaptiveBitrateController where
  limits := limits
  target := clamp limits.minBps limits.maxBps limits.startBps

def targetBps (c : AdaptiveBitrateController) : UInt32 := c.target

def setTarget (c : AdaptiveBitrateController) (value : UInt32) : AdaptiveBitrateController :=
  { c with target := clamp c.limits.minBps c.limits.maxBps value }

/-- `(self.target as f32 * INCREASE_FRACTION) as u32`. -/
def increase (c : AdaptiveBitrateController) : UInt32 := asU32 (c.target.toNat * increaseFraction)

/-- `(self.target as f32 * factor) as u32`. -/
def lowered (c : AdaptiveBitrateController) (loss : ℚ) : UInt32 :=
  asU32 (c.target.toNat * factor loss)

def observe (c : AdaptiveBitrateController) (sample : NetworkSample) :
    AdaptiveBitrateController × BitrateDecision :=
  let loss := clamp 0 1 sample.loss
  let c' :=
    if lossDecrease ≤ loss then c.setTarget (c.lowered loss)
    else if loss ≤ lossIncrease ∧ sample.rttMs ≤ highRttMs then
      let next := c.target + c.increase
      let next := match sample.estimatedBps with
        | some est => min next (max est c.limits.minBps)
        | none => next
      c.setTarget next
    else c
  (c', { targetBps := c'.target, tier := tierFor c'.target })

/-- The controller after a sample. -/
def step (c : AdaptiveBitrateController) (sample : NetworkSample) : AdaptiveBitrateController :=
  (c.observe sample).1

end AdaptiveBitrateController

/-- The sample raises the target. -/
def NetworkSample.Healthy (s : NetworkSample) : Prop :=
  clamp 0 1 s.loss ≤ lossIncrease ∧ s.rttMs ≤ highRttMs

/-- The sample lowers the target. -/
def NetworkSample.Lossy (s : NetworkSample) : Prop := lossDecrease ≤ clamp 0 1 s.loss

theorem NetworkSample.Healthy.not_lossy {s : NetworkSample} (h : s.Healthy) : ¬s.Lossy := by
  have hlt : lossIncrease < lossDecrease := by norm_num [lossIncrease, lossDecrease]
  exact not_le.2 (lt_of_le_of_lt h.1 hlt)

namespace AdaptiveBitrateController

variable {c : AdaptiveBitrateController} {s : NetworkSample}

/-- The target a healthy sample asks for, before it is clamped. -/
def raised (c : AdaptiveBitrateController) (estimatedBps : Option UInt32) : UInt32 :=
  match estimatedBps with
  | some est => min (c.target + c.increase) (max est c.limits.minBps)
  | none => c.target + c.increase

theorem step_lossy (h : s.Lossy) : c.step s = c.setTarget (c.lowered (clamp 0 1 s.loss)) :=
  if_pos h

theorem step_healthy (h : s.Healthy) : c.step s = c.setTarget (c.raised s.estimatedBps) := by
  refine (if_neg h.not_lossy).trans ((if_pos h).trans ?_)
  unfold raised
  cases s.estimatedBps <;> rfl

theorem step_hold (hl : ¬s.Lossy) (hh : ¬s.Healthy) : c.step s = c :=
  (if_neg hl).trans (if_neg hh)

@[simp] theorem step_limits : (c.step s).limits = c.limits := by
  by_cases hl : s.Lossy
  · rw [step_lossy hl]
    rfl
  · by_cases hh : s.Healthy
    · rw [step_healthy hh]
      rfl
    · rw [step_hold hl hh]

/-- The target is within the limits. -/
def InRange (c : AdaptiveBitrateController) : Prop :=
  c.limits.minBps ≤ c.target ∧ c.target ≤ c.limits.maxBps

theorem InRange.le (h : c.InRange) : c.limits.minBps ≤ c.limits.maxBps := le_trans h.1 h.2

theorem setTarget_inRange (h : c.limits.minBps ≤ c.limits.maxBps) (value : UInt32) :
    (c.setTarget value).InRange :=
  ⟨le_clamp h value, clamp_le h value⟩

theorem new_inRange {l : BitrateLimits} (h : l.minBps ≤ l.maxBps) : (new l).InRange :=
  ⟨le_clamp h _, clamp_le h _⟩

theorem InRange.step (h : c.InRange) (s : NetworkSample) : (c.step s).InRange := by
  by_cases hl : s.Lossy
  · rw [step_lossy hl]
    exact setTarget_inRange h.le _
  · by_cases hh : s.Healthy
    · rw [step_healthy hh]
      exact setTarget_inRange h.le _
    · rw [step_hold hl hh]
      exact h

theorem toNat_increase (c : AdaptiveBitrateController) :
    c.increase.toNat = 2 * c.target.toNat / 25 := by
  have hfloor : ⌊(c.target.toNat : ℚ) * increaseFraction⌋₊ = 2 * c.target.toNat / 25 := by
    rw [← Nat.floor_div_eq_div (K := ℚ)]
    congr 1
    push_cast [increaseFraction]
    ring
  have hlt := c.target.toNat_lt
  rw [increase, toNat_asU32, hfloor, min_eq_left]
  simp only [UInt32.size]
  omega

/-! ### Overflow -/

/-- The addition in `observe` overflows. -/
def Overflows (c : AdaptiveBitrateController) (s : NetworkSample) : Prop :=
  s.Healthy ∧ 2 ^ 32 ≤ c.target.toNat + c.increase.toNat

/-- No loss to speak of, no delay, and nothing known of the bandwidth. -/
def Unhindered (s : NetworkSample) : Prop :=
  s.loss ≤ 1 / 50 ∧ s.rttMs ≤ 400 ∧ s.estimatedBps = none

/-- The sample overflows nothing, and does not lower the target without a reason. -/
def Upheld (c : AdaptiveBitrateController) (s : NetworkSample) : Prop :=
  ¬c.Overflows s ∧ (Unhindered s → c.target ≤ (c.step s).target)

theorem Unhindered.healthy (h : Unhindered s) : s.Healthy := by
  refine ⟨?_, h.2.1⟩
  rw [clamp_eq (by norm_num)]
  refine max_le (by norm_num [lossIncrease]) ((min_le_left _ _).trans ?_)
  simpa [lossIncrease] using h.1

theorem toNat_raised_none (h : c.target.toNat + c.increase.toNat < 2 ^ 32) :
    (c.raised none).toNat = c.target.toNat + 2 * c.target.toNat / 25 := by
  rw [raised, UInt32.toNat_add, Nat.mod_eq_of_lt h, toNat_increase]

theorem upheld_iff (h : c.InRange) (s : NetworkSample) : c.Upheld s ↔ ¬c.Overflows s := by
  refine and_iff_left_of_imp fun hover hs => ?_
  have hsum : c.target.toNat + c.increase.toNat < 2 ^ 32 := by
    by_contra hge
    exact hover ⟨hs.healthy, not_lt.1 hge⟩
  have hle : c.target ≤ c.raised none := by
    rw [UInt32.le_iff_toNat_le, toNat_raised_none hsum]
    omega
  rw [step_healthy hs.healthy, hs.2.2]
  calc c.target = clamp c.limits.minBps c.limits.maxBps c.target := (clamp_of_mem h.1 h.2).symm
    _ ≤ (c.setTarget (c.raised none)).target := clamp_mono h.le hle

/-! ### Runs -/

/-- Every run of the controller stays within the limits, overflows nothing, and lowers the target only
for a reason. -/
def Sound (l : BitrateLimits) : Prop :=
  ∀ samples, Run.Always step InRange (new l) samples ∧ Run.Guarded step Upheld (new l) samples

/-- 8% more than `max_bps` fits in 32 bits, or 8% of the first target are truncated to 0. -/
def Roomy (l : BitrateLimits) : Prop :=
  l.maxBps.toNat + 2 * l.maxBps.toNat / 25 < 2 ^ 32 ∨ (new l).target < 13

theorem limits_exec (c : AdaptiveBitrateController) (samples : List NetworkSample) :
    (Run.exec step c samples).limits = c.limits := by
  induction samples generalizing c with
  | nil => rfl
  | cons s samples ih => exact (ih (c.step s)).trans step_limits

theorem inRange_exec {l : BitrateLimits} (h : l.minBps ≤ l.maxBps) (samples : List NetworkSample) :
    (Run.exec step (new l) samples).InRange :=
  Run.invariant (fun _ s hc => hc.step s) (new_inRange h) samples

/-- Below 13 bps the controller does not climb. -/
theorem step_small (h : c.InRange) (hlt : c.target < 13) : (c.step s).target ≤ c.target := by
  have hstay (v : UInt32) (hv : v ≤ c.target) : (c.setTarget v).target ≤ c.target :=
    (clamp_mono h.le hv).trans (clamp_of_mem h.1 h.2).le
  by_cases hl : s.Lossy
  · rw [step_lossy hl]
    refine hstay _ ?_
    have hmul : (c.target.toNat : ℚ) * factor (clamp 0 1 s.loss) ≤ c.target.toNat :=
      mul_le_of_le_one_right (by positivity) (factor_le_one _)
    rw [UInt32.le_iff_toNat_le, lowered, toNat_asU32]
    exact (min_le_left _ _).trans (Nat.floor_le_of_le hmul)
  · by_cases hh : s.Healthy
    · have hinc : c.increase = 0 := by
        have hlt' : c.target.toNat < 13 := UInt32.lt_iff_toNat_lt.1 hlt
        rw [← UInt32.toNat_inj, toNat_increase]
        exact Nat.div_eq_of_lt (by omega)
      rw [step_healthy hh]
      refine hstay _ ?_
      unfold raised
      rw [hinc, UInt32.add_zero]
      cases s.estimatedBps with
      | none => exact le_rfl
      | some est => exact min_le_left _ _
    · rw [step_hold hl hh]

theorem not_overflows_of_fits (h : c.InRange)
    (hfit : c.limits.maxBps.toNat + 2 * c.limits.maxBps.toNat / 25 < 2 ^ 32) : ¬c.Overflows s := by
  have hle := UInt32.le_iff_toNat_le.1 h.2
  rintro ⟨-, hover⟩
  rw [toNat_increase] at hover
  omega

theorem not_overflows_of_small (hlt : c.target < 13) : ¬c.Overflows s := by
  have hlt' : c.target.toNat < 13 := UInt32.lt_iff_toNat_lt.1 hlt
  rintro ⟨-, hover⟩
  rw [toNat_increase] at hover
  omega

/-- No loss, no delay, no estimate. -/
def clear : NetworkSample where
  loss := 0
  rttMs := 0
  estimatedBps := none

theorem unhindered_clear : Unhindered clear := ⟨by norm_num [clear], by decide, rfl⟩

/-- A clear sample takes the target up by at least one, until it is at the top. -/
theorem climbs (h : c.InRange) (h13 : 13 ≤ c.target.toNat) (hover : ¬c.Overflows clear) :
    min (c.target.toNat + 1) c.limits.maxBps.toNat ≤ (c.step clear).target.toNat := by
  have hhealthy := unhindered_clear.healthy
  have hsum : c.target.toNat + c.increase.toNat < 2 ^ 32 := by
    by_contra hge
    exact hover ⟨hhealthy, not_lt.1 hge⟩
  have hraised : c.target.toNat + 1 ≤ (c.raised none).toNat := by
    rw [toNat_raised_none hsum]
    omega
  rw [step_healthy hhealthy]
  show _ ≤ (clamp c.limits.minBps c.limits.maxBps (c.raised none)).toNat
  unfold clamp
  split
  · next hlt =>
    have hlt' := UInt32.lt_iff_toNat_lt.1 hlt
    have hmin := UInt32.le_iff_toNat_le.1 h.1
    omega
  · split <;> omega

theorem climbs_exec {l : BitrateLimits} (hl : l.minBps ≤ l.maxBps) (hs : Sound l)
    (h13 : 13 ≤ (new l).target.toNat) (n : ℕ) :
    min (13 + n) l.maxBps.toNat ≤ (Run.exec step (new l) (List.replicate n clear)).target.toNat := by
  induction n with
  | zero => exact (min_le_left _ _).trans h13
  | succ n ih =>
    have hin := inRange_exec hl (List.replicate n clear)
    have hlim : (Run.exec step (new l) (List.replicate n clear)).limits = l := limits_exec _ _
    have htop : 13 ≤ l.maxBps.toNat :=
      h13.trans (UInt32.le_iff_toNat_le.1 (new_inRange hl).2)
    have hup := (hs (List.replicate (n + 1) clear)).2
    rw [List.replicate_succ', Run.guarded_append] at hup
    have hclimb := climbs hin (by omega) hup.2.1.1
    rw [hlim] at hclimb
    rw [List.replicate_succ', Run.exec_append]
    show _ ≤ ((Run.exec step (new l) (List.replicate n clear)).step clear).target.toNat
    omega

/-- A controller with the limits `l` that has stayed where 8% more do not overflow. -/
structure Low (l : BitrateLimits) (c : AdaptiveBitrateController) : Prop where
  limits : c.limits = l
  inRange : c.InRange
  room : l.maxBps.toNat + 2 * l.maxBps.toNat / 25 < 2 ^ 32 ∨ c.target < 13

theorem Low.step {l : BitrateLimits} (h : Low l c) (s : NetworkSample) : Low l (c.step s) where
  limits := step_limits.trans h.limits
  inRange := h.inRange.step s
  room := h.room.imp_right fun hlt => lt_of_le_of_lt (step_small h.inRange hlt) hlt

theorem Low.upheld {l : BitrateLimits} (h : Low l c) (s : NetworkSample) : c.Upheld s := by
  refine (upheld_iff h.inRange s).2 ?_
  obtain hfit | hlt := h.room
  · exact not_overflows_of_fits h.inRange (by rw [h.limits]; exact hfit)
  · exact not_overflows_of_small hlt

/-- All runs stay within the limits without overflow, and let no unhindered sample lower the target, if
and only if the limits leave room for the increase. -/
theorem bounded_iff (l : BitrateLimits) (h : l.minBps ≤ l.maxBps) : Sound l ↔ Roomy l := by
  constructor
  · intro hs
    by_contra hroom
    obtain ⟨hfit, h13⟩ := not_or.1 hroom
    have h13' : 13 ≤ (new l).target.toNat := UInt32.le_iff_toNat_le.1 (not_lt.1 h13)
    -- after 2 ^ 32 clear samples the target is at the top, and the next one overflows
    have htop := climbs_exec h hs h13' (2 ^ 32)
    have hlt := l.maxBps.toNat_lt
    rw [min_eq_right (by omega)] at htop
    have hup := (hs (List.replicate (2 ^ 32) clear ++ [clear])).2
    rw [Run.guarded_append] at hup
    refine hup.2.1.1 ⟨unhindered_clear.healthy, ?_⟩
    rw [toNat_increase]
    omega
  · intro hroom samples
    have hlow : Low l (new l) := ⟨rfl, new_inRange h, hroom⟩
    constructor
    · exact (Run.guarded_true _ samples).always (fun _ s hc _ => hc.step s) hlow |>.mono
        fun _ hc => hc.inRange
    · exact Run.Guarded.of_invariant (fun _ s hc => hc.step s) (fun _ s hc => hc.upheld s) hlow samples

theorem default_sound : Sound .default :=
  (bounded_iff .default (by decide)).2 (.inl (by decide))

/-- The largest limits: the first clear sample overflows, and the target falls. -/
theorem top_overflows :
    ¬∀ l : BitrateLimits, l.minBps ≤ l.maxBps → Sound l := by
  intro h
  have hs := h ⟨0, 4294967295, 4294967295⟩ (by decide)
  exact (hs [clear]).2.1.1 ⟨unhindered_clear.healthy, by decide +kernel⟩

end AdaptiveBitrateController

end DeskSync.Media
