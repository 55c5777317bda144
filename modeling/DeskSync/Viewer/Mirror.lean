import DeskSync.Viewer.Bitrate

/-!
# The two bitrate controllers side by side

The controller of the phone says that it mirrors the one of the agent. Given equal limits and equal samples
they go through equal states as long as no fraction that counts is a half or more, which the phone rounds up
and the agent drops.

`agree_iff`: all decisions of a run are equal if and only if every sample finds the agent where the fraction
is below a half, or the bounds make up for it.
-/

namespace DeskSync.Viewer.Bitrate

open Number Media

/-! ### Equal inputs -/

def phoneLimits (l : Media.BitrateLimits) : BitrateLimits :=
  ⟨l.minBps.toNat, l.maxBps.toNat, l.startBps.toNat⟩

def phoneSample (s : Media.NetworkSample) : NetworkSample :=
  ⟨s.loss, s.rttMs.toNat, s.estimatedBps.map fun est => (est.toNat : ℤ)⟩

/-- The state of the phone that corresponds to one of the agent. -/
def mirror (c : Media.AdaptiveBitrateController) : AdaptiveBitrateController :=
  ⟨phoneLimits c.limits, c.target.toNat⟩

/-- What the agent decides after each of the samples. -/
def agentDecisions : Media.AdaptiveBitrateController → List Media.NetworkSample → List Media.BitrateDecision
  | _, [] => []
  | c, s :: samples => (c.observe s).2 :: agentDecisions (c.observe s).1 samples

/-- What the phone decides after each of the samples. -/
def phoneDecisions : AdaptiveBitrateController → List NetworkSample → List BitrateDecision
  | _, [] => []
  | c, s :: samples => (c.observe s).2 :: phoneDecisions (c.observe s).1 samples

def SameDecision (a : Media.BitrateDecision) (p : BitrateDecision) : Prop :=
  p.targetBps = a.targetBps.toNat ∧ p.tier = a.tier

/-- The controllers with these limits decide the same after every sample. -/
def Agree (l : Media.BitrateLimits) (samples : List Media.NetworkSample) : Prop :=
  List.Forall₂ SameDecision (agentDecisions (.new l) samples)
    (phoneDecisions (.new (phoneLimits l)) (samples.map phoneSample))

/-! ### Where the fraction does not count -/

/-- The fraction of a lowered target is below a half, or the target is raised to the lower limit. -/
def LowersAlike (c : Media.AdaptiveBitrateController) (loss : ℚ) : Prop :=
  Int.fract (c.target.toNat * factor loss) < 1 / 2 ∨ c.target.toNat * factor loss < c.limits.minBps.toNat

/-- The fraction of an increase is below a half, or the increase goes up to the upper limit, or to the
estimate. -/
def RaisesAlike (c : Media.AdaptiveBitrateController) (estimatedBps : Option UInt32) : Prop :=
  Int.fract (c.target.toNat * increaseFraction) < 1 / 2 ∨
    c.limits.maxBps.toNat ≤ c.target.toNat + c.target.toNat * increaseFraction ∨
    ∃ est ∈ estimatedBps,
      (max est c.limits.minBps).toNat ≤ c.target.toNat + c.target.toNat * increaseFraction

def Aligned (c : Media.AdaptiveBitrateController) (s : Media.NetworkSample) : Prop :=
  (s.Lossy → LowersAlike c (clamp 0 1 s.loss)) ∧ (s.Healthy → RaisesAlike c s.estimatedBps)

/-! ### Numbers of the agent as numbers of the phone -/

theorem toNat_clamp (lo hi v : UInt32) :
    ((clamp lo hi v).toNat : ℤ) = clamp (lo.toNat : ℤ) hi.toNat v.toNat := by
  simp only [clamp, UInt32.lt_iff_toNat_lt, Nat.cast_lt]
  split_ifs <;> rfl

theorem toNat_max (a b : UInt32) : ((max a b).toNat : ℤ) = max (a.toNat : ℤ) b.toNat := by
  rcases le_total a b with h | h
  · rw [max_eq_right h, max_eq_right (by exact_mod_cast UInt32.le_iff_toNat_le.1 h)]
  · rw [max_eq_left h, max_eq_left (by exact_mod_cast UInt32.le_iff_toNat_le.1 h)]

theorem toNat_min (a b : UInt32) : ((min a b).toNat : ℤ) = min (a.toNat : ℤ) b.toNat := by
  rcases le_total a b with h | h
  · rw [min_eq_left h, min_eq_left (by exact_mod_cast UInt32.le_iff_toNat_le.1 h)]
  · rw [min_eq_right h, min_eq_right (by exact_mod_cast UInt32.le_iff_toNat_le.1 h)]

/-- A fraction that fits in 32 bits, truncated. -/
theorem toNat_asU32_floor {q : ℚ} (h0 : 0 ≤ q) (hq : q < 2 ^ 32) : ((asU32 q).toNat : ℤ) = ⌊q⌋ := by
  have hlt : ⌊q⌋₊ < 2 ^ 32 := (Nat.floor_lt h0).2 (by exact_mod_cast hq)
  rw [toNat_asU32, min_eq_left (by simp only [UInt32.size]; omega), Int.natCast_floor_eq_floor h0]

/-- A fraction that fits in 32 bits, rounded. -/
theorem round64_eq {q : ℚ} (h0 : 0 ≤ q) (hq : q < 2 ^ 32) : round64 q = roundAway q := by
  have hle : roundAway q ≤ (2 ^ 32 : ℕ) := roundAway_le_of_le h0 (by exact_mod_cast hq.le)
  have hnonneg := roundAway_nonneg h0
  exact clamp_of_mem (by omega) (by push_cast at hle; omega)

/-! ### A sample -/

section Sample

variable {c : Media.AdaptiveBitrateController} {s : Media.NetworkSample}

theorem target_le (h : c.InRange) : (c.target.toNat : ℚ) ≤ c.limits.maxBps.toNat :=
  Nat.cast_le.2 (UInt32.le_iff_toNat_le.1 h.2)

theorem target_lt (h : c.InRange) (hmax : c.limits.maxBps.toNat < 2 ^ 31) : (c.target.toNat : ℚ) < 2 ^ 31 :=
  (target_le h).trans_lt (by exact_mod_cast hmax)

theorem limits_le (h : c.InRange) : (c.limits.minBps.toNat : ℤ) ≤ c.limits.maxBps.toNat :=
  Nat.cast_le.2 (UInt32.le_iff_toNat_le.1 h.le)

theorem increase_nonneg (c : Media.AdaptiveBitrateController) : (0 : ℚ) ≤ c.target.toNat * increaseFraction :=
  mul_nonneg (Nat.cast_nonneg _) (by norm_num [increaseFraction])

theorem increase_lt (h : c.InRange) (hmax : c.limits.maxBps.toNat < 2 ^ 31) :
    (c.target.toNat : ℚ) * increaseFraction < 2 ^ 31 := by
  have hlt := target_lt h hmax
  unfold increaseFraction
  linarith

/-- The integer part of a fraction and a bound. -/
theorem floor_lt_iff {q : ℚ} {n : ℕ} : ⌊q⌋ < (n : ℤ) ↔ q < n := by
  rw [Int.floor_lt, Int.cast_natCast]

theorem lower_iff (h : c.InRange) (hmax : c.limits.maxBps.toNat < 2 ^ 31) (loss : ℚ) :
    ((mirror c).setTarget ((mirror c).lowered loss)).target = (c.setTarget (c.lowered loss)).target.toNat ↔
      LowersAlike c loss := by
  have hq0 : 0 ≤ c.target.toNat * factor loss := mul_nonneg (Nat.cast_nonneg _) (factor_nonneg loss)
  have hqt : c.target.toNat * factor loss ≤ c.target.toNat :=
    mul_le_of_le_one_right (Nat.cast_nonneg _) (factor_le_one loss)
  have hlt := target_lt h hmax
  have hlohi := limits_le h
  have hagent : ((c.setTarget (c.lowered loss)).target.toNat : ℤ) =
      clamp (c.limits.minBps.toNat : ℤ) c.limits.maxBps.toNat ⌊c.target.toNat * factor loss⌋ := by
    rw [Media.AdaptiveBitrateController.setTarget, toNat_clamp, Media.AdaptiveBitrateController.lowered,
      toNat_asU32_floor hq0 (by linarith)]
  have hphone : ((mirror c).setTarget ((mirror c).lowered loss)).target =
      clamp (c.limits.minBps.toNat : ℤ) c.limits.maxBps.toNat
        (roundAway (c.target.toNat * factor loss)) := by
    rw [← round64_eq hq0 (by linarith)]
    rfl
  rw [hagent, hphone, LowersAlike]
  rcases lt_or_ge (Int.fract (c.target.toNat * factor loss)) (1 / 2) with hf | hf
  · rw [roundAway_of_fract_lt hq0 hf]
    exact iff_of_true rfl (.inl hf)
  · rw [roundAway_of_le_fract hq0 hf, clamp_succ_iff hlohi, floor_lt_iff]
    -- a fraction of a half keeps the target below the upper limit
    have hbelow : ⌊c.target.toNat * factor loss⌋ < (c.limits.maxBps.toNat : ℤ) := by
      have hfloor := Int.floor_add_fract (c.target.toNat * factor loss)
      have hle := target_le h
      have hcast : (⌊c.target.toNat * factor loss⌋ : ℚ) < (c.limits.maxBps.toNat : ℤ) := by
        rw [Int.cast_natCast]
        linarith
      exact_mod_cast hcast
    simp only [not_le.2 hbelow, or_false, hf.not_gt, false_or]

/-- A sum of whole numbers and an integer part, and a bound. -/
theorem le_add_floor_iff {q : ℚ} {a t : ℕ} : (a : ℤ) ≤ t + ⌊q⌋ ↔ (a : ℚ) ≤ t + q := by
  rw [← sub_le_iff_le_add', Int.le_floor]
  push_cast
  rw [sub_le_iff_le_add']

/-- A raise up to the estimate, where there is one. -/
def capped (ceiling : Option ℤ) (x : ℤ) : ℤ := ceiling.elim x (min x)

/-- One more is as good as none at the upper limit, and at the estimate. -/
theorem capped_succ_iff {lo hi x : ℤ} {ceiling : Option ℤ} (hlohi : lo ≤ hi) (hlo : lo ≤ x) :
    clamp lo hi (capped ceiling (x + 1)) = clamp lo hi (capped ceiling x) ↔
      hi ≤ x ∨ ∃ e ∈ ceiling, e ≤ x := by
  cases ceiling with
  | none =>
    simp only [capped, Option.elim_none, clamp_succ_iff hlohi, Option.mem_def, reduceCtorEq, false_and,
      exists_false, or_false]
    omega
  | some e =>
    simp only [capped, Option.elim_some, Option.mem_def, Option.some.injEq, exists_eq_left']
    rcases le_or_gt e x with he | he
    · rw [min_eq_right (by omega), min_eq_right he]
      exact iff_of_true rfl (.inr he)
    · rw [min_eq_left (by omega), min_eq_left he.le, clamp_succ_iff hlohi]
      omega

/-- The estimate that bounds a raise of the agent. -/
def ceiling (c : Media.AdaptiveBitrateController) (est : Option UInt32) : Option ℤ :=
  est.map fun est => ((max est c.limits.minBps).toNat : ℤ)

theorem ceiling_mirror (c : Media.AdaptiveBitrateController) (s : Media.NetworkSample) :
    phoneCeiling (mirror c) (phoneSample s) = ceiling c s.estimatedBps := by
  simp only [phoneCeiling, phoneSample, ceiling, Option.map_map, toNat_max]
  rfl

theorem toNat_raised (h : c.InRange) (hmax : c.limits.maxBps.toNat < 2 ^ 31) (est : Option UInt32) :
    ((c.raised est).toNat : ℤ) =
      capped (ceiling c est) (c.target.toNat + ⌊(c.target.toNat : ℚ) * increaseFraction⌋) := by
  have hlt := increase_lt h hmax
  have hinc : (c.increase.toNat : ℤ) = ⌊(c.target.toNat : ℚ) * increaseFraction⌋ :=
    toNat_asU32_floor (increase_nonneg c) (by linarith)
  have hsum : ((c.target + c.increase).toNat : ℤ) =
      c.target.toNat + ⌊(c.target.toNat : ℚ) * increaseFraction⌋ := by
    have hle := UInt32.le_iff_toNat_le.1 h.2
    have hnat := Media.AdaptiveBitrateController.toNat_increase c
    rw [← hinc, UInt32.toNat_add, Nat.mod_eq_of_lt (by omega), Nat.cast_add]
  cases est with
  | none => exact hsum
  | some est =>
    rw [Media.AdaptiveBitrateController.raised, toNat_min, hsum]
    rfl

theorem mirror_raised (h : c.InRange) (hmax : c.limits.maxBps.toNat < 2 ^ 31) :
    (phoneRule (mirror c)).raised =
      c.target.toNat + roundAway ((c.target.toNat : ℚ) * increaseFraction) := by
  have hlt := target_lt h hmax
  have hq0 := increase_nonneg c
  have hq := increase_lt h hmax
  have hround : (mirror c).increase = roundAway ((c.target.toNat : ℚ) * increaseFraction) := by
    rw [← round64_eq hq0 (by linarith)]
    rfl
  have hle : roundAway ((c.target.toNat : ℚ) * increaseFraction) ≤ (2 ^ 31 : ℕ) :=
    roundAway_le_of_le hq0 (by exact_mod_cast hq.le)
  have hnonneg := roundAway_nonneg hq0
  have htarget : (c.target.toNat : ℤ) < 2 ^ 31 := by exact_mod_cast hlt
  show add64 (c.target.toNat : ℤ) (mirror c).increase = _
  rw [hround, add64, Int.bmod_eq_of_le (by omega) (by push_cast at hle; omega)]

theorem raise_iff (h : c.InRange) (hmax : c.limits.maxBps.toNat < 2 ^ 31) (est : Option UInt32) :
    clamp (c.limits.minBps.toNat : ℤ) c.limits.maxBps.toNat
        (capped (ceiling c est) (phoneRule (mirror c)).raised) =
      (c.setTarget (c.raised est)).target.toNat ↔ RaisesAlike c est := by
  have hq0 := increase_nonneg c
  have hlohi := limits_le h
  have hlo : (c.limits.minBps.toNat : ℤ) ≤ c.target.toNat := Nat.cast_le.2 (UInt32.le_iff_toNat_le.1 h.1)
  have hfloor : 0 ≤ ⌊(c.target.toNat : ℚ) * increaseFraction⌋ := Int.floor_nonneg.2 hq0
  have hagent : ((c.setTarget (c.raised est)).target.toNat : ℤ) =
      clamp (c.limits.minBps.toNat : ℤ) c.limits.maxBps.toNat (c.raised est).toNat := toNat_clamp _ _ _
  rw [hagent, toNat_raised h hmax, mirror_raised h hmax, RaisesAlike]
  rcases lt_or_ge (Int.fract ((c.target.toNat : ℚ) * increaseFraction)) (1 / 2) with hf | hf
  · rw [roundAway_of_fract_lt hq0 hf]
    exact iff_of_true rfl (.inl hf)
  · rw [roundAway_of_le_fract hq0 hf, ← add_assoc, capped_succ_iff hlohi (by omega)]
    simp only [hf.not_gt, false_or, ← le_add_floor_iff, ceiling, Option.mem_def, Option.map_eq_some_iff,
      exists_exists_and_eq_and]

/-- Equal states decide the same of a sample if and only if no fraction counts. -/
theorem step_iff (h : c.InRange) (hmax : c.limits.maxBps.toNat < 2 ^ 31) (s : Media.NetworkSample) :
    ((mirror c).step (phoneSample s)).target = (c.step s).target.toNat ↔ Aligned c s := by
  have hcalm : (phoneSample s).rttMs ≤ highRttMs ↔ s.rttMs ≤ Media.highRttMs := by
    rw [UInt32.le_iff_toNat_le]
    exact Nat.cast_le (n := 400)
  rw [phone_step, ceiling_mirror]
  by_cases hh : s.Healthy
  · have hphone : Healthy (clamp 0 1 (phoneSample s).loss) ((phoneSample s).rttMs ≤ highRttMs) :=
      ⟨hh.1, hcalm.2 hh.2⟩
    have hbounded : (phoneRule (mirror c)).bounded (ceiling c s.estimatedBps) =
        capped (ceiling c s.estimatedBps) (phoneRule (mirror c)).raised := by
      cases ceiling c s.estimatedBps <;> rfl
    rw [Rule.next, if_pos hphone, hbounded, Media.AdaptiveBitrateController.step_healthy hh, Aligned,
      ← raise_iff h hmax]
    simp only [hh.not_lossy, false_implies, true_and, hh, true_implies]
    rfl
  · have hphone : ¬Healthy (clamp 0 1 (phoneSample s).loss) ((phoneSample s).rttMs ≤ highRttMs) :=
      fun hp => hh ⟨hp.1, hcalm.1 hp.2⟩
    rw [Rule.next, if_neg hphone, Rule.unraised]
    by_cases hl : s.Lossy
    · have hloss : lossDecrease ≤ clamp 0 1 (phoneSample s).loss := hl
      rw [if_pos hloss, Media.AdaptiveBitrateController.step_lossy hl, Aligned, ← lower_iff h hmax]
      simp only [hl, true_implies, hh, false_implies, and_true]
      rfl
    · have hloss : ¬lossDecrease ≤ clamp 0 1 (phoneSample s).loss := hl
      rw [if_neg hloss, Media.AdaptiveBitrateController.step_hold hl hh]
      exact iff_of_true rfl ⟨fun hl' => absurd hl' hl, fun hh' => absurd hh' hh⟩

theorem tierFor_toNat (bps : UInt32) : tierFor bps.toNat = Media.tierFor bps := by
  have h1 : (bps.toNat : ℤ) < 800000 ↔ bps < 800000 := by
    rw [UInt32.lt_iff_toNat_lt]
    exact Nat.cast_lt (n := 800000)
  have h2 : (bps.toNat : ℤ) < 2500000 ↔ bps < 2500000 := by
    rw [UInt32.lt_iff_toNat_lt]
    exact Nat.cast_lt (n := 2500000)
  have h3 : (bps.toNat : ℤ) < 5000000 ↔ bps < 5000000 := by
    rw [UInt32.lt_iff_toNat_lt]
    exact Nat.cast_lt (n := 5000000)
  simp only [tierFor, Media.tierFor, h1, h2, h3]

/-- A decision is the same if and only if its target is. -/
theorem sameDecision_iff : SameDecision (c.observe s).2 ((mirror c).observe (phoneSample s)).2 ↔
    ((mirror c).step (phoneSample s)).target = (c.step s).target.toNat := by
  refine and_iff_left_of_imp fun htarget => ?_
  show tierFor ((mirror c).step (phoneSample s)).target = Media.tierFor (c.step s).target
  rw [← tierFor_toNat]
  exact congrArg tierFor htarget

theorem step_limits (c : AdaptiveBitrateController) (s : NetworkSample) : (c.step s).limits = c.limits := by
  unfold AdaptiveBitrateController.step AdaptiveBitrateController.observe
  simp only
  split_ifs <;> rfl

theorem mirror_step (h : ((mirror c).step (phoneSample s)).target = (c.step s).target.toNat) :
    (mirror c).step (phoneSample s) = mirror (c.step s) := by
  have hlimits : ((mirror c).step (phoneSample s)).limits = (mirror (c.step s)).limits := by
    rw [step_limits, mirror, mirror, Media.AdaptiveBitrateController.step_limits]
  cases hphone : (mirror c).step (phoneSample s) with
  | mk limits target =>
    rw [hphone] at h hlimits
    rw [mirror, ← h]
    exact congrArg (AdaptiveBitrateController.mk · target) hlimits

end Sample

/-! ### A run -/

theorem decisions_iff (c : Media.AdaptiveBitrateController) (h : c.InRange)
    (hmax : c.limits.maxBps.toNat < 2 ^ 31) (samples : List Media.NetworkSample) :
    List.Forall₂ SameDecision (agentDecisions c samples)
        (phoneDecisions (mirror c) (samples.map phoneSample)) ↔
      Run.Guarded Media.AdaptiveBitrateController.step Aligned c samples := by
  induction samples generalizing c with
  | nil => exact iff_of_true .nil trivial
  | cons s samples ih =>
    have hmax' : (c.step s).limits.maxBps.toNat < 2 ^ 31 := by
      rwa [Media.AdaptiveBitrateController.step_limits]
    simp only [agentDecisions, phoneDecisions, List.map_cons, List.forall₂_cons, Run.Guarded]
    rw [sameDecision_iff, ← step_iff h hmax]
    refine and_congr_right fun htarget => ?_
    have hnext : ((mirror c).observe (phoneSample s)).1 = mirror (c.step s) := mirror_step htarget
    rw [hnext]
    exact ih (c.step s) (h.step s) hmax'

/-- With equal limits and equal samples the two controllers report the same target and the same tier after
every sample if and only if every sample finds them where the fraction does not count. -/
theorem agree_iff (l : Media.BitrateLimits) (h : l.minBps ≤ l.maxBps) (hmax : l.maxBps.toNat < 2 ^ 31)
    (samples : List Media.NetworkSample) : Agree l samples ↔
      Run.Guarded Media.AdaptiveBitrateController.step Aligned (.new l) samples := by
  have hstart : AdaptiveBitrateController.new (phoneLimits l) = mirror (.new l) := by
    refine congrArg (AdaptiveBitrateController.mk (phoneLimits l)) ?_
    exact (toNat_clamp l.minBps l.maxBps l.startBps).symm
  rw [Agree, hstart]
  exact decisions_iff (.new l) (Media.AdaptiveBitrateController.new_inRange h) hmax samples

/-- The first 8% of the default limits are a whole number. -/
theorem default_agrees : Agree .default [⟨0, 50, none⟩] := by
  refine (agree_iff .default (by decide) (by decide) _).2 ⟨⟨fun hl => ?_, fun _ => .inl ?_⟩, trivial⟩
  · refine absurd hl (Media.NetworkSample.Healthy.not_lossy ⟨?_, by decide⟩)
    decide +kernel
  · decide +kernel

/-- From 2,500,007 bps the phone goes to 2,700,008, and the agent to 2,700,007. -/
theorem rounding_differs : ¬∀ l : Media.BitrateLimits, l.minBps ≤ l.maxBps → l.maxBps.toNat < 2 ^ 31 →
    ∀ samples, Agree l samples := by
  intro h
  have hagree := h { Media.BitrateLimits.default with startBps := 2500007 } (by decide) (by decide)
    [⟨0, 50, none⟩]
  cases hagree with
  | cons hsame _ => exact absurd hsame.1 (by decide +kernel)

end DeskSync.Viewer.Bitrate
