import ApexCfs.Lib.Truncated
import ApexCfs.Proofs.Periods
import Mathlib.Algebra.Order.Floor.Semifield

/-! APAF's decay over any number of periods. Its factors are fractions, so the decay is a
half-life decay of the natural numbers as the other three are, and the distance of the
fractions to the Q0.32 table bounds its error. -/

namespace ApexCfs

open HalfLife Truncated

/-- The fitted curve of a state at `r` periods, in units of `10 ^ -15`. -/
def curveNum (state : ℤ) (r : ℕ) : ℤ :=
  if state = APAF_TIGHT then 999755378067218 + r * (-21439723696865 + r * 197742040395)
  else if state = APAF_LOOSE then 977779922300000 + r * -15578660700000
  else 998121961273224 + r * (-20869371290712 + r * 167397421507)

/-- The factor of `r` periods, numerator and denominator: the curve, or the table entry
above 16 periods in TIGHT and where the curve is below it in LOOSE. -/
def apafFraction (state : ℤ) (r : ℕ) : ℕ × ℕ :=
  let table := ((runnableAvgYNInv.getD r 0).toNat, 0xFFFFFFFF)
  if state = APAF_TIGHT ∧ r > 16 then table
  else if state = APAF_LOOSE ∧ curveNum state r * 0xFFFFFFFF < table.1 * 10 ^ 15 then table
  else ((curveNum state r).toNat, 10 ^ 15)

theorem curveNum_level (state : ℤ) (r : ℕ) : curveNum (apafLevel state) r = curveNum state r := by
  simp only [curveNum, apafLevel_eq_tight, apafLevel_eq_loose]

theorem apafFraction_level (state : ℤ) (r : ℕ) :
    apafFraction (apafLevel state) r = apafFraction state r := by
  simp only [apafFraction, curveNum_level, apafLevel_eq_tight, apafLevel_eq_loose]

theorem forall_phase {p : ℤ → ℕ → Prop} (hlevel : ∀ state r, p (apafLevel state) r → p state r)
    (h : ∀ r < 32, 0 < r → p APAF_TIGHT r ∧ p APAF_MEDIUM r ∧ p APAF_LOOSE r) (state : ℤ) {r : ℕ}
    (h0 : 0 < r) (hr : r < 32) : p state r := by
  obtain ⟨htight, hmedium, hloose⟩ := h r hr h0
  refine hlevel state r ?_
  rcases apafLevel_cases state with hs | hs | hs <;> rw [hs]
  · exact htight
  · exact hmedium
  · exact hloose

/-- The curves stay between 0 and 1, so the clamps of the evaluation never act. -/
theorem curveNum_range (state : ℤ) {r : ℕ} (h0 : 0 < r) (h : r < 32) :
    0 ≤ curveNum state r ∧ curveNum state r ≤ 10 ^ 15 :=
  forall_phase (p := fun state r => 0 ≤ curveNum state r ∧ curveNum state r ≤ 10 ^ 15)
    (fun state r h => by rwa [curveNum_level] at h) (by decide) state h0 h

theorem apafPolyEval_curve {state : ℤ} {r : ℕ} (h0 : 0 < r) (h : r < 32)
    (hcurve : ¬(state = APAF_TIGHT ∧ r > 16)) :
    apafPolyEval r state = (curveNum state r : ℚ) / 10 ^ 15 := by
  obtain ⟨hlo, hhi⟩ := curveNum_range state h0 h
  have hlo' : (0 : ℚ) ≤ (curveNum state r : ℚ) / 10 ^ 15 := by positivity
  have hhi' : (curveNum state r : ℚ) / 10 ^ 15 ≤ 1 := by
    rw [div_le_one (by norm_num)]
    exact_mod_cast hhi
  have hvalue : ∀ a0 a1 a2 : ℚ, a0 + r * (a1 + r * a2) = (curveNum state r : ℚ) / 10 ^ 15 →
      (let result := a0 + r * (a1 + r * a2)
        let result := if result > 1 then 1 else result
        if result < 0 then 0 else result) = (curveNum state r : ℚ) / 10 ^ 15 := by
    intro a0 a1 a2 heq
    simp only [heq, gt_iff_lt, if_neg (not_lt.2 hhi'), if_neg (not_lt.2 hlo')]
  rw [apafPolyEval, if_neg hcurve]
  by_cases htight : state = APAF_TIGHT
  · simp only [if_pos htight]
    refine hvalue _ _ _ ?_
    simp only [curveNum, if_pos htight, APAF_TIGHT_A0, APAF_TIGHT_A1, APAF_TIGHT_A2]
    push_cast
    ring
  · by_cases hloose : state = APAF_LOOSE
    · simp only [if_neg htight, if_pos hloose]
      refine hvalue _ _ _ ?_
      have hzero : APAF_LOOSE_A2 = 0 := by norm_num [APAF_LOOSE_A2]
      simp only [curveNum, if_neg htight, if_pos hloose, APAF_LOOSE_A0, APAF_LOOSE_A1, hzero]
      push_cast
      ring
    · simp only [if_neg htight, if_neg hloose]
      refine hvalue _ _ _ ?_
      simp only [curveNum, if_neg htight, if_neg hloose, APAF_MEDIUM_A0, APAF_MEDIUM_A1, APAF_MEDIUM_A2]
      push_cast
      ring

/-- The factor that `apaf_decay_load` multiplies by, floor included. -/
theorem apafFraction_eq (state : ℤ) {r : ℕ} (h0 : 0 < r) (h : r < 32) :
    (if state = APAF_LOOSE then
        if apafPolyEval r state < tableFactor r then tableFactor r else apafPolyEval r state
      else apafPolyEval r state) =
      ((apafFraction state r).1 : ℚ) / (apafFraction state r).2 := by
  by_cases htable : state = APAF_TIGHT ∧ r > 16
  · have hloose : state ≠ APAF_LOOSE := fun hl => by
      rw [htable.1] at hl
      exact absurd hl (by decide)
    have hlast : ¬r ≥ LOAD_AVG_PERIOD := Nat.not_le.2 h
    rw [if_neg hloose, apafPolyEval, if_pos htable, if_neg hlast, apafFraction, if_pos htable,
      tableFactor]
  · rw [apafPolyEval_curve h0 h htable]
    obtain ⟨hlo, -⟩ := curveNum_range state h0 h
    have hcast : ((curveNum state r).toNat : ℚ) = curveNum state r := by
      exact_mod_cast Int.toNat_of_nonneg hlo
    have hbelow : (curveNum state r : ℚ) / 10 ^ 15 < tableFactor r ↔
        curveNum state r * 0xFFFFFFFF < ((runnableAvgYNInv.getD r 0).toNat : ℤ) * 10 ^ 15 := by
      rw [tableFactor, div_lt_div_iff₀ (by norm_num) (by norm_num)]
      exact_mod_cast Iff.rfl
    simp only [apafFraction, if_neg htable, hbelow]
    by_cases hloose : state = APAF_LOOSE
    · simp only [hloose, if_true, true_and]
      split_ifs
      · rfl
      · rw [← hloose, hcast]
        norm_num
    · simp only [hloose, false_and, if_false, hcast]
      norm_num

theorem apafFraction_range (state : ℤ) {r : ℕ} (h0 : 0 < r) (h : r < 32) :
    (apafFraction state r).1 ≤ (apafFraction state r).2 ∧ 0 < (apafFraction state r).2 :=
  forall_phase (p := fun state r => (apafFraction state r).1 ≤ (apafFraction state r).2 ∧
      0 < (apafFraction state r).2)
    (fun state r h => by rwa [apafFraction_level] at h) (by decide) state h0 h

def apafRest (state : ℤ) (r load : ℕ) : ℕ :=
  if r = 0 then load else load * (apafFraction state r).1 / (apafFraction state r).2

def apafDecay (state : ℤ) : ℕ → ℕ → ℕ := decay 32 2016 (apafRest state)

theorem toNat_apafDecayLoad (load : UInt64) (n : ℕ) (state : ℤ) :
    (apafDecayLoad load n state).toNat = apafDecay state n load.toNat := by
  have hcutoff : PELT_MAX_PERIODS * LOAD_AVG_PERIOD = 2016 := by decide
  refine decay_cases (f := fun load n => apafDecayLoad load n state) (fun load => ?_)
    (fun load n hn => ?_) (fun l => if_pos rfl) (fun load n h0 hn => ?_) load n
  · simp only [apafDecayLoad, if_true]
  · simp only [apafDecayLoad, hcutoff, if_neg (by omega : ¬n = 0), if_pos hn]
  · have hperiod : LOAD_AVG_PERIOD = 32 := rfl
    simp only [apafDecayLoad, hcutoff, if_neg (by omega : ¬n = 0), if_neg (by omega : ¬n ≥ 2016)]
    rcases Nat.eq_zero_or_pos (n % 32) with hr | hr
    · simp only [hperiod, hr, gt_iff_lt, lt_irrefl, if_false, apafRest, if_true]
    · have hlt : n % 32 < 32 := Nat.mod_lt n (by norm_num)
      obtain ⟨hle, hpos⟩ := apafFraction_range state hr hlt
      simp only [hperiod]
      rw [if_pos hr, apafFraction_eq state hr hlt, apafRest, if_neg hr.ne', ← mul_div_assoc,
        ← Nat.cast_mul, Nat.floor_div_eq_div]
      refine Word.toNat_ofNat_of_lt ?_
      have hload := Nat.div_le_div_right (c := (apafFraction state (n % 32)).2)
        (Nat.mul_le_mul_left (load >>> UInt64.ofNat (n / 32)).toNat hle)
      rw [Nat.mul_div_cancel _ hpos] at hload
      exact hload.trans_lt (Word.toNat_lt _)

/-- The documented bound of a state, in units of `10 ^ -5`: 1%, 3% and 4.147%. -/
def apafBound (state : ℤ) : ℕ :=
  if state = APAF_TIGHT then 1000 else if state = APAF_LOOSE then 4147 else 3000

/-- Every factor is within the bound of its state of the exact one. -/
theorem apafFraction_near (state : ℤ) {r : ℕ} (h0 : 0 < r) (h : r < 32) :
    10 ^ 5 * Nat.dist ((apafFraction state r).1 * 2 ^ 32) (decayFactor r * (apafFraction state r).2) ≤
      apafBound state * (decayFactor r * (apafFraction state r).2) :=
  forall_phase (p := fun state r => 10 ^ 5 * Nat.dist ((apafFraction state r).1 * 2 ^ 32)
      (decayFactor r * (apafFraction state r).2) ≤
        apafBound state * (decayFactor r * (apafFraction state r).2))
    (fun state r h => by
      simp only [apafFraction_level, apafBound, apafLevel_eq_tight, apafLevel_eq_loose] at h ⊢
      exact h) (by decide) state h0 h

theorem apafRest_near (state : ℤ) {r : ℕ} (h : r < 32) (load : ℕ) :
    |(apafRest state r load : ℚ) - exactRest r load| ≤
      apafBound state / 10 ^ 5 * exactRest r load + 2 := by
  have hbound : (0 : ℚ) ≤ apafBound state / 10 ^ 5 ∧ (apafBound state / 10 ^ 5 : ℚ) ≤ 1 := by
    refine ⟨by positivity, ?_⟩
    rw [div_le_one (by norm_num)]
    unfold apafBound
    split_ifs <;> norm_num
  rcases Nat.eq_zero_or_pos r with rfl | h0
  · rw [exactRest_zero, apafRest, if_pos rfl, sub_self, abs_zero]
    have hpos := mul_nonneg hbound.1 (Nat.cast_nonneg load : (0 : ℚ) ≤ load)
    linarith
  · obtain ⟨-, hden⟩ := apafFraction_range state h0 h
    have hnear := apafFraction_near state h0 h
    rw [apafRest, if_neg h0.ne', exactRest, abs_sub_eq_dist]
    refine gap_le_of_relative (isFloor_mul_div load _ hden) (isFloor_mul_div load _ (by norm_num))
      hbound.1 hbound.2 ?_
    rw [← mul_sub, abs_mul, Nat.abs_cast, abs_div_sub_div hden (by norm_num), mul_left_comm]
    refine mul_le_mul_of_nonneg_left ?_ (Nat.cast_nonneg load)
    have hden' : (0 : ℚ) < (apafFraction state r).2 := by exact_mod_cast hden
    have hnear' : (10 ^ 5 * Nat.dist ((apafFraction state r).1 * 2 ^ 32)
        (decayFactor r * (apafFraction state r).2) : ℚ) ≤
          apafBound state * (decayFactor r * (apafFraction state r).2) := by exact_mod_cast hnear
    generalize Nat.dist _ _ = gap at hnear' ⊢
    rw [div_mul_div_comm, div_le_div_iff₀ (by positivity) (by positivity)]
    push_cast
    nlinarith

/-- APAF's decay keeps the documented bound of its state for every load and every number of
periods, up to two units for the truncations. -/
theorem apaf_decay_bounds (load : UInt64) (n : ℕ) (state : ℤ) :
    |((apafDecayLoad load n state).toNat : ℚ) - (exactDecayLoad load n).toNat| ≤
      apafBound state / 10 ^ 5 * (exactDecayLoad load n).toNat + 2 := by
  rw [toNat_apafDecayLoad, toNat_exactDecayLoad, apafDecay, exactDecay]
  rcases Nat.lt_or_ge n 2016 with h | h
  · rw [decay_of_lt h, decay_of_lt h]
    exact apafRest_near state (Nat.mod_lt n (by norm_num)) _
  · rw [decay_of_ge h, decay_of_ge h]
    norm_num

end ApexCfs
