import ApexCfs.Lib.HalfLife
import ApexCfs.Spec.Run

/-! Load decay over any number of periods. Each of the exact, BSA and CLTI decays
is a half-life decay of the natural numbers with a rest of its own, and no word
operation on the way truncates. -/

namespace ApexCfs

open HalfLife

theorem toNat_mulShr (a : UInt64) (b : UInt32) {shift : ℕ} (h : b.toNat ≤ 2 ^ shift) :
    (exactMulU64U32Shr a b shift).toNat = a.toNat * b.toNat / 2 ^ shift := by
  have hlt : a.toNat * b.toNat / 2 ^ shift < 2 ^ 64 := by
    calc a.toNat * b.toNat / 2 ^ shift ≤ a.toNat * 2 ^ shift / 2 ^ shift :=
          Nat.div_le_div_right (Nat.mul_le_mul_left _ h)
      _ = a.toNat := Nat.mul_div_cancel _ (by positivity)
      _ < 2 ^ 64 := Word.toNat_lt a
  rw [exactMulU64U32Shr, Nat.shiftRight_eq_div_pow, Word.toNat_ofNat_of_lt hlt]

/-- The decay factor of `r < 32` periods in Q0.32, `1` for none. -/
def decayFactor (r : ℕ) : ℕ :=
  if r = 0 then 2 ^ 32 else (runnableAvgYNInv.getD r 0).toNat

def exactRest (r load : ℕ) : ℕ := load * decayFactor r / 2 ^ 32

def exactDecay : ℕ → ℕ → ℕ := decay 32 2016 exactRest

theorem exactRest_zero (load : ℕ) : exactRest 0 load = load := by
  rw [exactRest, decayFactor, if_pos rfl, Nat.mul_div_cancel _ (by positivity)]

/-- What the three decays have in common: nothing for no period, all from the
cut-off on, and in between a rest of less than 32 periods after the shift. -/
theorem decay_cases {f : UInt64 → ℕ → UInt64} {rest : ℕ → ℕ → ℕ} (h0 : ∀ load, f load 0 = load)
    (hcut : ∀ load n, 2016 ≤ n → f load n = 0) (hzero : ∀ l, rest 0 l = l)
    (hrest : ∀ load n, 0 < n → n < 2016 →
      (f load n).toNat = rest (n % 32) (load >>> UInt64.ofNat (n / 32)).toNat)
    (load : UInt64) (n : ℕ) : (f load n).toNat = decay 32 2016 rest n load.toNat := by
  rcases Nat.lt_or_ge n 2016 with h | h
  · rw [decay_of_lt h]
    rcases Nat.eq_zero_or_pos n with rfl | hpos
    · rw [h0, Nat.zero_mod, hzero, Nat.zero_div, pow_zero, Nat.div_one]
    · rw [hrest load n hpos h, Word.toNat_shiftRight_ofNat _ (by omega)]
  · rw [decay_of_ge h, hcut load n h, UInt64.toNat_zero]

/-- The exact decay is that of the natural numbers: no product is truncated. -/
theorem toNat_exactDecayLoad (load : UInt64) (n : ℕ) :
    (exactDecayLoad load n).toNat = exactDecay n load.toNat := by
  have hcutoff : PELT_MAX_PERIODS * LOAD_AVG_PERIOD = 2016 := by decide
  refine decay_cases (fun load => ?_) (fun load n hn => ?_) exactRest_zero (fun load n h0 hn => ?_) load n
  · simp only [exactDecayLoad, if_true]
  · rw [exactDecayLoad, hcutoff, if_neg (by omega), if_pos hn]
  · rw [exactDecayLoad, hcutoff, if_neg (by omega), if_neg (by omega)]
    have hperiod : LOAD_AVG_PERIOD = 32 := rfl
    rcases Nat.eq_zero_or_pos (n % 32) with hr | hr
    · simp only [hperiod, hr, gt_iff_lt, lt_irrefl, if_false, exactRest_zero]
    · simp only [hperiod, hr, if_true]
      refine (toNat_mulShr _ _ (UInt32.toNat_lt _).le).trans ?_
      rw [exactRest, decayFactor, if_neg hr.ne']

def bsaPeriod (load : ℕ) : ℕ := load - load / 32

theorem toNat_shiftSub (load : UInt64) :
    (load - load >>> BSA_DECAY_SHIFT).toNat = bsaPeriod load.toNat := by
  have hshift : (load >>> BSA_DECAY_SHIFT).toNat = load.toNat / 32 := by
    rw [UInt64.toNat_shiftRight, Nat.shiftRight_eq_div_pow]
    rfl
  have hle : load >>> BSA_DECAY_SHIFT ≤ load := by
    rw [UInt64.le_iff_toNat_le, hshift]
    omega
  rw [UInt64.toNat_sub_of_le _ _ hle, hshift, bsaPeriod]

def bsaRest (r load : ℕ) : ℕ := bsaPeriod^[r] load

def bsaDecay : ℕ → ℕ → ℕ := decay 32 2016 bsaRest

theorem toNat_bsaDecayLoop (r : ℕ) (load : UInt64) :
    (bsaDecayLoop r load).toNat = bsaRest r load.toNat := by
  induction r generalizing load with
  | zero => rfl
  | succ r ih => rw [bsaDecayLoop, ih, toNat_shiftSub, bsaRest, bsaRest, Function.iterate_succ_apply]

theorem toNat_bsaDecayLoad (load : UInt64) (n : ℕ) :
    (bsaDecayLoad load n).toNat = bsaDecay n load.toNat := by
  have hcutoff : PELT_MAX_PERIODS * LOAD_AVG_PERIOD = 2016 := by decide
  refine decay_cases (fun load => ?_) (fun load n hn => ?_) (fun l => rfl) (fun load n h0 hn => ?_) load n
  · simp only [bsaDecayLoad, if_true]
  · rw [bsaDecayLoad, hcutoff, if_neg (by omega), if_pos hn]
  · rw [bsaDecayLoad, hcutoff, if_neg (by omega), if_neg (by omega)]
    exact toNat_bsaDecayLoop _ _

/-- Entry `i` of the coarse table, `y^(4i)` in Q0.15. -/
def cltiFactor (i : ℕ) : ℕ := (cltiDecayTable.getD i 0).toNat

/-- The last segment has no right neighbour and halves its left one. -/
def cltiRest (r load : ℕ) : ℕ :=
  let base := load * cltiFactor (r / 4) / 2 ^ 15
  if r % 4 = 0 then base
  else if r / 4 = 7 then base / 2
  else base - (base - load * cltiFactor (r / 4 + 1) / 2 ^ 15) * (r % 4) / 4

def cltiDecay : ℕ → ℕ → ℕ := decay 32 2016 cltiRest

theorem cltiFactor_le (i : ℕ) (h : i < 8) : cltiFactor i ≤ 2 ^ 15 := by
  revert i
  decide

theorem cltiRest_zero (load : ℕ) : cltiRest 0 load = load := by
  have hone : cltiFactor 0 = 2 ^ 15 := by decide
  simp only [cltiRest, Nat.zero_mod, Nat.zero_div, if_true, hone]
  exact Nat.mul_div_cancel load (by norm_num)

theorem cltiFactor_succ (i : ℕ) (h : i < 7) :
    cltiFactor (i + 1) ≤ cltiFactor i ∧ 10 * cltiFactor i ≤ 10 * cltiFactor (i + 1) + 2 ^ 15 := by
  revert i
  decide

theorem toNat_cltiBase (load : UInt64) {i : ℕ} (h : i < 8) :
    (exactMulU64U32Shr load (cltiDecayTable.getD i 0) CLTI_SHIFT).toNat =
      load.toNat * cltiFactor i / 2 ^ 15 :=
  toNat_mulShr _ _ (cltiFactor_le i h)

theorem toNat_interpolate {base next : UInt64} {m : ℕ} (hm : m < 4) (hle : next ≤ base)
    (hgap : 4 * (base.toNat - next.toNat) < 2 ^ 64) :
    (if base ≥ (base - next) * UInt64.ofNat m / UInt64.ofNat CLTI_TABLE_STEP then
        base - (base - next) * UInt64.ofNat m / UInt64.ofNat CLTI_TABLE_STEP else 0).toNat =
      base.toNat - (base.toNat - next.toNat) * m / 4 := by
  have hmul : (base.toNat - next.toNat) * m ≤ (base.toNat - next.toNat) * 4 :=
    Nat.mul_le_mul_left _ hm.le
  have hm' : (UInt64.ofNat m).toNat = m := Word.toNat_ofNat_of_lt (by omega)
  have hdiff : (base - next).toNat = base.toNat - next.toNat := UInt64.toNat_sub_of_le _ _ hle
  have hcorr : ((base - next) * UInt64.ofNat m / UInt64.ofNat CLTI_TABLE_STEP).toNat =
      (base.toNat - next.toNat) * m / 4 := by
    rw [UInt64.toNat_div, Word.toNat_mul_of_lt (by rw [hdiff, hm']; omega), hdiff, hm']
    rfl
  have hbase : (base - next) * UInt64.ofNat m / UInt64.ofNat CLTI_TABLE_STEP ≤ base := by
    rw [UInt64.le_iff_toNat_le, hcorr]
    omega
  rw [if_pos hbase, UInt64.toNat_sub_of_le _ _ hbase, hcorr]

/-- The interpolation neither wraps nor takes its two fallbacks. -/
theorem toNat_cltiDecayInterpolate (load : UInt64) {r : ℕ} (hr : r < 32) :
    (cltiDecayInterpolate load r).toNat = cltiRest r load.toNat := by
  rcases Nat.eq_zero_or_pos r with rfl | hpos
  · rw [cltiDecayInterpolate, if_pos rfl, cltiRest_zero]
  · have hi : r / 4 < 8 := by omega
    have hbase := toNat_cltiBase load hi
    have hstep : CLTI_TABLE_STEP = 4 := rfl
    have hsize : CLTI_TABLE_SIZE = 8 := rfl
    unfold cltiDecayInterpolate cltiRest
    simp only [hpos.ne', hstep, hsize, ge_iff_le, not_le.mpr hi, if_false]
    rcases Nat.eq_zero_or_pos (r % 4) with hm | hm
    · simp only [hm, gt_iff_lt, lt_irrefl, if_false, if_true]
      exact hbase
    · simp only [hm, hm.ne', if_true, if_false]
      rcases Nat.lt_or_ge (r / 4 + 1) 8 with h7 | h7
      · have hnext := toNat_cltiBase load h7
        obtain ⟨hdesc, hgap⟩ := cltiFactor_succ (r / 4) (by omega)
        have hload := Word.toNat_lt load
        have hmono : load.toNat * cltiFactor (r / 4 + 1) ≤ load.toNat * cltiFactor (r / 4) :=
          Nat.mul_le_mul_left _ hdesc
        have hdiff : 10 * (load.toNat * cltiFactor (r / 4)) ≤
            10 * (load.toNat * cltiFactor (r / 4 + 1)) + load.toNat * 2 ^ 15 := by
          have := Nat.mul_le_mul_left load.toNat hgap
          rw [Nat.mul_add, Nat.mul_left_comm, Nat.mul_left_comm load.toNat] at this
          exact this
        simp only [h7, if_true, if_neg (show r / 4 ≠ 7 by omega)]
        generalize exactMulU64U32Shr load (cltiDecayTable.getD (r / 4) 0) CLTI_SHIFT = base at hbase ⊢
        generalize exactMulU64U32Shr load (cltiDecayTable.getD (r / 4 + 1) 0) CLTI_SHIFT = next
          at hnext ⊢
        have hle : next ≤ base := by
          rw [UInt64.le_iff_toNat_le, hbase, hnext]
          exact Nat.div_le_div_right hmono
        simp only [hle, if_true]
        rw [← hbase, ← hnext]
        refine toNat_interpolate (Nat.mod_lt r (by norm_num)) hle ?_
        rw [hbase, hnext]
        omega
      · have h7' : r / 4 = 7 := by omega
        simp only [if_neg (not_lt.mpr h7), if_pos h7']
        rw [UInt64.toNat_shiftRight, hbase, Nat.shiftRight_eq_div_pow]
        rfl

theorem toNat_cltiDecayLoad (load : UInt64) (n : ℕ) :
    (cltiDecayLoad load n).toNat = cltiDecay n load.toNat := by
  have hcutoff : PELT_MAX_PERIODS * LOAD_AVG_PERIOD = 2016 := by decide
  refine decay_cases (fun load => ?_) (fun load n hn => ?_) cltiRest_zero (fun load n h0 hn => ?_) load n
  · simp only [cltiDecayLoad, if_true]
  · rw [cltiDecayLoad, hcutoff, if_neg (by omega), if_pos hn]
  · rw [cltiDecayLoad, hcutoff, if_neg (by omega), if_neg (by omega)]
    exact toNat_cltiDecayInterpolate _ (Nat.mod_lt n (by decide))

end ApexCfs
