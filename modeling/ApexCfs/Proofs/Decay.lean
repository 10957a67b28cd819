import ApexCfs.Proofs.Periods

/-! One period of load tracking. The exact, BSA and CLTI decays of one period are
the three integer maps `exactPeriod`, `bsaPeriod` and `cltiPeriod`; the APAF one
scales by a factor of at most 48/49. -/

namespace ApexCfs

open HalfLife

def exactPeriod (load : ℕ) : ℕ := load * 0xfa83b2da / 2 ^ 32
def cltiPeriod (load : ℕ) : ℕ := load - (load - load * 30048 / 32768) / 4

theorem shiftRight_coarse_one (load : UInt64) :
    load >>> UInt64.ofNat (1 / LOAD_AVG_PERIOD) = load := by
  have h : UInt64.ofNat (1 / LOAD_AVG_PERIOD) = 0 := by decide
  rw [h, UInt64.shiftRight_zero]

theorem exactDecayLoad_one (load : UInt64) :
    (exactDecayLoad load 1).toNat = exactPeriod load.toNat := by
  rw [toNat_exactDecayLoad, exactDecay, decay_one (by norm_num) (by norm_num)]
  rfl

theorem bsaDecayLoad_one (load : UInt64) :
    (bsaDecayLoad load 1).toNat = bsaPeriod load.toNat := by
  rw [toNat_bsaDecayLoad, bsaDecay, decay_one (by norm_num) (by norm_num)]
  rfl

theorem cltiDecayLoad_one (load : UInt64) :
    (cltiDecayLoad load 1).toNat = cltiPeriod load.toNat := by
  rw [toNat_cltiDecayLoad, cltiDecay, decay_one (by norm_num) (by norm_num)]
  have hbase : cltiFactor (1 / 4) = 32768 := by decide
  have hnext : cltiFactor (1 / 4 + 1) = 30048 := by decide
  rw [cltiRest, cltiPeriod, hbase, hnext, if_neg (by norm_num), if_neg (by norm_num)]
  omega

def apafFactor (state : ℤ) : ℚ :=
  if state = APAF_LOOSE then
    if apafPolyEval 1 state < tableFactor 1 then tableFactor 1 else apafPolyEval 1 state
  else apafPolyEval 1 state

theorem apafFactor_level (state : ℤ) : apafFactor (apafLevel state) = apafFactor state := by
  simp only [apafFactor, apafPolyEval_level, apafLevel_eq_loose]

theorem apafFactor_range (state : ℤ) : 0 ≤ apafFactor state ∧ apafFactor state ≤ 48 / 49 := by
  rw [← apafFactor_level]
  rcases apafLevel_cases state with h | h | h <;> rw [h] <;> decide +kernel

theorem apafDecayLoad_one (load : UInt64) (state : ℤ) :
    (apafDecayLoad load 1 state).toNat = ⌊(load.toNat : ℚ) * apafFactor state⌋₊ := by
  obtain ⟨h0, h1⟩ := apafFactor_range state
  have hmod : 1 % LOAD_AVG_PERIOD = 1 := by decide
  have hmax : ¬ 1 ≥ PELT_MAX_PERIODS * LOAD_AVG_PERIOD := by decide
  have hone : apafDecayLoad load 1 state = UInt64.ofNat ⌊(load.toNat : ℚ) * apafFactor state⌋₊ := by
    simp only [apafDecayLoad, shiftRight_coarse_one, hmod, hmax, one_ne_zero, if_false, if_true,
      gt_iff_lt, Nat.lt_one_iff, apafFactor]
  have hle : ⌊(load.toNat : ℚ) * apafFactor state⌋₊ ≤ load.toNat :=
    Nat.floor_le_of_le (mul_le_of_le_one_right (by positivity) (by linarith))
  rw [hone, Word.toNat_ofNat_of_lt (hle.trans_lt (Word.toNat_lt load))]

/-- One period of a mode, as a map of natural numbers. -/
def Mode.period : Mode → ℤ → ℕ → ℕ
  | .exact, _ => exactPeriod
  | .bsa, _ => bsaPeriod
  | .clti, _ => cltiPeriod
  | .apaf, state => fun load => ⌊(load : ℚ) * apafFactor state⌋₊

theorem decay_one (m : Mode) (state : ℤ) (load : UInt64) :
    (m.decay state load 1).toNat = m.period state load.toNat := by
  cases m with
  | exact => exact exactDecayLoad_one load
  | bsa => exact bsaDecayLoad_one load
  | clti => exact cltiDecayLoad_one load
  | apaf => exact apafDecayLoad_one load state

def clampedLoadAvg (weight loadSum : UInt64) : UInt64 :=
  if weight * loadSum / LOAD_AVG_MAX > weight then weight else weight * loadSum / LOAD_AVG_MAX

def CfsTask.nextLoadSum (decay : UInt64 → ℕ → UInt64) (t : CfsTask) : UInt64 :=
  decay t.loadSum 1 + if t.runnable = 1 then t.weight else 0

theorem updateLoad_eq (decay : UInt64 → ℕ → UInt64) (t : CfsTask) :
    t.updateLoad decay = { t with
      loadSum := t.nextLoadSum decay
      loadAvg := clampedLoadAvg t.weight (t.nextLoadSum decay) } := by
  unfold CfsTask.updateLoad CfsTask.nextLoadSum clampedLoadAvg
  by_cases hr : t.runnable = 1
  · simp only [hr, if_true]
    split_ifs <;> rfl
  · simp only [hr, if_false, UInt64.add_zero]
    split_ifs <;> rfl

theorem bsaDecayLoad_fixed_iff (load : UInt64) : bsaDecayLoad load 1 = load ↔ load < 32 := by
  rw [← UInt64.toNat_inj, bsaDecayLoad_one, UInt64.lt_iff_toNat_lt, bsaPeriod]
  change _ ↔ load.toNat < 32
  omega

theorem cltiDecayLoad_fixed_iff (load : UInt64) : cltiDecayLoad load 1 = load ↔ load ≤ 36 := by
  rw [← UInt64.toNat_inj, cltiDecayLoad_one, UInt64.le_iff_toNat_le, cltiPeriod]
  change _ ↔ load.toNat ≤ 36
  omega

theorem apafDecayLoad_fixed_iff (load : UInt64) (state : ℤ) :
    apafDecayLoad load 1 state = load ↔ load = 0 := by
  obtain ⟨-, h1⟩ := apafFactor_range state
  rw [← UInt64.toNat_inj, apafDecayLoad_one, ← UInt64.toNat_inj, UInt64.toNat_zero]
  refine ⟨?_, ?_⟩
  · intro h
    by_contra hne
    have hlt : ⌊(load.toNat : ℚ) * apafFactor state⌋₊ < load.toNat := by
      rw [Nat.floor_lt' hne]
      exact mul_lt_of_lt_one_right (by exact_mod_cast Nat.pos_of_ne_zero hne) (by linarith)
    omega
  · intro h
    rw [h, Nat.cast_zero, zero_mul, Nat.floor_zero]

end ApexCfs
