import ApexCfs.Lib.Truncated
import ApexCfs.Proofs.ExactDecay

/-! Decaying period by period against decaying in one call. Every period rounds
down once more, so the iteration stays below the call; the table is consistent
enough with its first entry that it never falls 48 behind. -/

namespace ApexCfs

open HalfLife Truncated

def exactFactor : ℚ := 0xfa83b2da / 2 ^ 32

theorem exactFactor_pos : 0 < exactFactor := by
  unfold exactFactor
  norm_num

theorem exactFactor_lt_one : exactFactor < 1 := by
  unfold exactFactor
  norm_num

theorem exactPeriod_ge (l : ℕ) : exactFactor * l - 1 ≤ exactPeriod l := by
  have h : l * 0xfa83b2da ≤ (exactPeriod l + 1) * 2 ^ 32 := by
    unfold exactPeriod
    omega
  have hq : (l : ℚ) * 0xfa83b2da ≤ (exactPeriod l + 1) * 2 ^ 32 := by exact_mod_cast h
  have hscale : exactFactor * l = l * 0xfa83b2da / 2 ^ 32 := by
    unfold exactFactor
    ring
  rw [hscale, sub_le_iff_le_add, div_le_iff₀ (by norm_num)]
  exact hq

theorem exactPeriod_mono : Monotone exactPeriod := fun _ _ hab =>
  Nat.div_le_div_right (Nat.mul_le_mul_right _ hab)

theorem decayFactor_step : (∀ r < 31, decayFactor r * 0xfa83b2da ≤ decayFactor (r + 1) * 2 ^ 32) ∧
    decayFactor 31 * 0xfa83b2da ≤ 2 ^ 31 * 2 ^ 32 := by
  decide

theorem exactPeriod_scaled {a b : ℕ} (h : a * 0xfa83b2da ≤ b * 2 ^ 32) (l : ℕ) :
    exactPeriod (l * a / 2 ^ 32) ≤ l * b / 2 ^ 32 := by
  have hfloor : l * a / 2 ^ 32 * 2 ^ 32 ≤ l * a := Nat.div_mul_le_self _ _
  have hprod : l * a / 2 ^ 32 * 0xfa83b2da * 2 ^ 32 ≤ l * b * 2 ^ 32 := by
    calc l * a / 2 ^ 32 * 0xfa83b2da * 2 ^ 32 = l * a / 2 ^ 32 * 2 ^ 32 * 0xfa83b2da := by ring
      _ ≤ l * a * 0xfa83b2da := Nat.mul_le_mul_right _ hfloor
      _ = l * (a * 0xfa83b2da) := by ring
      _ ≤ l * (b * 2 ^ 32) := Nat.mul_le_mul_left _ h
      _ = l * b * 2 ^ 32 := by ring
  exact Nat.div_le_div_right (Nat.le_of_mul_le_mul_right hprod (by norm_num))

theorem exactPeriod_exactDecay {l : ℕ} (hl : l < 2 ^ 27) (n : ℕ) :
    exactPeriod (exactDecay n l) ≤ exactDecay (n + 1) l := by
  rcases Nat.lt_or_ge (n + 1) 2016 with h | h
  · rw [exactDecay, decay_of_lt h, decay_of_lt (by omega)]
    rcases succ_cases (by norm_num : 0 < 32) n with ⟨hmod, hdiv, hlt⟩ | ⟨hlast, hmod, hdiv⟩
    · rw [hmod, hdiv]
      exact exactPeriod_scaled (decayFactor_step.1 _ (by omega)) _
    · rw [hmod, hdiv, hlast, pow_succ, ← Nat.div_div_eq_div_mul, exactRest_zero]
      have hhalf := exactPeriod_scaled decayFactor_step.2 (l / 2 ^ (n / 32))
      change exactPeriod (l / 2 ^ (n / 32) * decayFactor 31 / 2 ^ 32) ≤ _
      omega
  · -- from the last period before the cut-off on, so small a load is gone
    have hzero : exactDecay n l = 0 := by
      rcases Nat.lt_or_ge n 2016 with hn | hn
      · have hpow : l < 2 ^ (n / 32) :=
          hl.trans_le (Nat.pow_le_pow_right (by norm_num) (by omega))
        rw [exactDecay, decay_of_lt hn, Nat.div_eq_of_lt hpow]
        simp [exactRest]
      · rw [exactDecay, decay_of_ge hn]
    rw [hzero]
    exact Nat.zero_le _

theorem iterate_le_exactDecay {l : ℕ} (hl : l < 2 ^ 27) (n : ℕ) :
    exactPeriod^[n] l ≤ exactDecay n l := by
  induction n with
  | zero => simp [exactDecay, HalfLife.decay, exactRest_zero]
  | succ n ih =>
    rw [Function.iterate_succ_apply']
    exact (exactPeriod_mono ih).trans (exactPeriod_exactDecay hl n)

/-- What the table has on the powers of its first entry, in units of 2^-27. -/
theorem decayFactor_excess : (∀ r < 32, exactFactor ^ r ≤ (decayFactor r : ℚ) / 2 ^ 32 ∧
      (decayFactor r : ℚ) / 2 ^ 32 ≤ exactFactor ^ r + 1 / 2 ^ 27 ∧
      (decayFactor r : ℚ) / 2 ^ 32 ≤ exactFactor ^ r + 2 / 2 ^ 27 - 3 / 2 ^ 28 * exactFactor ^ r) ∧
    exactFactor ^ 32 ≤ 1 / 2 ∧ 1 / 2 ≤ exactFactor ^ 32 + 3 / 2 ^ 29 := by
  decide +kernel

theorem two_mul_le_two_pow {c : ℕ} (h : 1 ≤ c) : 2 * c ≤ 2 ^ c := by
  induction c, h using Nat.le_induction with
  | base => norm_num
  | succ c hc ih => rw [pow_succ]; omega

/-- The shifts have hardly more on the powers, and the excess halves with them. -/
theorem half_excess (c : ℕ) :
    (1 / 2 : ℚ) ^ c ≤ exactFactor ^ (32 * c) + 2 * c * (3 / 2 ^ 29) * (1 / 2) ^ c := by
  obtain ⟨-, hle, hge⟩ := decayFactor_excess
  have hpos : 0 ≤ exactFactor ^ 32 := pow_nonneg exactFactor_pos.le _
  have hhalf : (0 : ℚ) ≤ (1 / 2) ^ c := by positivity
  induction c with
  | zero => simp
  | succ c ih =>
    have hih := mul_le_mul_of_nonneg_right (ih (by positivity)) hpos
    have hexc : 2 * (c : ℚ) * (3 / 2 ^ 29) * (1 / 2) ^ c * exactFactor ^ 32 ≤
        2 * c * (3 / 2 ^ 29) * (1 / 2) ^ c * (1 / 2) :=
      mul_le_mul_of_nonneg_left hle (by positivity)
    calc (1 / 2 : ℚ) ^ (c + 1) = (1 / 2) ^ c * (1 / 2) := pow_succ _ _
      _ ≤ (1 / 2) ^ c * (exactFactor ^ 32 + 3 / 2 ^ 29) :=
          mul_le_mul_of_nonneg_left hge (by positivity)
      _ = (1 / 2) ^ c * exactFactor ^ 32 + (1 / 2) ^ c * (3 / 2 ^ 29) := mul_add _ _ _
      _ ≤ exactFactor ^ (32 * c) * exactFactor ^ 32 +
            2 * c * (3 / 2 ^ 29) * (1 / 2) ^ c * (1 / 2) + (1 / 2) ^ c * (3 / 2 ^ 29) := by linarith
      _ = exactFactor ^ (32 * (c + 1)) +
            2 * ((c + 1 : ℕ) : ℚ) * (3 / 2 ^ 29) * (1 / 2) ^ (c + 1) := by
          rw [← pow_add, pow_succ (1 / 2 : ℚ)]
          push_cast
          ring

/-- The factor of the call is that of the iteration up to 2^-27. -/
theorem factor_excess (c : ℕ) {r : ℕ} (hr : r < 32) :
    (1 / 2 : ℚ) ^ c * (decayFactor r / 2 ^ 32) ≤ exactFactor ^ (32 * c + r) + 1 / 2 ^ 27 := by
  obtain ⟨hge, hle, hexc⟩ := decayFactor_excess.1 r hr
  have hpow : 0 ≤ exactFactor ^ r := pow_nonneg exactFactor_pos.le _
  rcases Nat.eq_zero_or_pos c with rfl | hc
  · simpa using hle
  · have hhalf : (0 : ℚ) ≤ (1 / 2) ^ c := by positivity
    have hshift := mul_le_mul_of_nonneg_right (half_excess c) hpow
    have hc1 : (1 : ℚ) ≤ c := by exact_mod_cast hc
    have hlin : (decayFactor r : ℚ) / 2 ^ 32 - exactFactor ^ r + 2 * c * (3 / 2 ^ 29) * exactFactor ^ r ≤
        c * (2 / 2 ^ 27) := by
      have hmul := mul_le_mul_of_nonneg_left hexc (by linarith : (0 : ℚ) ≤ c)
      have hself := mul_le_mul_of_nonneg_right hc1 (sub_nonneg.mpr hge)
      linarith
    have hsmall : (1 / 2 : ℚ) ^ c * (2 * c) ≤ 1 := by
      have hcast : (2 : ℚ) * c ≤ 2 ^ c := by exact_mod_cast two_mul_le_two_pow hc
      calc (1 / 2 : ℚ) ^ c * (2 * c) ≤ (1 / 2) ^ c * 2 ^ c := mul_le_mul_of_nonneg_left hcast hhalf
        _ = 1 := by rw [← mul_pow]; norm_num
    have hmul := mul_le_mul_of_nonneg_left hlin hhalf
    rw [pow_add]
    linarith

theorem exactDecay_le_power {l : ℕ} (hl : l < 2 ^ 27) (n : ℕ) :
    (exactDecay n l : ℚ) ≤ exactFactor ^ n * l + 1 := by
  have hpow : 0 ≤ exactFactor ^ n * l := mul_nonneg (pow_nonneg exactFactor_pos.le _) (by positivity)
  rcases Nat.lt_or_ge n 2016 with hn | hn
  · have hfactor := factor_excess (n / 32) (Nat.mod_lt n (by norm_num : 0 < 32))
    rw [Nat.div_add_mod] at hfactor
    have hload : (l : ℚ) ≤ 2 ^ 27 := by exact_mod_cast hl.le
    calc (exactDecay n l : ℚ)
        ≤ ((l / 2 ^ (n / 32) * decayFactor (n % 32) : ℕ) : ℚ) / (2 ^ 32 : ℕ) := by
          rw [exactDecay, decay_of_lt hn, exactRest]
          exact Nat.cast_div_le
      _ ≤ (l / 2 ^ (n / 32)) * decayFactor (n % 32) / 2 ^ 32 := by
          have hdiv : ((l / 2 ^ (n / 32) : ℕ) : ℚ) ≤ l / 2 ^ (n / 32) := by
            exact_mod_cast (Nat.cast_div_le : ((l / 2 ^ (n / 32) : ℕ) : ℚ) ≤ l / (2 ^ (n / 32) : ℕ))
          rw [Nat.cast_mul, Nat.cast_pow, Nat.cast_ofNat]
          gcongr
      _ = l * ((1 / 2) ^ (n / 32) * (decayFactor (n % 32) / 2 ^ 32)) := by
          rw [div_pow, one_pow]
          ring
      _ ≤ l * (exactFactor ^ n + 1 / 2 ^ 27) := mul_le_mul_of_nonneg_left hfactor (by positivity)
      _ ≤ exactFactor ^ n * l + 1 := by linarith
  · rw [exactDecay, decay_of_ge hn, Nat.cast_zero]
    linarith

theorem exactDecay_le_iterate {l : ℕ} (hl : l < 2 ^ 27) (n : ℕ) :
    exactDecay n l ≤ exactPeriod^[n] l + 47 := by
  have hcall := exactDecay_le_power hl n
  have hiter := iterate_ge exactFactor_pos.le exactFactor_lt_one zero_le_one exactPeriod_ge n l
  have hseries : 1 / (1 - exactFactor) < 46.7 := by
    unfold exactFactor
    norm_num
  have hlt : (exactDecay n l : ℚ) < (exactPeriod^[n] l + 48 : ℕ) := by
    push_cast
    linarith
  have hnat : exactDecay n l < exactPeriod^[n] l + 48 := by exact_mod_cast hlt
  omega

theorem toNat_iterate_exactDecayLoad (load : UInt64) (n : ℕ) :
    ((fun l => exactDecayLoad l 1)^[n] load).toNat = exactPeriod^[n] load.toNat := by
  induction n with
  | zero => rfl
  | succ n ih => rw [Function.iterate_succ_apply', Function.iterate_succ_apply', exactDecayLoad_one, ih]

/-- Decaying a load below 2^27 tick by tick never leaves more than one call for
all the periods, and never more than 47 less. -/
theorem tick_decay_near_closed_form (load : UInt64) (n : ℕ) (hload : load.toNat < 2 ^ 27) :
    ((fun l => exactDecayLoad l 1)^[n] load).toNat ≤ (exactDecayLoad load n).toNat ∧
      (exactDecayLoad load n).toNat ≤ ((fun l => exactDecayLoad l 1)^[n] load).toNat + 47 := by
  rw [toNat_iterate_exactDecayLoad, toNat_exactDecayLoad]
  exact ⟨iterate_le_exactDecay hload n, exactDecay_le_iterate hload n⟩

theorem tick_decay_near_closed_form_47742 :
    ((fun l => exactDecayLoad l 1)^[40] 47742).toNat ≤ (exactDecayLoad 47742 40).toNat ∧
      (exactDecayLoad 47742 40).toNat ≤ ((fun l => exactDecayLoad l 1)^[40] 47742).toNat + 47 :=
  tick_decay_near_closed_form 47742 40 (by decide)

end ApexCfs
