import ApexCfs.Proofs.Periods
import ApexCfs.Proofs.VruntimeScaling
import ApexCfs.Spec.Kernel

/-! The exact scheduler against the kernel code it mirrors. The kernel's normalising shifts
lose no bit of a vruntime inverse, so the two scalings agree; its load decay multiplies once
more at whole half-lives, where the two decays differ by one. -/

namespace ApexCfs

open Kernel HalfLife

/-- The inverses to `2 ^ 32 - 1` and to `2 ^ 32` differ at the divisors of `2 ^ 32` only. -/
theorem pred_div_eq {w : ℕ} (hdvd : ¬w ∣ 2 ^ 32) : (2 ^ 32 - 1) / w = 2 ^ 32 / w :=
  (Nat.succ_div_of_not_dvd hdvd).symm

theorem not_dvd_of_not_pow {w : ℕ} (h : ¬w.isPowerOfTwo) : ¬w ∣ 2 ^ 32 := by
  intro hdvd
  obtain ⟨k, -, hk⟩ := (Nat.dvd_prime_pow Nat.prime_two).1 hdvd
  exact h ⟨k, hk⟩

theorem toNat_invWeight {w : UInt32} (hw : 0 < w.toNat) (hdvd : ¬w.toNat ∣ 2 ^ 32) :
    (updateInvWeight ⟨w.toUInt64, 0⟩).invWeight.toNat = 2 ^ 32 / w.toNat := by
  have hconst : (Kernel.WMULT_CONST.toUInt64).toNat = 2 ^ 32 - 1 := rfl
  have h0 : w.toUInt64 ≠ 0 := fun h => by
    have hzero := congrArg UInt64.toNat h
    rw [UInt32.toNat_toUInt64] at hzero
    exact hw.ne' hzero
  simp only [updateInvWeight, ne_eq, not_true_eq_false, if_false, if_neg h0]
  by_cases hmax : w.toUInt64 ≥ Kernel.WMULT_CONST.toUInt64
  · rw [if_pos hmax]
    rw [ge_iff_le, UInt64.le_iff_toNat_le, hconst, UInt32.toNat_toUInt64] at hmax
    have heq : w.toNat = 2 ^ 32 - 1 := by
      have hlt := UInt32.toNat_lt w
      omega
    rw [heq]
    rfl
  · have hlt : (2 ^ 32 - 1) / w.toNat < 2 ^ 32 := (Nat.div_le_self _ _).trans_lt (by norm_num)
    rw [if_neg hmax, UInt64.toNat_toUInt32, UInt64.toNat_div]
    change (Kernel.WMULT_CONST.toUInt64).toNat / w.toUInt64.toNat % 2 ^ 32 = _
    rw [hconst, UInt32.toNat_toUInt64, Nat.mod_eq_of_lt hlt, pred_div_eq hdvd]

theorem updateInvWeight_weight (lw : LoadWeight) : (updateInvWeight lw).weight = lw.weight := by
  unfold updateInvWeight
  dsimp only
  split_ifs <;> rfl

theorem updateInvWeight_cached {w : UInt32} (hw : 0 < w.toNat) (hdvd : ¬w.toNat ∣ 2 ^ 32) :
    updateInvWeight (updateInvWeight ⟨w.toUInt64, 0⟩) = updateInvWeight ⟨w.toUInt64, 0⟩ := by
  have hinv := toNat_invWeight hw hdvd
  have hpos : 0 < 2 ^ 32 / w.toNat := Nat.div_pos (UInt32.toNat_lt w).le hw
  have hne : (updateInvWeight ⟨w.toUInt64, 0⟩).invWeight ≠ 0 := fun h => by
    rw [h] at hinv
    exact hpos.ne hinv
  rw [updateInvWeight, if_pos hne]

theorem lt_two_pow_fls (x : UInt32) : x.toNat < 2 ^ fls x := by
  unfold fls
  split_ifs with h
  · subst h
    norm_num
  · exact Nat.lt_log2_self

theorem fls_le_of_lt {x : UInt32} {k : ℕ} (h : x.toNat < 2 ^ k) : fls x ≤ k := by
  unfold fls
  split_ifs with h0
  · exact Nat.zero_le k
  · have hne : x.toNat ≠ 0 := fun h => h0 (UInt32.toNat_inj.1 h)
    exact (Nat.log2_lt hne).2 h

theorem normalise_eq (fact : UInt64) (shift : ℤ) :
    normalise fact shift = (fact >>> UInt64.ofNat (fls (fact >>> 32).toUInt32),
      shift - fls (fact >>> 32).toUInt32) := by
  unfold normalise
  by_cases h : (fact >>> 32).toUInt32 = 0
  · have hzero : fls 0 = 0 := rfl
    simp only [h, hzero, ne_eq, not_true_eq_false, if_false, Nat.cast_zero, sub_zero]
    simp
  · simp only [ne_eq, h, not_false_eq_true, if_true]

/-- A factor of `1024 * inv` has ten zero bits to lose, and loses no more than ten. -/
theorem normalised_product {fact : UInt64} {inv : ℕ} (hfact : fact.toNat = 1024 * inv)
    (hinv : inv < 2 ^ 32) (d : UInt64) :
    mulU64U32Shr d (normalise fact 32).1.toUInt32 (normalise fact 32).2.toNat =
      UInt64.ofNat (d.toNat * inv / 2 ^ 22) := by
  rw [normalise_eq]
  have hhi : ((fact >>> 32).toUInt32).toNat = 1024 * inv / 2 ^ 32 := by
    have hshift : (fact >>> 32).toNat = 1024 * inv / 2 ^ 32 := by
      rw [UInt64.toNat_shiftRight, hfact]
      exact Nat.shiftRight_eq_div_pow _ 32
    rw [UInt64.toNat_toUInt32, hshift, Nat.mod_eq_of_lt (by omega)]
  have hten : fls (fact >>> 32).toUInt32 ≤ 10 := fls_le_of_lt (by omega)
  have hbits := lt_two_pow_fls (fact >>> 32).toUInt32
  rw [hhi] at hbits
  generalize fls (fact >>> 32).toUInt32 = fs at hten hbits ⊢
  obtain ⟨r, hr⟩ := Nat.exists_eq_add_of_le hten
  have hpow : 2 ^ fs * 2 ^ r = 1024 := by
    rw [← pow_add, ← hr]
    norm_num
  have hquot : 1024 * inv / 2 ^ fs = 2 ^ r * inv := by
    rw [← hpow, mul_assoc, Nat.mul_div_cancel_left _ (by positivity)]
  have hfit : 2 ^ r * inv < 2 ^ 32 := by
    rw [← hquot, Nat.div_lt_iff_lt_mul (by positivity)]
    rw [Nat.div_lt_iff_lt_mul (by norm_num)] at hbits
    linarith
  have hfact' : (fact >>> UInt64.ofNat fs).toNat = 2 ^ r * inv := by
    rw [Word.toNat_shiftRight_ofNat _ (by omega), hfact, hquot]
  have hshift : ((32 : ℤ) - fs).toNat = 22 + r := by omega
  rw [mulU64U32Shr, UInt64.toNat_toUInt32, hfact', Nat.mod_eq_of_lt hfit, hshift,
    Nat.shiftRight_eq_div_pow, mul_left_comm, pow_add, mul_comm (2 ^ 22),
    Nat.mul_div_mul_left _ _ (by positivity)]

/-- The kernel scales by the same inverse and the same shift in effect. -/
theorem calcDelta_eq {lw : LoadWeight} {inv : ℕ} (hinv : (updateInvWeight lw).invWeight.toNat = inv)
    (d : UInt64) : calcDelta d NICE_0_LOAD.toUInt64 lw = UInt64.ofNat (d.toNat * inv / 2 ^ 22) := by
  have hlt : inv < 2 ^ 32 := hinv ▸ UInt32.toNat_lt _
  have hfirst : normalise NICE_0_LOAD.toUInt64 Kernel.WMULT_SHIFT = (NICE_0_LOAD.toUInt64, 32) := by
    decide
  have hfact : (mulU32U32 NICE_0_LOAD.toUInt64.toUInt32 (updateInvWeight lw).invWeight).toNat =
      1024 * inv := by
    have hprod : 1024 * inv < 2 ^ 64 := by omega
    rw [mulU32U32, UInt64.toNat_mul, UInt32.toNat_toUInt64, UInt32.toNat_toUInt64, hinv]
    exact Nat.mod_eq_of_lt hprod
  simp only [calcDelta, scaleLoadDown, hfirst]
  exact normalised_product hfact hlt d

/-- The exact scaling is the kernel's: for a 32-bit delta and a weight that is 1024, or at
least 3 and no power of two, whether the inverse is cached or still to be computed. -/
theorem exact_scaling_mirrors_kernel (d : UInt64) (w : UInt32) (lw : LoadWeight)
    (hd : d ≤ UINT32_MAX) (hw : w = 1024 ∨ 3 ≤ w.toNat ∧ ¬w.toNat.isPowerOfTwo)
    (hlw : lw = ⟨w.toUInt64, 0⟩ ∨ lw = updateInvWeight ⟨w.toUInt64, 0⟩) :
    exactCalcDeltaFair d w = calcDeltaFair d lw := by
  have hweight : lw.weight = w.toUInt64 := by
    rcases hlw with rfl | rfl
    · rfl
    · exact updateInvWeight_weight _
  rcases hw with rfl | ⟨h3, hpow⟩
  · rw [calcDeltaFair, hweight]
    exact (delta_nice0 d 0).1
  · have hdvd := not_dvd_of_not_pow hpow
    have hne : lw.weight ≠ NICE_0_LOAD.toUInt64 := fun h => by
      have hnat := congrArg UInt64.toNat (hweight.symm.trans h)
      rw [UInt32.toNat_toUInt64] at hnat
      exact hpow ⟨10, hnat⟩
    have hinv : (updateInvWeight lw).invWeight.toNat = 2 ^ 32 / w.toNat := by
      rcases hlw with rfl | rfl
      · exact toNat_invWeight (by omega) hdvd
      · rw [updateInvWeight_cached (by omega) hdvd]
        exact toNat_invWeight (by omega) hdvd
    have hd' : d.toNat < 2 ^ 32 := by
      have hle := UInt64.le_iff_toNat_le.1 hd
      exact Nat.lt_succ_of_le hle
    have hexact := toNat_exactDelta hd' (by omega : 2 ≤ w.toNat)
    rw [calcDeltaFair, if_pos hne, calcDelta_eq hinv, ← UInt64.toNat_inj, hexact, scaled,
      Word.toNat_ofNat_of_lt]
    rw [← scaled, ← hexact]
    exact Word.toNat_lt _

theorem exact_scaling_mirrors_kernel_820 :
    exactCalcDeltaFair TICK_NS 820 = calcDeltaFair TICK_NS ⟨(820 : UInt32).toUInt64, 0⟩ :=
  exact_scaling_mirrors_kernel TICK_NS 820 ⟨(820 : UInt32).toUInt64, 0⟩ (by decide)
    (Or.inr (by decide)) (Or.inl rfl)

/-- The kernel's factor for `r` of 32 periods, also for none: one is missing to `2 ^ 32`. -/
def kernelFactor (r : ℕ) : ℕ := (runnableAvgYNInv.getD r 0).toNat

theorem toNat_peltMulShr {a : UInt64} (ha : a.toNat < 2 ^ 32) (b : UInt32) :
    (peltMulU64U32Shr a b 32).toNat = a.toNat * b.toNat / 2 ^ 32 := by
  have hprod : a.toNat * b.toUInt64.toNat < 2 ^ 64 := by
    rw [UInt32.toNat_toUInt64]
    exact (Nat.mul_lt_mul'' ha (UInt32.toNat_lt b)).trans_eq (by norm_num)
  rw [peltMulU64U32Shr, Word.toNat_shiftRight_ofNat _ (by norm_num), Word.toNat_mul_of_lt hprod,
    UInt32.toNat_toUInt64]

/-- The kernel decay of a 32-bit load, with no cut-off: what it cuts has become 0 before. -/
theorem toNat_kernelDecay {load n : UInt64} (hload : load.toNat < 2 ^ 32) :
    (decayLoad load n).toNat =
      load.toNat / 2 ^ (n.toNat / 32) * kernelFactor (n.toNat % 32) / 2 ^ 32 := by
  have hperiod : LOAD_AVG_PERIOD = 32 := rfl
  unfold decayLoad
  simp only [hperiod]
  by_cases hcut : n.toNat > 32 * 63
  · have hpow : 2 ^ 32 ≤ 2 ^ (n.toNat / 32) := Nat.pow_le_pow_right (by norm_num) (by omega)
    rw [if_pos hcut, Nat.div_eq_of_lt (hload.trans_le hpow), Nat.zero_mul, Nat.zero_div, UInt64.toNat_zero]
  · have hlocal : n.toUInt32.toNat = n.toNat := by
      rw [UInt64.toNat_toUInt32, Nat.mod_eq_of_lt (by omega)]
    rw [if_neg hcut]
    simp only [hlocal]
    split_ifs with hlarge
    · have hshift := Word.toNat_shiftRight_ofNat load (n := n.toNat / 32) (by omega)
      have hlt : (load >>> UInt64.ofNat (n.toNat / 32)).toNat < 2 ^ 32 := by
        rw [hshift]
        exact (Nat.div_le_self _ _).trans_lt hload
      rw [toNat_peltMulShr hlt, hshift, kernelFactor]
    · rw [toNat_peltMulShr hload, kernelFactor, Nat.mod_eq_of_lt (by omega),
        Nat.div_eq_of_lt (a := n.toNat) (by omega), pow_zero, Nat.div_one]

theorem exactDecay_of_lt {load : ℕ} (hload : load < 2 ^ 32) (n : ℕ) :
    exactDecay n load = exactRest (n % 32) (load / 2 ^ (n / 32)) := by
  rcases Nat.lt_or_ge n 2016 with h | h
  · rw [exactDecay, decay_of_lt h]
  · have hpow : 2 ^ 32 ≤ 2 ^ (n / 32) := Nat.pow_le_pow_right (by norm_num) (by omega)
    rw [exactDecay, decay_of_ge h, Nat.div_eq_of_lt (hload.trans_le hpow), exactRest, Nat.zero_mul,
      Nat.zero_div]

theorem mul_pred_div {l : ℕ} (h : l < 2 ^ 32) : l * (2 ^ 32 - 1) / 2 ^ 32 = l - 1 := by
  omega

/-- The exact decay is the kernel's off the whole half-lives. On these it is the plain shift,
which the kernel multiplies by `2 ^ 32 - 1` and so lowers by one unless it is zero. -/
theorem exact_decay_mirrors_kernel (load n : UInt64) (hload : load.toNat < 2 ^ 32) :
    (n.toNat % 32 ≠ 0 → exactDecayLoad load n.toNat = decayLoad load n) ∧
      (n.toNat % 32 = 0 →
        (exactDecayLoad load n.toNat).toNat = load.toNat / 2 ^ (n.toNat / 32) ∧
          (decayLoad load n).toNat = load.toNat / 2 ^ (n.toNat / 32) - 1) := by
  have hexact := toNat_exactDecayLoad load n.toNat
  have hkernel := toNat_kernelDecay (n := n) hload
  rw [exactDecay_of_lt hload] at hexact
  refine ⟨fun hr => ?_, fun hr => ?_⟩
  · rw [← UInt64.toNat_inj, hexact, hkernel, exactRest, decayFactor, if_neg hr, kernelFactor]
  · have hlt : load.toNat / 2 ^ (n.toNat / 32) < 2 ^ 32 := (Nat.div_le_self _ _).trans_lt hload
    have hfactor : kernelFactor 0 = 2 ^ 32 - 1 := rfl
    rw [hr, exactRest_zero] at hexact
    rw [hr, hfactor, mul_pred_div hlt] at hkernel
    exact ⟨hexact, hkernel⟩

theorem exact_decay_mirrors_kernel_40 : exactDecayLoad 1024 40 = decayLoad 1024 40 :=
  (exact_decay_mirrors_kernel 1024 40 (by decide)).1 (by decide)

/-- After one half-life a load of 1024 is 512, in the kernel 511. -/
theorem exact_decay_not_kernel :
    ¬∀ load n : UInt64, load.toNat < 2 ^ 32 → 1 ≤ n.toNat →
      exactDecayLoad load n.toNat = decayLoad load n := by
  intro h
  exact absurd (h 1024 32 (by decide) (by decide)) (by decide)

end ApexCfs
