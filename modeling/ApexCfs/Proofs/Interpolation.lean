import ApexCfs.Proofs.ClosedForm

/-! The interpolated decay against the exact one. Inside the coarse table the two
differ by the interpolation error and the roundings; its last segment has no
right neighbour, and there the decay drops to half of what it should leave. -/

namespace ApexCfs

open HalfLife Truncated

/-- The factor that the interpolation stands for at `r < 32` periods. -/
def interpolatedFactor (r : ℕ) : ℚ :=
  (cltiFactor (r / 4) * (4 - r % 4) + cltiFactor (r / 4 + 1) * (r % 4) : ℕ) / (4 * 2 ^ 15 : ℕ)

/-- The documented bound on the interpolation error holds at every phase before
the last segment. -/
theorem interpolatedFactor_error : ∀ r < 29,
    |interpolatedFactor r - decayFactor r / 2 ^ 32| ≤ 0.000939 := by
  decide +kernel

theorem exactRest_near (r load : ℕ) :
    |(exactRest r load : ℚ) - load * (decayFactor r / 2 ^ 32)| ≤ 1 := by
  obtain ⟨hle, hlt⟩ := div_bounds (load * decayFactor r) (by norm_num : 0 < 2 ^ 32)
  push_cast at hle hlt
  rw [exactRest, abs_le, ← mul_div_assoc]
  push_cast
  refine ⟨?_, ?_⟩ <;> linarith

theorem cltiRest_near {r : ℕ} (hr : r < 29) (load : ℕ) :
    |(cltiRest r load : ℚ) - load * interpolatedFactor r| ≤ 1 := by
  obtain ⟨hb1, hb2⟩ := div_bounds (load * cltiFactor (r / 4)) (by norm_num : 0 < 2 ^ 15)
  obtain ⟨hn1, hn2⟩ := div_bounds (load * cltiFactor (r / 4 + 1)) (by norm_num : 0 < 2 ^ 15)
  have hm : r % 4 < 4 := Nat.mod_lt r (by norm_num)
  unfold cltiRest interpolatedFactor
  rw [abs_le]
  rcases Nat.eq_zero_or_pos (r % 4) with h0 | hpos
  · simp only [h0, if_true]
    push_cast at hb1 hb2 ⊢
    refine ⟨?_, ?_⟩ <;> linarith
  · have hmono : load * cltiFactor (r / 4 + 1) / 2 ^ 15 ≤ load * cltiFactor (r / 4) / 2 ^ 15 :=
      Nat.div_le_div_right (Nat.mul_le_mul_left _ (cltiFactor_succ (r / 4) (by omega)).1)
    simp only [hpos.ne', if_neg (show r / 4 ≠ 7 by omega), if_false]
    generalize load * cltiFactor (r / 4) / 2 ^ 15 = base at hb1 hb2 hmono ⊢
    generalize load * cltiFactor (r / 4 + 1) / 2 ^ 15 = next at hn1 hn2 hmono ⊢
    generalize r % 4 = m at hm hpos ⊢
    obtain ⟨hc1, hc2⟩ := div_bounds ((base - next) * m) (by norm_num : 0 < 4)
    have hsub : (base - next) * m / 4 ≤ base := by
      have := Nat.mul_le_mul_left (base - next) hm.le
      omega
    rw [Nat.cast_sub hsub]
    rw [Nat.cast_mul, Nat.cast_sub hmono] at hc1 hc2
    push_cast at hb1 hb2 hn1 hn2 hc1 hc2 ⊢
    have hcases : m = 1 ∨ m = 2 ∨ m = 3 := by omega
    rcases hcases with rfl | rfl | rfl <;> push_cast at hc1 hc2 ⊢ <;> refine ⟨?_, ?_⟩ <;> linarith

theorem rest_last (load : ℕ) :
    (cltiRest 29 load = load * 17867 / 2 ^ 15 / 2 ∧ exactRest 29 load = load * 0x88980e80 / 2 ^ 32) ∧
    (cltiRest 30 load = load * 17867 / 2 ^ 15 / 2 ∧ exactRest 30 load = load * 0x85aac367 / 2 ^ 32) ∧
    (cltiRest 31 load = load * 17867 / 2 ^ 15 / 2 ∧ exactRest 31 load = load * 0x82cd8698 / 2 ^ 32) :=
  ⟨⟨rfl, rfl⟩, ⟨rfl, rfl⟩, rfl, rfl⟩

theorem cltiRest_le_exactRest {r : ℕ} (h29 : 29 ≤ r) (hr : r < 32) (load : ℕ) :
    cltiRest r load ≤ exactRest r load := by
  obtain ⟨⟨hc29, he29⟩, ⟨hc30, he30⟩, hc31, he31⟩ := rest_last load
  have hcases : r = 29 ∨ r = 30 ∨ r = 31 := by omega
  rcases hcases with rfl | rfl | rfl
  · rw [hc29, he29]
    omega
  · rw [hc30, he30]
    omega
  · rw [hc31, he31]
    omega

theorem exactRest_le_cltiRest_iff {r : ℕ} (h29 : 29 ≤ r) (hr : r < 32) (load : ℕ) :
    10 ^ 6 * exactRest r load ≤ 10 ^ 6 * cltiRest r load + 939 * load + 3 * 10 ^ 6 ↔
      load ≤ 13 ∨ (load = 15 ∧ 30 ≤ r) := by
  have hcases : r = 29 ∨ r = 30 ∨ r = 31 := by omega
  rcases Nat.lt_or_ge load 64 with h | h
  · -- near the threshold the roundings decide, load by load
    have hsmall : ∀ load < 64, ∀ r, r = 29 ∨ r = 30 ∨ r = 31 →
        (10 ^ 6 * exactRest r load ≤ 10 ^ 6 * cltiRest r load + 939 * load + 3 * 10 ^ 6 ↔
          load ≤ 13 ∨ (load = 15 ∧ 30 ≤ r)) := by
      simp only [forall_eq_or_imp, forall_eq]
      decide
    exact hsmall load h r hcases
  · obtain ⟨⟨hc29, he29⟩, ⟨hc30, he30⟩, hc31, he31⟩ := rest_last load
    rcases hcases with rfl | rfl | rfl
    · rw [hc29, he29]
      omega
    · rw [hc30, he30]
      omega
    · rw [hc31, he31]
      omega

/-- The documented bound, 0.0939% of the shifted load and 3 for the roundings. -/
def WithinInterpolationBound (load : UInt64) (n : ℕ) : Prop :=
  |((cltiDecayLoad load n).toNat : ℚ) - (exactDecayLoad load n).toNat| ≤
    0.000939 * (load >>> UInt64.ofNat (n / 32)).toNat + 3

/-- The interpolated decay meets its bound unless the periods end in the last
segment of the table, where it does at a few small loads only. -/
theorem interpolation_bound_iff (load : UInt64) (n : ℕ) (hn : n < 2016) :
    WithinInterpolationBound load n ↔
      n % 32 ≤ 28 ∨ (load >>> UInt64.ofNat (n / 32)).toNat ≤ 13 ∨
        ((load >>> UInt64.ofNat (n / 32)).toNat = 15 ∧ 30 ≤ n % 32) := by
  have hr : n % 32 < 32 := Nat.mod_lt n (by norm_num)
  rw [WithinInterpolationBound, toNat_cltiDecayLoad, toNat_exactDecayLoad, cltiDecay, exactDecay,
    decay_of_lt hn, decay_of_lt hn, Word.toNat_shiftRight_ofNat _ (by omega)]
  generalize load.toNat / 2 ^ (n / 32) = l
  generalize n % 32 = r at hr ⊢
  rcases Nat.lt_or_ge r 29 with h | h
  · refine iff_of_true ?_ (Or.inl (by omega))
    have hclti := abs_le.mp (cltiRest_near h l)
    have hexact := abs_le.mp (exactRest_near r l)
    have htable := abs_le.mp (interpolatedFactor_error r h)
    have hl : (0 : ℚ) ≤ l := by positivity
    have hlow := mul_le_mul_of_nonneg_left htable.1 hl
    have hhigh := mul_le_mul_of_nonneg_left htable.2 hl
    rw [abs_le]
    refine ⟨?_, ?_⟩ <;> linarith
  · have hle : (cltiRest r l : ℚ) ≤ exactRest r l := by
      exact_mod_cast cltiRest_le_exactRest h hr l
    have hnat : |(cltiRest r l : ℚ) - exactRest r l| ≤ 0.000939 * l + 3 ↔
        10 ^ 6 * exactRest r l ≤ 10 ^ 6 * cltiRest r l + 939 * l + 3 * 10 ^ 6 := by
      rw [abs_sub_comm, abs_of_nonneg (by linarith), ← Nat.cast_le (α := ℚ)]
      push_cast
      refine ⟨?_, ?_⟩ <;> intro h <;> linarith
    rw [hnat, exactRest_le_cltiRest_iff h hr l]
    refine ⟨?_, ?_⟩
    · exact Or.inr
    · intro hcond
      exact hcond.resolve_left (by omega)

theorem interpolation_bound_iff_31 : WithinInterpolationBound 1024 31 ↔
    31 % 32 ≤ 28 ∨ ((1024 : UInt64) >>> UInt64.ofNat (31 / 32)).toNat ≤ 13 ∨
      (((1024 : UInt64) >>> UInt64.ofNat (31 / 32)).toNat = 15 ∧ 30 ≤ 31 % 32) :=
  interpolation_bound_iff 1024 31 (by decide)

/-- A load of 1024 after 31 periods: 279 where the exact decay leaves 523. -/
theorem interpolation_bound_exceeded :
    ¬ ∀ (load : UInt64) (n : ℕ), n < 2016 → WithinInterpolationBound load n := by
  intro h
  have hfail := h 1024 31 (by norm_num)
  revert hfail
  unfold WithinInterpolationBound
  decide +kernel

end ApexCfs
