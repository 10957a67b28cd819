import ApexCfs.Proofs.VruntimeScaling

/-! The exact vruntime scaling over all 64-bit deltas. Below `2 ^ 32` it multiplies by the
inverse at once, from there on it halves the delta and doubles the product; both track
`1024 * delta / weight`, and they meet without a step down. -/

namespace ApexCfs

/-- `exact_calc_delta_fair` over the natural numbers, where no cast cuts and no shift
loses a high bit. -/
def exactDelta (d w : ℕ) : ℕ :=
  if w = 1024 then d
  else if d < 2 ^ 32 then scaled d (2 ^ 32 / w)
  else 2 * scaled (d / 2) (2 ^ 32 / w)

variable {w : ℕ}

theorem scaled_le_target (d : ℕ) (hw : 0 < w) : scaled d (2 ^ 32 / w) ≤ 1024 * d / w := by
  rw [Nat.le_div_iff_mul_le hw]
  have hinv : w * (2 ^ 32 / w) ≤ 2 ^ 32 := Nat.mul_div_le _ _
  have hprod : 2 ^ 22 * scaled d (2 ^ 32 / w) ≤ d * (2 ^ 32 / w) := Nat.mul_div_le _ _
  have hmul := Nat.mul_le_mul_left d hinv
  have hmul' := Nat.mul_le_mul_right w hprod
  refine Nat.le_of_mul_le_mul_left ?_ (by norm_num : 0 < 2 ^ 22)
  linarith

/-- The inverse costs less than `d / 2 ^ 22`, the shift less than one. -/
theorem target_lt (d : ℕ) (hw : 0 < w) :
    (1024 * d / w : ℚ) < scaled d (2 ^ 32 / w) + d / 2 ^ 22 + 1 := by
  have hw' : (0 : ℚ) < w := by exact_mod_cast hw
  have hinv : 2 ^ 32 < w * (2 ^ 32 / w + 1) := Nat.lt_mul_div_succ _ hw
  have hprod : d * (2 ^ 32 / w) < 2 ^ 22 * (scaled d (2 ^ 32 / w) + 1) :=
    Nat.lt_mul_div_succ _ (by norm_num)
  have hmul := Nat.mul_le_mul_left d hinv.le
  generalize 2 ^ 32 / w = inv at hmul hprod ⊢
  have hlt : 1024 * d * 2 ^ 22 < (2 ^ 22 * (scaled d inv + 1) + d) * w := by nlinarith
  rw [div_lt_iff₀ hw']
  have hlt' : (1024 * d * 2 ^ 22 : ℚ) < (2 ^ 22 * (scaled d inv + 1) + d) * w := by exact_mod_cast hlt
  have hdiv : ((scaled d inv + d / 2 ^ 22 + 1) * w : ℚ) =
      (2 ^ 22 * (scaled d inv + 1) + d) * w / 2 ^ 22 := by ring
  rw [hdiv, lt_div_iff₀ (by norm_num)]
  exact hlt'

theorem scaled_mono_left {d d' : ℕ} (h : d ≤ d') (inv : ℕ) : scaled d inv ≤ scaled d' inv :=
  Nat.div_le_div_right (Nat.mul_le_mul_right inv h)

theorem exactDelta_le (d : ℕ) (hw : 0 < w) : exactDelta d w ≤ 1024 * d / w := by
  unfold exactDelta
  split_ifs with h1024 hd
  · rw [h1024, Nat.mul_div_cancel_left d (by norm_num)]
  · exact scaled_le_target d hw
  · have hhalf := (Nat.le_div_iff_mul_le hw).1 (scaled_le_target (d / 2) hw)
    rw [Nat.le_div_iff_mul_le hw]
    have htwice : 2 * (d / 2) ≤ d := Nat.mul_div_le d 2
    linarith

/-- Halving loses at most one from the delta and doubles the rounding. -/
theorem target_sub_exactDelta_lt (d : ℕ) (hw : 0 < w) :
    ((1024 * d / w : ℕ) : ℚ) - exactDelta d w < d / 2 ^ 22 + 1024 / w + 2 := by
  have hfloor := (Truncated.div_bounds (1024 * d) hw).1
  have hpos : (0 : ℚ) ≤ 1024 / w := by positivity
  push_cast at hfloor ⊢
  unfold exactDelta
  split_ifs with h1024 hd
  · have hself : 1024 * d / w = d := by rw [h1024, Nat.mul_div_cancel_left d (by norm_num)]
    have hd0 : (0 : ℚ) ≤ d / 2 ^ 22 := by positivity
    rw [hself]
    linarith
  · have hlt := target_lt d hw
    linarith
  · have hlt := target_lt (d / 2) hw
    have hhalf : (d : ℚ) ≤ 2 * (d / 2 : ℕ) + 1 := by exact_mod_cast (by omega : d ≤ 2 * (d / 2) + 1)
    have hhalf' : (2 * (d / 2 : ℕ) : ℚ) ≤ d := by exact_mod_cast Nat.mul_div_le d 2
    have htarget : (1024 * d / w : ℚ) ≤ 2 * (1024 * (d / 2 : ℕ) / w) + 1024 / w := by
      have hw' : (0 : ℚ) < w := by exact_mod_cast hw
      rw [← mul_div_assoc, ← add_div]
      gcongr
      linarith
    push_cast
    linarith

/-- The join at `2 ^ 32`: there both sides are `1024` times the inverse. -/
theorem scaled_le_join {d d' : ℕ} (hd : d < 2 ^ 32) (hd' : 2 ^ 32 ≤ d') (inv : ℕ) :
    scaled d inv ≤ 2 * scaled (d' / 2) inv := by
  have hlow : scaled d inv ≤ scaled (2 ^ 32) inv := scaled_mono_left hd.le inv
  have hhigh : scaled (2 ^ 31) inv ≤ scaled (d' / 2) inv := scaled_mono_left (by omega) inv
  have hjoin : scaled (2 ^ 32) inv = 2 * scaled (2 ^ 31) inv := by
    unfold scaled
    omega
  linarith

theorem exactDelta_mono {d d' : ℕ} (h : d ≤ d') (w : ℕ) : exactDelta d w ≤ exactDelta d' w := by
  unfold exactDelta
  split_ifs with h1024 hd hd' hd'
  · exact h
  · exact scaled_mono_left h _
  · exact scaled_le_join hd (by omega) _
  · omega
  · exact Nat.mul_le_mul_left 2 (scaled_mono_left (Nat.div_le_div_right h) _)

/-- While the target fits 64 bits nothing is truncated. -/
theorem toNat_exactCalcDeltaFair {d : UInt64} {w : UInt32} (hw : 2 ≤ w.toNat)
    (hrange : 1024 * d.toNat / w.toNat < 2 ^ 64) :
    (exactCalcDeltaFair d w).toNat = exactDelta d.toNat w.toNat := by
  have hbound := (exactDelta_le d.toNat (by omega)).trans_lt hrange
  have h1024 : w = NICE_0_LOAD ↔ w.toNat = 1024 := by
    rw [← UInt32.toNat_inj]
    rfl
  unfold exactDelta at hbound ⊢
  split_ifs at hbound ⊢ with hne hd
  · rw [h1024.2 hne, (delta_nice0 d 0).1]
  · exact toNat_exactDelta hd hw
  · have h0 := Word.ne_zero_of_toNat_pos (by omega : 0 < w.toNat)
    have hscaled : d > UINT32_MAX := by
      rw [gt_iff_lt, UInt64.lt_iff_toNat_lt]
      exact show 2 ^ 32 - 1 < d.toNat by omega
    have hinv := toNat_wmult_div w
    have hhalf : (d >>> 1).toNat = d.toNat / 2 := by
      rw [UInt64.toNat_shiftRight]
      exact Nat.shiftRight_eq_div_pow _ 1
    have hlt : (WMULT_CONST / w.toUInt64).toNat < 2 ^ 32 := by
      rw [hinv]
      exact Nat.div_lt_self (by norm_num) hw
    have hfit : scaled (d >>> 1).toNat (WMULT_CONST / w.toUInt64).toNat < 2 ^ 64 := by
      rw [hhalf, hinv]
      omega
    have hshift := toNat_scale_of_lt hlt hfit
    rw [hhalf, hinv] at hshift
    simp only [exactCalcDeltaFair, if_neg (mt h1024.1 hne), if_neg h0, hscaled, decide_true, if_true]
    rw [UInt64.toNat_shiftLeft, hshift, Nat.shiftLeft_eq, mul_comm]
    exact Nat.mod_eq_of_lt hbound

/-- The exact scaling is accurate and monotone: while `1024 * d / w` fits 64 bits nothing is
truncated, the value stays at or below that target and short of it by less than the error of
the inverse and of the roundings, and a larger delta is never charged less. -/
theorem exact_scaling_tracks (w : UInt32) (d : UInt64) (hw : 2 ≤ w.toNat)
    (hrange : 1024 * d.toNat / w.toNat < 2 ^ 64) :
    (exactCalcDeltaFair d w).toNat = exactDelta d.toNat w.toNat ∧
      (exactCalcDeltaFair d w).toNat ≤ 1024 * d.toNat / w.toNat ∧
      ((1024 * d.toNat / w.toNat : ℕ) : ℚ) - (exactCalcDeltaFair d w).toNat <
        d.toNat / 2 ^ 22 + 1024 / w.toNat + 2 ∧
      ∀ d' ≤ d, exactCalcDeltaFair d' w ≤ exactCalcDeltaFair d w := by
  have heq := toNat_exactCalcDeltaFair hw hrange
  refine ⟨heq, ?_, ?_, fun d' hle => ?_⟩
  · rw [heq]
    exact exactDelta_le d.toNat (by omega)
  · rw [heq]
    exact target_sub_exactDelta_lt d.toNat (by omega)
  · have hle' := UInt64.le_iff_toNat_le.1 hle
    have hrange' : 1024 * d'.toNat / w.toNat < 2 ^ 64 :=
      (Nat.div_le_div_right (Nat.mul_le_mul_left 1024 hle')).trans_lt hrange
    rw [UInt64.le_iff_toNat_le, heq, toNat_exactCalcDeltaFair hw hrange']
    exact exactDelta_mono hle' w.toNat

/-- Weight 3 at the first delta that is halved. -/
theorem exact_scaling_tracks_3 :
    (exactCalcDeltaFair 0x100000000 3).toNat ≤ 1024 * (0x100000000 : UInt64).toNat / (3 : UInt32).toNat ∧
      exactCalcDeltaFair UINT32_MAX 3 ≤ exactCalcDeltaFair 0x100000000 3 :=
  ⟨(exact_scaling_tracks 3 0x100000000 (by decide) (by decide)).2.1,
    (exact_scaling_tracks 3 0x100000000 (by decide) (by decide)).2.2.2 UINT32_MAX (by decide)⟩

end ApexCfs
