import ApexCfs.Lib.Newton
import ApexCfs.Proofs.NearestPow2

/-! The reciprocal that BSA and APAF scale by: the affine start at the mantissa, and Newton
steps that converge to `2 ^ 32 / weight` from below. -/

namespace ApexCfs

open Newton

/-- Below `2` in Q0.32 a pass of the loop is a Newton step: nothing is truncated. -/
theorem newtonLoop_succ {weight : UInt32} {x : UInt64} (h0 : 0 < weight.toNat)
    (hx : weight.toNat * x.toNat < 2 * 2 ^ 32) (n : ℕ) :
    ∃ y : UInt64, y.toNat = step (2 ^ 32) weight.toNat x.toNat ∧
      newtonLoop (n + 1) weight x = newtonLoop n weight y := by
  have htwo : ((2 : UInt64) <<< 32).toNat = 2 * 2 ^ 32 := rfl
  have hwx : (UInt64.ofNat (weight.toNat * x.toNat)).toNat = weight.toNat * x.toNat :=
    Word.toNat_ofNat_of_lt (by omega)
  have hgo : ¬UInt64.ofNat (weight.toNat * x.toNat) ≥ (2 : UInt64) <<< 32 := by
    rw [ge_iff_le, UInt64.le_iff_toNat_le, hwx, htwo]
    omega
  have hsub : ((2 : UInt64) <<< 32 - UInt64.ofNat (weight.toNat * x.toNat)).toNat =
      2 * 2 ^ 32 - weight.toNat * x.toNat := by
    rw [UInt64.toNat_sub_of_le _ _ (UInt64.le_iff_toNat_le.2 (by omega)), hwx, htwo]
  have hxlt : x.toNat < 2 * 2 ^ 32 := (Nat.le_mul_of_pos_left _ h0).trans_lt hx
  have hstep : step (2 ^ 32) weight.toNat x.toNat < 2 ^ 64 := by
    calc step (2 ^ 32) weight.toNat x.toNat ≤ 2 * 2 ^ 32 * (2 * 2 ^ 32) / 2 ^ 32 :=
          Nat.div_le_div_right (Nat.mul_le_mul hxlt.le (Nat.sub_le _ _))
      _ < 2 ^ 64 := by norm_num
  refine ⟨_, Word.toNat_ofNat_of_lt hstep, ?_⟩
  simp only [newtonLoop, if_neg hgo, hsub, Nat.shiftRight_eq_div_pow, step]

theorem toNat_newtonLoop {weight : UInt32} {x : UInt64} (h0 : 0 < weight.toNat)
    (hx : weight.toNat * x.toNat < 2 * 2 ^ 32) (n : ℕ) :
    (newtonLoop n weight x).toNat = (step (2 ^ 32) weight.toNat)^[n] x.toNat := by
  induction n generalizing x with
  | zero => rfl
  | succ n ih =>
    obtain ⟨y, hy, hloop⟩ := newtonLoop_succ h0 hx n
    have hbelow := mul_step_le (by norm_num : 0 < 2 ^ 32) hx.le
    rw [← hy] at hbelow
    rw [hloop, ih (by omega), hy, Function.iterate_succ_apply]

theorem newtonLoop_add {weight : UInt32} {x : UInt64} (h0 : 0 < weight.toNat)
    (hx : weight.toNat * x.toNat < 2 * 2 ^ 32) (m n : ℕ) :
    newtonLoop (m + n) weight x = newtonLoop n weight (newtonLoop m weight x) := by
  induction m generalizing x with
  | zero => rw [Nat.zero_add, newtonLoop]
  | succ m ih =>
    obtain ⟨y, hy, hloop⟩ := newtonLoop_succ h0 hx (m + n)
    obtain ⟨y', hy', hloop'⟩ := newtonLoop_succ h0 hx m
    have hbelow := mul_step_le (by norm_num : 0 < 2 ^ 32) hx.le
    rw [← hy] at hbelow
    rw [show m + 1 + n = m + n + 1 by omega, hloop, hloop', ← UInt64.toNat_inj.1 (hy.trans hy'.symm),
      ih (by omega)]

/-- The word operations of `bsa_newton_reciprocal weight n`, for any `n`, have the values
they have over the natural numbers, and its break is not taken. -/
structure ReciprocalExact (weight : UInt32) : Prop where
  doubled : ∀ rounds, (floorPow2Loop rounds weight 1 <<< 1).toNat =
    (floorPow2Loop rounds weight 1).toNat * 2
  floor_le : floorPow2Loop 32 weight 1 ≤ weight
  le_ceil : weight ≤ floorPow2Loop 32 weight 1 <<< 1
  mantissa : (weight.toUInt64 <<< 32).toNat = weight.toNat * 2 ^ 32
  affine : ((weight.toUInt64 <<< 32) / (bsaNearestPow2 weight).toUInt64) >>> 1 ≤ (3 : UInt64) <<< 31
  start : (bsaNewtonReciprocal weight 0).toNat = 2 ^ 32 / (bsaNearestPow2 weight).toNat *
    (3 * 2 ^ 31 - weight.toNat * 2 ^ 32 / (bsaNearestPow2 weight).toNat / 2) / 2 ^ 32
  /-- the pass after the first `m` ones starts with the value that `m` iterations return -/
  resume : ∀ m n, bsaNewtonReciprocal weight (m + n) =
    newtonLoop n weight (bsaNewtonReciprocal weight m)
  no_break : ∀ m, weight.toNat * (bsaNewtonReciprocal weight m).toNat < 2 * 2 ^ 32
  step : ∀ m, (bsaNewtonReciprocal weight (m + 1)).toNat = (bsaNewtonReciprocal weight m).toNat *
    (2 * 2 ^ 32 - weight.toNat * (bsaNewtonReciprocal weight m).toNat) / 2 ^ 32

theorem toNat_mantissa (weight : UInt32) :
    (weight.toUInt64 <<< 32).toNat = weight.toNat * 2 ^ 32 := by
  have hlt := UInt32.toNat_lt weight
  have hword : weight.toNat * 2 ^ 32 < 2 ^ 64 := by omega
  rw [UInt64.toNat_shiftLeft, UInt32.toNat_toUInt64, Nat.shiftLeft_eq]
  exact Nat.mod_eq_of_lt hword

theorem toNat_halfMantissa (weight p : UInt32) :
    (((weight.toUInt64 <<< 32) / p.toUInt64) >>> 1).toNat = weight.toNat * 2 ^ 32 / p.toNat / 2 := by
  rw [UInt64.toNat_shiftRight, UInt64.toNat_div, toNat_mantissa, UInt32.toNat_toUInt64]
  exact Nat.shiftRight_eq_div_pow _ 1

theorem affine_start {p v : ℕ} (hp : 0 < p) (hpv : p * v = 2 ^ 31) (w : ℕ) :
    w * 2 ^ 32 / p / 2 = w * v ∧
      2 ^ 32 / p * (3 * 2 ^ 31 - w * v) / 2 ^ 32 = v * (3 * p - w) / p := by
  have h32 : 2 ^ 32 = p * (2 * v) := by
    rw [mul_left_comm, hpv]
    rfl
  have hv : 0 < v := Nat.pos_of_ne_zero fun h => by simp [h] at hpv
  refine ⟨?_, ?_⟩
  · rw [h32, mul_left_comm, Nat.mul_div_cancel_left _ hp, mul_left_comm,
      Nat.mul_div_cancel_left _ (by norm_num)]
  · have hnum : 3 * 2 ^ 31 - w * v = v * (3 * p - w) := by
      rw [← hpv, Nat.mul_sub, ← mul_assoc, mul_comm v, mul_comm v w]
    rw [hnum, h32, Nat.mul_div_cancel_left _ hp, mul_comm p,
      Nat.mul_div_mul_left _ _ (by omega)]

theorem affine_le {weight p : UInt32} {v : ℕ} (hp : 0 < p.toNat) (hpv : p.toNat * v = 2 ^ 31)
    (hhi : 2 * weight.toNat ≤ 3 * p.toNat) :
    ((weight.toUInt64 <<< 32) / p.toUInt64) >>> 1 ≤ (3 : UInt64) <<< 31 := by
  have hmul := Nat.mul_le_mul_right v hhi
  rw [mul_assoc, mul_assoc, hpv] at hmul
  rw [UInt64.le_iff_toNat_le, toNat_halfMantissa, (affine_start hp hpv _).1]
  exact show weight.toNat * v ≤ 3 * 2 ^ 31 by omega

theorem toNat_wmult_div (w : UInt32) : (WMULT_CONST / w.toUInt64).toNat = 2 ^ 32 / w.toNat := by
  rw [UInt64.toNat_div, UInt32.toNat_toUInt64]
  rfl

theorem toNat_reciprocal_zero {weight : UInt32} {v : ℕ} (h0 : 0 < weight.toNat)
    (hp : 0 < (bsaNearestPow2 weight).toNat) (hpv : (bsaNearestPow2 weight).toNat * v = 2 ^ 31)
    (hhi : 2 * weight.toNat ≤ 3 * (bsaNearestPow2 weight).toNat) :
    (bsaNewtonReciprocal weight 0).toNat = 2 ^ 32 / (bsaNearestPow2 weight).toNat *
      (3 * 2 ^ 31 - weight.toNat * 2 ^ 32 / (bsaNearestPow2 weight).toNat / 2) / 2 ^ 32 := by
  have hne := Word.ne_zero_of_toNat_pos h0
  have hsub := UInt64.toNat_sub_of_le _ _ (affine_le hp hpv hhi)
  rw [toNat_halfMantissa, show ((3 : UInt64) <<< 31).toNat = 3 * 2 ^ 31 from rfl] at hsub
  simp only [bsaNewtonReciprocal, if_neg hne, newtonLoop, toNat_wmult_div, hsub,
    Nat.shiftRight_eq_div_pow]
  refine Word.toNat_ofNat_of_lt ?_
  calc _ ≤ 2 ^ 32 * (3 * 2 ^ 31) / 2 ^ 32 :=
        Nat.div_le_div_right (Nat.mul_le_mul (Nat.div_le_self _ _) (Nat.sub_le _ _))
    _ < 2 ^ 64 := by norm_num

theorem bsaNewtonReciprocal_start {weight : UInt32} (h0 : 0 < weight.toNat)
    (h31 : weight.toNat < 2 ^ 31) :
    ∃ p v, 0 < p ∧ p * v = 2 ^ 31 ∧ (bsaNearestPow2 weight).toNat = p ∧ 3 * p < 4 * weight.toNat ∧
      2 * weight.toNat ≤ 3 * p ∧
      (bsaNewtonReciprocal weight 0).toNat = v * (3 * p - weight.toNat) / p := by
  obtain ⟨k, hk, hpow, hlo, hhi⟩ := bsaNearestPow2_spec h0 (by omega)
  have hpv : 2 ^ k * 2 ^ (31 - k) = 2 ^ 31 := by rw [← pow_add, Nat.add_sub_cancel' hk]
  have hpos : 0 < 2 ^ k := by positivity
  rw [← hpow] at hpv hpos hlo hhi
  refine ⟨_, 2 ^ (31 - k), hpos, hpv, rfl, hlo, hhi, ?_⟩
  rw [toNat_reciprocal_zero h0 hpos hpv hhi, (affine_start hpos hpv _).1, (affine_start hpos hpv _).2]

theorem bsaNewtonReciprocal_eq {weight : UInt32} (h0 : 0 < weight.toNat) (n : ℕ) :
    bsaNewtonReciprocal weight n = newtonLoop n weight (bsaNewtonReciprocal weight 0) := by
  have hne := Word.ne_zero_of_toNat_pos h0
  simp only [bsaNewtonReciprocal, if_neg hne, newtonLoop]

section Convergence

variable {weight : UInt32} (h0 : 0 < weight.toNat) (h29 : weight.toNat ≤ 2 ^ 29)

include h0 h29

theorem reciprocal_first : weight.toNat * (bsaNewtonReciprocal weight 0).toNat < 2 * 2 ^ 32 ∧
    err (2 ^ 32) weight.toNat (step (2 ^ 32) weight.toNat (bsaNewtonReciprocal weight 0).toNat) ≤
      25 / 1024 + 2 * (weight.toNat / (2 ^ 32 : ℕ)) := by
  obtain ⟨p, v, hp, hpv, -, hlo, hhi, hstart⟩ := bsaNewtonReciprocal_start h0 (by omega)
  have hv : 0 < v := Nat.pos_of_ne_zero fun h => by simp [h] at hpv
  have h32 : 2 * p * v = 2 ^ 32 := by
    rw [mul_assoc, hpv]
    rfl
  have hfirst := err_first_step hp hv hlo.le hhi (by omega)
  rwa [h32, ← hstart] at hfirst

theorem toNat_reciprocal (n : ℕ) : (bsaNewtonReciprocal weight n).toNat =
    (step (2 ^ 32) weight.toNat)^[n] (bsaNewtonReciprocal weight 0).toNat := by
  rw [bsaNewtonReciprocal_eq h0, toNat_newtonLoop h0 (reciprocal_first h0 h29).1]

theorem reciprocal_succ_le (n : ℕ) :
    weight.toNat * (bsaNewtonReciprocal weight (n + 1)).toNat ≤ 2 ^ 32 := by
  have hone := mul_step_le (by norm_num) (reciprocal_first h0 h29).1.le
  rw [toNat_reciprocal h0 h29, Function.iterate_succ_apply]
  exact mul_iterate_le (by norm_num) hone n

theorem reciprocal_lt (n : ℕ) :
    weight.toNat * (bsaNewtonReciprocal weight n).toNat < 2 * 2 ^ 32 := by
  cases n with
  | zero => exact (reciprocal_first h0 h29).1
  | succ n => exact (reciprocal_succ_le h0 h29 n).trans_lt (by norm_num)

theorem toNat_reciprocal_succ (n : ℕ) : (bsaNewtonReciprocal weight (n + 1)).toNat =
    step (2 ^ 32) weight.toNat (bsaNewtonReciprocal weight n).toNat := by
  rw [toNat_reciprocal h0 h29 (n + 1), toNat_reciprocal h0 h29 n, Function.iterate_succ_apply']

theorem reciprocal_mono (n : ℕ) : (bsaNewtonReciprocal weight (n + 1)).toNat ≤
    (bsaNewtonReciprocal weight (n + 2)).toNat := by
  rw [toNat_reciprocal_succ h0 h29 (n + 1)]
  exact le_step (by norm_num) (reciprocal_succ_le h0 h29 n)

theorem reciprocal_error (n : ℕ) :
    err (2 ^ 32) weight.toNat (bsaNewtonReciprocal weight (n + 1)).toNat ≤
      (25 / 1024) ^ 2 ^ n + 2 * (weight.toNat / (2 ^ 32 : ℕ)) := by
  obtain ⟨hlt, hfirst⟩ := reciprocal_first h0 h29
  have hsmall : (weight.toNat : ℚ) / (2 ^ 32 : ℕ) ≤ 1 / 8 := by
    rw [div_le_div_iff₀ (by norm_num) (by norm_num)]
    exact_mod_cast (by omega : weight.toNat * 8 ≤ 1 * 2 ^ 32)
  rw [toNat_reciprocal h0 h29, Function.iterate_succ_apply]
  exact err_iterate_le (by norm_num) (mul_step_le (by norm_num) hlt.le) (by norm_num)
    (by linarith) hfirst n

end Convergence

theorem reciprocalExact {weight : UInt32} (h0 : 0 < weight.toNat) (h29 : weight.toNat ≤ 2 ^ 29) :
    ReciprocalExact weight := by
  obtain ⟨p, v, hp, hpv, rfl, hlo, hhi, -⟩ := bsaNewtonReciprocal_start h0 (by omega)
  have hdouble : ∀ rounds, (floorPow2Loop rounds weight 1 <<< 1).toNat =
      (floorPow2Loop rounds weight 1).toNat * 2 := fun rounds => by
    have hle := floorPow2Loop_le rounds (show (1 : UInt32).toNat ≤ weight.toNat from h0)
    rw [toNat_double, Nat.mod_eq_of_lt (by omega)]
  obtain ⟨k, -, hfloor, hle, hlt⟩ := floorPow2Loop_spec h0 (by norm_num : 31 ≤ 32)
  exact {
    doubled := hdouble
    floor_le := UInt32.le_iff_toNat_le.2 (hfloor.trans_le hle)
    le_ceil := by
      rw [UInt32.le_iff_toNat_le, hdouble, hfloor, ← pow_succ]
      exact hlt.le
    mantissa := toNat_mantissa weight
    affine := affine_le hp hpv hhi
    start := toNat_reciprocal_zero h0 hp hpv hhi
    resume := fun m n => by
      rw [bsaNewtonReciprocal_eq h0 (m + n), bsaNewtonReciprocal_eq h0 m,
        newtonLoop_add h0 (reciprocal_first h0 h29).1]
    no_break := reciprocal_lt h0 h29
    step := toNat_reciprocal_succ h0 h29 }

/-- Newton's reciprocal converges quadratically from below: no iteration takes the break
or wraps, and from the first one on the value stays at or below `2 ^ 32 / weight`, never
goes back, and its error is squared at every iteration, up to the roundings. -/
theorem newton_reciprocal_converges (weight : UInt32) (hpos : 1 ≤ weight.toNat)
    (hmax : weight.toNat ≤ 2 ^ 24) :
    ReciprocalExact weight ∧
      ∀ n, 1 ≤ n →
        weight.toNat * (bsaNewtonReciprocal weight n).toNat ≤ 2 ^ 32 ∧
        (2 ^ 32 - weight.toNat * (bsaNewtonReciprocal weight n).toNat : ℚ) ≤
          2 ^ 32 * (25 / 1024) ^ 2 ^ (n - 1) + 2 * weight.toNat ∧
        bsaNewtonReciprocal weight n ≤ bsaNewtonReciprocal weight (n + 1) := by
  have h29 : weight.toNat ≤ 2 ^ 29 := by omega
  refine ⟨reciprocalExact hpos h29, fun n hn => ?_⟩
  obtain ⟨n, rfl⟩ := Nat.exists_eq_add_of_le' hn
  have herr := reciprocal_error hpos h29 n
  refine ⟨reciprocal_succ_le hpos h29 n, ?_, UInt64.le_iff_toNat_le.2 (reciprocal_mono hpos h29 n)⟩
  rw [err] at herr
  push_cast at herr
  rw [Nat.add_sub_cancel]
  linarith

theorem newton_reciprocal_converges_3121 :
    (3121 : UInt32).toNat ≤ 2 ^ 24 ∧
      (3121 : UInt32).toNat * (bsaNewtonReciprocal 3121 1).toNat ≤ 2 ^ 32 :=
  ⟨by decide, ((newton_reciprocal_converges 3121 (by decide) (by decide)).2 1 le_rfl).1⟩

end ApexCfs
