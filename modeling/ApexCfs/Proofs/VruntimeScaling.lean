import ApexCfs.Proofs.Reciprocal
import ApexCfs.Spec.Apaf

/-! The scaled vruntime deltas of BSA and APAF against the exact one. All three are
`delta * inverse / 2 ^ 22`, and a bound on the inverses that is linear in the delta
carries over to the truncated products. -/

namespace ApexCfs

open Newton

/-- `approx` is at most `exact`, and short of it by at most the part `num / den` of `exact`. -/
def WithinBelow (num den : ℕ) (exact approx : UInt64) : Prop :=
  approx ≤ exact ∧ den * (exact.toNat - approx.toNat) ≤ num * exact.toNat

instance (num den : ℕ) (exact approx : UInt64) : Decidable (WithinBelow num den exact approx) :=
  inferInstanceAs (Decidable (_ ∧ _))

def scaled (d inv : ℕ) : ℕ := d * inv / 2 ^ 22

theorem scaled_mono {d inv inv' : ℕ} (h : inv ≤ inv') : scaled d inv ≤ scaled d inv' :=
  Nat.div_le_div_right (Nat.mul_le_mul_left d h)

theorem margin_mono {d₀ d a b c : ℕ} (hc : 0 < c) (hd : d₀ ≤ d) (h : d₀ * a + c ≤ d₀ * b) :
    d * a + c ≤ d * b := by
  have hslope : a ≤ b := by
    by_contra hlt
    have hmul := Nat.mul_le_mul_left d₀ (Nat.not_le.1 hlt).le
    omega
  obtain ⟨t, rfl⟩ := Nat.exists_eq_add_of_le hslope
  have hmul := Nat.mul_le_mul_right t hd
  rw [Nat.mul_add] at h ⊢
  omega

/-- A bound on the inverses with room for the two truncations at the delta `d₀` bounds the
scaled values from there on. -/
theorem scaled_bound {num den d₀ d inv x : ℕ} (hden : 0 < den) (hd : d₀ ≤ d)
    (h : d₀ * (den * inv) + (den + num) * 2 ^ 22 ≤ d₀ * (num * inv + den * x)) :
    den * (scaled d inv - scaled d x) ≤ num * scaled d inv := by
  have hlin := margin_mono (by omega) hd h
  have hinv : 2 ^ 22 * scaled d inv ≤ d * inv := Nat.mul_div_le _ _
  have hinv' : d * inv ≤ 2 ^ 22 * (scaled d inv + 1) := (Nat.lt_mul_div_succ _ (by norm_num)).le
  have hx : d * x ≤ 2 ^ 22 * (scaled d x + 1) := (Nat.lt_mul_div_succ _ (by norm_num)).le
  have hcancel : 2 ^ 22 * (den * scaled d inv) ≤
      2 ^ 22 * (num * scaled d inv + den * scaled d x) := by
    refine Nat.le_of_add_le_add_right (b := (den + num) * 2 ^ 22) ?_
    calc 2 ^ 22 * (den * scaled d inv) + (den + num) * 2 ^ 22
        = den * (2 ^ 22 * scaled d inv) + (den + num) * 2 ^ 22 := by ring
      _ ≤ den * (d * inv) + (den + num) * 2 ^ 22 :=
          Nat.add_le_add_right (Nat.mul_le_mul_left den hinv) _
      _ = d * (den * inv) + (den + num) * 2 ^ 22 := by ring
      _ ≤ d * (num * inv + den * x) := hlin
      _ = num * (d * inv) + den * (d * x) := by ring
      _ ≤ num * (2 ^ 22 * (scaled d inv + 1)) + den * (2 ^ 22 * (scaled d x + 1)) :=
          Nat.add_le_add (Nat.mul_le_mul_left num hinv') (Nat.mul_le_mul_left den hx)
      _ = 2 ^ 22 * (num * scaled d inv + den * scaled d x) + (den + num) * 2 ^ 22 := by ring
  rw [Nat.mul_sub, Nat.sub_le_iff_le_add]
  exact Nat.le_of_mul_le_mul_left hcancel (by norm_num)

/-- A gap between two inverses that outweighs the truncation at the delta `d₀` keeps the
scaled values apart from there on. -/
theorem scaled_separated {a b d₀ d x y : ℕ} (ha : 0 < a) (hd : d₀ ≤ d)
    (h : d₀ * (b * y) + a * 2 ^ 22 ≤ d₀ * (a * x)) : b * scaled d y < a * scaled d x := by
  have hlin := margin_mono (by omega) hd h
  have hy : b * (2 ^ 22 * scaled d y) ≤ b * (d * y) := Nat.mul_le_mul_left b (Nat.mul_div_le _ _)
  have hx : a * (d * x) < a * (2 ^ 22 * (scaled d x + 1)) :=
    Nat.mul_lt_mul_of_pos_left (Nat.lt_mul_div_succ _ (by norm_num)) ha
  refine Nat.lt_of_mul_lt_mul_left (a := 2 ^ 22) ?_
  linarith

theorem toNat_scale_of_lt {d inv : UInt64} (hinv : inv.toNat < 2 ^ 32)
    (hfit : scaled d.toNat inv.toNat < 2 ^ 64) :
    (exactMulU64U32Shr d inv.toUInt32 (WMULT_SHIFT - 10)).toNat = scaled d.toNat inv.toNat := by
  rw [exactMulU64U32Shr, UInt64.toNat_toUInt32, Nat.mod_eq_of_lt hinv, Nat.shiftRight_eq_div_pow]
  exact Word.toNat_ofNat_of_lt hfit

theorem toNat_scale {d inv : UInt64} (hd : d.toNat < 2 ^ 54) (hinv : inv.toNat < 2 ^ 32) :
    (exactMulU64U32Shr d inv.toUInt32 (WMULT_SHIFT - 10)).toNat = scaled d.toNat inv.toNat := by
  have hprod : d.toNat * inv.toNat < 2 ^ 64 * 2 ^ 22 := by
    calc d.toNat * inv.toNat < 2 ^ 54 * 2 ^ 32 := Nat.mul_lt_mul'' hd hinv
      _ = 2 ^ 64 * 2 ^ 22 := by norm_num
  exact toNat_scale_of_lt hinv ((Nat.div_lt_iff_lt_mul (by norm_num)).2 hprod)

theorem delta_nice0 (d : UInt64) (state : ℤ) : exactCalcDeltaFair d NICE_0_LOAD = d ∧
    bsaVruntimeDelta d NICE_0_LOAD = d ∧ apafVruntimeDelta d NICE_0_LOAD state = d :=
  ⟨if_pos rfl, if_pos rfl, if_pos rfl⟩

/-- The inverse of nice 0 gives every delta back, so charging it as it is makes no exception. -/
theorem scaled_nice0 (d : ℕ) : scaled d (2 ^ 22) = d := Nat.mul_div_cancel d (by norm_num)

theorem toNat_exactDelta {d : UInt64} {w : UInt32} (hd : d.toNat < 2 ^ 32) (hw : 2 ≤ w.toNat) :
    (exactCalcDeltaFair d w).toNat = scaled d.toNat (2 ^ 32 / w.toNat) := by
  by_cases hne : w = NICE_0_LOAD
  · rw [hne, (delta_nice0 d APAF_TIGHT).1]
    exact (scaled_nice0 d.toNat).symm
  have h0 := Word.ne_zero_of_toNat_pos (by omega : 0 < w.toNat)
  have hscaled : ¬d > UINT32_MAX := by
    rw [gt_iff_lt, UInt64.lt_iff_toNat_lt]
    exact show ¬2 ^ 32 - 1 < d.toNat by omega
  have hinv := toNat_wmult_div w
  have hlt : 2 ^ 32 / w.toNat < 2 ^ 32 := Nat.div_lt_self (by norm_num) hw
  simp only [exactCalcDeltaFair, if_neg hne, if_neg h0, hscaled, decide_false, Bool.false_eq_true, if_false]
  rw [toNat_scale (hd.trans (by norm_num)) (hinv ▸ hlt), hinv]

/-- The reciprocal is below `2 ^ 32` from weight 2 on, so its cut to 32 bits changes nothing. -/
theorem reciprocal_fits {w : UInt32} (hw : 2 ≤ w.toNat) (hmax : w.toNat ≤ 2 ^ 29) (n : ℕ) :
    (bsaNewtonReciprocal w (n + 1)).toNat ≤ 2 ^ 32 / w.toNat := by
  rw [Nat.le_div_iff_mul_le (by omega), mul_comm]
  exact reciprocal_succ_le (by omega) hmax n

theorem reciprocal_nice0 (n : ℕ) : (bsaNewtonReciprocal NICE_0_LOAD n).toNat = 2 ^ 22 := by
  have hstart : (bsaNewtonReciprocal NICE_0_LOAD 0).toNat = 2 ^ 22 := by decide
  have hstep : step (2 ^ 32) NICE_0_LOAD.toNat (2 ^ 22) = 2 ^ 22 := by decide
  rw [toNat_reciprocal (by decide) (by decide), hstart, Function.iterate_fixed hstep]

theorem toNat_bsaDelta {d : UInt64} {w : UInt32} (hd : d.toNat < 2 ^ 54) (hw : 2 ≤ w.toNat)
    (hmax : w.toNat ≤ 2 ^ 29) :
    (bsaVruntimeDelta d w).toNat = scaled d.toNat (bsaNewtonReciprocal w 1).toNat := by
  by_cases hne : w = NICE_0_LOAD
  · rw [hne, (delta_nice0 d APAF_TIGHT).2.1, reciprocal_nice0, scaled_nice0]
  have h0 := Word.ne_zero_of_toNat_pos (by omega : 0 < w.toNat)
  have hlt := (reciprocal_fits hw hmax 0).trans_lt (Nat.div_lt_self (by norm_num) hw)
  simp only [bsaVruntimeDelta, if_neg hne, if_neg h0]
  exact toNat_scale hd hlt

def apafIters (state : ℤ) : ℕ :=
  if state = APAF_TIGHT then APAF_TIGHT_NEWTON_ITERS
  else if state = APAF_LOOSE then APAF_LOOSE_NEWTON_ITERS
  else APAF_MEDIUM_NEWTON_ITERS

theorem toNat_apafDelta (state : ℤ) {d : UInt64} {w : UInt32} {n : ℕ}
    (hiters : apafIters state = n + 1) (hd : d.toNat < 2 ^ 54) (hw : 2 ≤ w.toNat)
    (hmax : w.toNat ≤ 2 ^ 29) :
    (apafVruntimeDelta d w state).toNat =
      scaled d.toNat (bsaNewtonReciprocal w (n + 1)).toNat := by
  by_cases hne : w = NICE_0_LOAD
  · rw [hne, (delta_nice0 d state).2.2, reciprocal_nice0, scaled_nice0]
  have h0 := Word.ne_zero_of_toNat_pos (by omega : 0 < w.toNat)
  have hlt := (reciprocal_fits hw hmax n).trans_lt (Nat.div_lt_self (by norm_num) hw)
  rw [apafIters] at hiters
  simp only [apafVruntimeDelta, if_neg hne, if_neg h0, hiters]
  exact toNat_scale hd hlt

/-- At weight 1586 the exact inverse is 2708049 and the Newton one 2656300. The bound
holds there when what the two truncations cut off does not outweigh the slack. -/
def RemaindersFit (d : ℕ) : Prop :=
  100000 * (d * 2656300 % 2 ^ 22) ≤ 98089 * (d * 2708049 % 2 ^ 22) + 181639 * d

theorem bsaDelta_le {d : UInt64} {w : UInt32} (hd : d.toNat < 2 ^ 32) (hw : 2 ≤ w.toNat)
    (hmax : w.toNat ≤ 2 ^ 29) : bsaVruntimeDelta d w ≤ exactCalcDeltaFair d w := by
  rw [UInt64.le_iff_toNat_le, toNat_bsaDelta (hd.trans (by norm_num)) hw hmax, toNat_exactDelta hd hw]
  exact scaled_mono (reciprocal_fits hw hmax 0)

theorem delta_range {d : UInt64} (hlo : TICK_NS ≤ d) (hhi : d ≤ UINT32_MAX) :
    1000000 ≤ d.toNat ∧ d.toNat < 2 ^ 32 := by
  have hmax : UINT32_MAX.toNat = 2 ^ 32 - 1 := rfl
  rw [UInt64.le_iff_toNat_le] at hlo hhi
  exact ⟨hlo, by omega⟩

/-- At every other weight of the table the inverses leave room for the truncations. -/
theorem table_inverses : ∀ w ∈ niceToWeight, w ≠ 3121 → w ≠ 1586 →
    1000000 * (100000 * (2 ^ 32 / w.toUInt32.toNat)) + (100000 + 1911) * 2 ^ 22 ≤
      1000000 * (1911 * (2 ^ 32 / w.toUInt32.toNat) +
        100000 * (bsaNewtonReciprocal w.toUInt32 1).toNat) :=
  forall_niceToWeight (by decide)

theorem table_range : ∀ w ∈ niceToWeight, 2 ≤ w.toUInt32.toNat ∧ w.toUInt32.toNat ≤ 2 ^ 29 :=
  forall_niceToWeight (by decide)

theorem not_within_3121 {d : ℕ} (hd : 1000000 ≤ d) :
    ¬100000 * (scaled d 1376151 - scaled d 1346272) ≤ 1911 * scaled d 1376151 := by
  unfold scaled
  omega

theorem within_1586_iff (d : ℕ) :
    100000 * (scaled d 2708049 - scaled d 2656300) ≤ 1911 * scaled d 2708049 ↔
      RemaindersFit d := by
  unfold scaled RemaindersFit
  omega

theorem remaindersFit_candidates : ∀ q < 473, ∀ e < 2,
    2270968 ≤ ((28018 + q) * 2 ^ 22 + 51748) / 51749 + e →
      RemaindersFit (((28018 + q) * 2 ^ 22 + 51748) / 51749 + e) := by
  unfold RemaindersFit
  decide +kernel

/-- From 2270968 on the slack is lost only where the second remainder wraps past the first. -/
theorem carry_of_not_fit {r s d : ℕ} (hr : r < 2 ^ 22) (hs : s < 2 ^ 22) (hd : 2270968 ≤ d)
    (h : 98089 * ((r + s) % 2 ^ 22) + 181639 * d < 100000 * r) : s ≤ 70705 := by
  rcases Nat.lt_or_ge (r + s) (2 ^ 22) with hno | hcarry
  · rw [Nat.mod_eq_of_lt hno] at h
    omega
  · rw [Nat.mod_eq_sub_mod hcarry, Nat.mod_eq_of_lt (by omega)] at h
    omega

theorem remaindersFit_of_ge {d : ℕ} (h : 2270968 ≤ d) : RemaindersFit d := by
  rcases le_or_gt 2309143 d with hge | hlt
  · unfold RemaindersFit
    omega
  · -- the inverses differ by 51749, so a failing `d` sits just above a multiple of `2 ^ 22`
    by_contra hfail
    have hsmall : d * 51749 % 2 ^ 22 ≤ 70705 := by
      refine carry_of_not_fit (Nat.mod_lt (d * 2656300) (by decide)) (Nat.mod_lt _ (by decide)) h ?_
      rw [← Nat.add_mod, ← Nat.mul_add]
      exact not_le.mp hfail
    have hq : 28018 ≤ d * 51749 / 2 ^ 22 ∧ d * 51749 / 2 ^ 22 < 28018 + 473 := by omega
    obtain ⟨e, he, hd⟩ : ∃ e < 2, d = (d * 51749 / 2 ^ 22 * 2 ^ 22 + 51748) / 51749 + e :=
      ⟨d - (d * 51749 / 2 ^ 22 * 2 ^ 22 + 51748) / 51749, by omega, by omega⟩
    have hfit := remaindersFit_candidates (d * 51749 / 2 ^ 22 - 28018) (by omega) e he
    rw [Nat.add_sub_cancel' hq.1, ← hd] at hfit
    exact hfail (hfit h)

/-- BSA never scales above the exact value, and over the table and all deltas of a tick
or more it keeps the documented bound except at weight 3121, and at weight 1586 when the
remainders of the two products fall badly, which 2270967 is the last delta to do. -/
theorem bsa_scaling_within_iff (w d : UInt64) (hw : w ∈ niceToWeight) (hlo : TICK_NS ≤ d)
    (hhi : d ≤ UINT32_MAX) :
    bsaVruntimeDelta d w.toUInt32 ≤ exactCalcDeltaFair d w.toUInt32 ∧
      (WithinBelow 1911 100000 (exactCalcDeltaFair d w.toUInt32) (bsaVruntimeDelta d w.toUInt32) ↔
        w ≠ 3121 ∧ (w = 1586 → RemaindersFit d.toNat)) ∧
      (2270968 ≤ d.toNat → RemaindersFit d.toNat) ∧ ¬RemaindersFit 2270967 := by
  obtain ⟨h2, hmax⟩ := table_range w hw
  obtain ⟨hd', hd⟩ := delta_range hlo hhi
  have hle := bsaDelta_le hd h2 hmax
  refine ⟨hle, ?_, remaindersFit_of_ge, by unfold RemaindersFit; decide⟩
  simp only [WithinBelow, hle, true_and]
  rw [toNat_exactDelta hd h2, toNat_bsaDelta (hd.trans (by norm_num)) h2 hmax]
  by_cases h3121 : w = 3121
  · subst h3121
    have hx : (bsaNewtonReciprocal (3121 : UInt64).toUInt32 1).toNat = 1346272 := by decide
    rw [hx]
    exact iff_of_false (not_within_3121 hd') fun h => h.1 rfl
  by_cases h1586 : w = 1586
  · subst h1586
    have hx : (bsaNewtonReciprocal (1586 : UInt64).toUInt32 1).toNat = 2656300 := by decide
    rw [hx]
    exact (within_1586_iff d.toNat).trans ⟨fun h => ⟨h3121, fun _ => h⟩, fun h => h.2 rfl⟩
  · have hbound := scaled_bound (by norm_num) hd' (table_inverses w hw h3121 h1586)
    exact iff_of_true hbound ⟨h3121, fun h => absurd h h1586⟩

theorem bsa_scaling_within_iff_820 :
    WithinBelow 1911 100000 (exactCalcDeltaFair TICK_NS 820) (bsaVruntimeDelta TICK_NS 820) :=
  (bsa_scaling_within_iff 820 TICK_NS (by decide) (by decide) (by decide)).2.1.2
    ⟨by decide, fun h => absurd h (by decide)⟩

/-- One tick at weight 3121, nice -5, is charged 320976 instead of 328099. -/
theorem bsa_bound_exceeded :
    ¬∀ w d : UInt64, w ∈ niceToWeight → TICK_NS ≤ d → d ≤ UINT32_MAX →
      WithinBelow 1911 100000 (exactCalcDeltaFair d w.toUInt32)
        (bsaVruntimeDelta d w.toUInt32) := by
  intro h
  exact absurd (h 3121 TICK_NS (by decide) (by decide) (by decide)) (by decide)

theorem inverse_error {w : UInt32} (h0 : 0 < w.toNat) (hmax : w.toNat ≤ 2 ^ 29) (n : ℕ) :
    ((2 ^ 32 / w.toNat : ℕ) : ℚ) ≤ (bsaNewtonReciprocal w (n + 1)).toNat +
      (25 / 1024) ^ 2 ^ n * ((2 ^ 32 / w.toNat : ℕ) + 1) + 2 := by
  obtain ⟨hle, hlt⟩ := Truncated.div_bounds (2 ^ 32) h0
  have hw : (0 : ℚ) < w.toNat := by exact_mod_cast h0
  have herr := mul_le_mul_of_nonneg_left (reciprocal_error h0 hmax n)
    (by positivity : (0 : ℚ) ≤ (2 ^ 32 : ℕ) / w.toNat)
  generalize (bsaNewtonReciprocal w (n + 1)).toNat = x at herr ⊢
  generalize 2 ^ 32 / w.toNat = inv at hle hlt ⊢
  have hx : ((2 ^ 32 : ℕ) / w.toNat : ℚ) * err (2 ^ 32) w.toNat x = (2 ^ 32 : ℕ) / w.toNat - x := by
    rw [err]
    push_cast
    field_simp
  have hone : ((2 ^ 32 : ℕ) / w.toNat : ℚ) * (2 * (w.toNat / (2 ^ 32 : ℕ))) = 2 := by
    push_cast
    field_simp
  have hpow : ((2 ^ 32 : ℕ) / w.toNat : ℚ) * (25 / 1024) ^ 2 ^ n ≤ (25 / 1024) ^ 2 ^ n * (inv + 1) := by
    rw [mul_comm]
    gcongr
  rw [hx, mul_add, hone] at herr
  linarith

/-- A part `num / den` that exceeds the error of the inverse by a margin for the
truncations bounds the error of every delta of a tick or more. -/
theorem within_of_iterations {w : UInt32} {num den n : ℕ} (hden : 0 < den)
    (hw : 2 ≤ w.toNat) (hmax : w.toNat ≤ 88761)
    (hmargin : (den * ((25 / 1024) ^ 2 ^ n * 48389 + 2) + 5 * (den + num) : ℚ) ≤ num * 48388)
    (hnum : (den : ℚ) * (25 / 1024) ^ 2 ^ n ≤ num) {d : ℕ} (hd : 1000000 ≤ d) :
    den * (scaled d (2 ^ 32 / w.toNat) - scaled d (bsaNewtonReciprocal w (n + 1)).toNat) ≤
      num * scaled d (2 ^ 32 / w.toNat) := by
  have hinv : 48388 ≤ 2 ^ 32 / w.toNat := by
    rw [Nat.le_div_iff_mul_le (by omega)]
    omega
  have herr := inverse_error (by omega) (hmax.trans (by norm_num)) n
  generalize (bsaNewtonReciprocal w (n + 1)).toNat = x at herr ⊢
  generalize 2 ^ 32 / w.toNat = inv at hinv herr ⊢
  generalize ((25 : ℚ) / 1024) ^ 2 ^ n = e at hmargin hnum herr
  have hinv' : (48388 : ℚ) ≤ inv := by exact_mod_cast hinv
  have hden' : (0 : ℚ) ≤ den := den.cast_nonneg
  have hnum' : (0 : ℚ) ≤ num := num.cast_nonneg
  have hslope := mul_le_mul_of_nonneg_right hnum (sub_nonneg.2 hinv')
  have herr' := mul_le_mul_of_nonneg_left herr hden'
  have hroom : (1000000 * (den * inv) + (den + num) * 2 ^ 22 : ℚ) ≤
      1000000 * (num * inv + den * x) := by
    linarith
  exact scaled_bound hden hd (by exact_mod_cast hroom)

/-- APAF's scaling: every state stays at or below the exact value, a tighter state is
never worse, and each state keeps its documented bound. -/
theorem apaf_scaling_bounds (w : UInt32) (d : UInt64) (hw : 2 ≤ w.toNat) (hmax : w.toNat ≤ 88761)
    (hlo : TICK_NS ≤ d) (hhi : d ≤ UINT32_MAX) :
    apafVruntimeDelta d w APAF_LOOSE ≤ apafVruntimeDelta d w APAF_MEDIUM ∧
      apafVruntimeDelta d w APAF_MEDIUM = apafVruntimeDelta d w APAF_TIGHT ∧
      apafVruntimeDelta d w APAF_TIGHT ≤ exactCalcDeltaFair d w ∧
      WithinBelow 1 100 (exactCalcDeltaFair d w) (apafVruntimeDelta d w APAF_TIGHT) ∧
      WithinBelow 1 100 (exactCalcDeltaFair d w) (apafVruntimeDelta d w APAF_MEDIUM) ∧
      WithinBelow 5 100 (exactCalcDeltaFair d w) (apafVruntimeDelta d w APAF_LOOSE) := by
  obtain ⟨hd', hd⟩ := delta_range hlo hhi
  have hmax' : w.toNat ≤ 2 ^ 29 := hmax.trans (by norm_num)
  have hd54 : d.toNat < 2 ^ 54 := hd.trans (by norm_num)
  have hexact := toNat_exactDelta hd hw
  have htight := toNat_apafDelta APAF_TIGHT (n := 1) rfl hd54 hw hmax'
  have hmedium := toNat_apafDelta APAF_MEDIUM (n := 1) rfl hd54 hw hmax'
  have hloose := toNat_apafDelta APAF_LOOSE (n := 0) rfl hd54 hw hmax'
  have heq : apafVruntimeDelta d w APAF_MEDIUM = apafVruntimeDelta d w APAF_TIGHT :=
    UInt64.toNat_inj.1 (hmedium.trans htight.symm)
  have hloose_le : apafVruntimeDelta d w APAF_LOOSE ≤ apafVruntimeDelta d w APAF_MEDIUM := by
    rw [UInt64.le_iff_toNat_le, hloose, hmedium]
    exact scaled_mono (reciprocal_mono (by omega) hmax' 0)
  have htight_le : apafVruntimeDelta d w APAF_TIGHT ≤ exactCalcDeltaFair d w := by
    rw [UInt64.le_iff_toNat_le, htight, hexact]
    exact scaled_mono (reciprocal_fits hw hmax' 1)
  have htight_within : WithinBelow 1 100 (exactCalcDeltaFair d w)
      (apafVruntimeDelta d w APAF_TIGHT) := by
    refine ⟨htight_le, ?_⟩
    rw [hexact, htight]
    exact within_of_iterations (by norm_num) hw hmax (by norm_num) (by norm_num) hd'
  have hloose_within : WithinBelow 5 100 (exactCalcDeltaFair d w)
      (apafVruntimeDelta d w APAF_LOOSE) := by
    refine ⟨hloose_le.trans (heq ▸ htight_le), ?_⟩
    rw [hexact, hloose]
    exact within_of_iterations (by norm_num) hw hmax (by norm_num) (by norm_num) hd'
  exact ⟨hloose_le, heq, htight_le, htight_within, heq ▸ htight_within, hloose_within⟩

theorem apaf_scaling_bounds_820 :
    WithinBelow 5 100 (exactCalcDeltaFair TICK_NS 820) (apafVruntimeDelta TICK_NS 820 APAF_LOOSE) :=
  (apaf_scaling_bounds 820 TICK_NS (by decide) (by decide) (by decide) (by decide)).2.2.2.2.2

end ApexCfs
