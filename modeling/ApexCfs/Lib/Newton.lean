import ApexCfs.Lib.Truncated

/-! Newton's iteration for a reciprocal in fixed point: `x` stands for `x / q`, the
limit is `1 / w`, and every step rounds down. -/

namespace Newton

def step (q w x : ℕ) : ℕ := x * (2 * q - w * x) / q

/-- The error of `x / q` relative to `1 / w`, negative above it. -/
def err (q w x : ℕ) : ℚ := 1 - (w * x : ℕ) / q

variable {q w x : ℕ}

theorem err_nonneg_iff (hq : 0 < q) : 0 ≤ err q w x ↔ w * x ≤ q := by
  have hq' : (0 : ℚ) < q := by exact_mod_cast hq
  rw [err, sub_nonneg, div_le_one hq', Nat.cast_le]

/-- A step squares the error; rounding down adds at most `w / q`. -/
theorem err_step (hq : 0 < q) (h : w * x ≤ 2 * q) :
    err q w x ^ 2 ≤ err q w (step q w x) ∧
      err q w (step q w x) ≤ err q w x ^ 2 + (w : ℚ) / q := by
  have hq' : (0 : ℚ) < q := by exact_mod_cast hq
  have hw : (0 : ℚ) ≤ (w : ℚ) / q := by positivity
  obtain ⟨hle, hlt⟩ := Truncated.div_bounds (x * (2 * q - w * x)) hq
  have hsq : err q w x ^ 2 = 1 - w / q * ((x * (2 * q - w * x) : ℕ) / q) := by
    rw [err]
    push_cast [Nat.cast_sub h]
    field_simp
    ring
  have herr : err q w (step q w x) = 1 - w / q * step q w x := by
    rw [err]
    push_cast
    ring
  rw [hsq, herr, step]
  refine ⟨?_, ?_⟩
  · linarith [mul_le_mul_of_nonneg_left hle hw]
  · linarith [mul_le_mul_of_nonneg_left hlt.le hw]

/-- From the first step on the iteration stays below the limit. -/
theorem mul_step_le (hq : 0 < q) (h : w * x ≤ 2 * q) : w * step q w x ≤ q :=
  (err_nonneg_iff hq).1 ((sq_nonneg _).trans (err_step hq h).1)

theorem le_step (hq : 0 < q) (h : w * x ≤ q) : x ≤ step q w x := by
  rw [step, Nat.le_div_iff_mul_le hq]
  exact Nat.mul_le_mul_left x (by omega)

theorem mul_iterate_le (hq : 0 < q) (h : w * x ≤ q) (n : ℕ) : w * (step q w)^[n] x ≤ q := by
  induction n with
  | zero => exact h
  | succ n ih =>
    rw [Function.iterate_succ_apply']
    exact mul_step_le hq (by omega)

/-- Quadratic convergence: the error of the start is squared by every step, and the
roundings together never add more than twice what a single one does. -/
theorem err_iterate_le (hq : 0 < q) (h : w * x ≤ q) {e : ℚ} (he : 0 ≤ e)
    (hsmall : 4 * e + 4 * (w / q) ≤ 1) (hx : err q w x ≤ e + 2 * (w / q)) (n : ℕ) :
    err q w ((step q w)^[n] x) ≤ e ^ 2 ^ n + 2 * (w / q) := by
  have hw : (0 : ℚ) ≤ (w : ℚ) / q := by positivity
  induction n with
  | zero => simpa only [pow_zero, pow_one, Function.iterate_zero, id_eq] using hx
  | succ n ih =>
    have hbelow := mul_iterate_le hq h n
    rw [Function.iterate_succ_apply', pow_succ, pow_mul]
    generalize (step q w)^[n] x = y at ih hbelow ⊢
    have hpow : e ^ 2 ^ n ≤ e := pow_le_of_le_one he (by linarith) (by positivity)
    have hpos : 0 ≤ e ^ 2 ^ n := by positivity
    generalize e ^ 2 ^ n = E at ih hpow hpos ⊢
    calc err q w (step q w y) ≤ err q w y ^ 2 + w / q := (err_step hq (by omega)).2
      _ ≤ (E + 2 * (w / q)) ^ 2 + w / q := by
          gcongr
          exact (err_nonneg_iff hq).2 hbelow
      _ = E ^ 2 + w / q * (4 * E + 4 * (w / q)) + w / q := by ring
      _ ≤ E ^ 2 + w / q * 1 + w / q := by
          gcongr
          linarith
      _ = E ^ 2 + 2 * (w / q) := by ring

theorem step_antitone {w' : ℕ} (h : w ≤ w') (x : ℕ) : step q w' x ≤ step q w x := by
  have hwx : w * x ≤ w' * x := Nat.mul_le_mul_right x h
  exact Nat.div_le_div_right (Nat.mul_le_mul_left x (by omega))

theorem step_mono {y : ℕ} (hxy : x ≤ y) (hy : w * y ≤ q) : step q w x ≤ step q w y := by
  obtain ⟨t, rfl⟩ := Nat.exists_eq_add_of_le hxy
  obtain ⟨s, hs⟩ := Nat.exists_eq_add_of_le hy
  have hx : w * x ≤ q := (Nat.mul_le_mul_left w hxy).trans hy
  have hgapy : 2 * q - w * (x + t) = q + s := by omega
  have hgapx : 2 * q - w * x = q + s + w * t := by
    rw [Nat.mul_add] at hs
    omega
  have hcross : w * x * t ≤ q * t := Nat.mul_le_mul_right t hx
  refine Nat.div_le_div_right ?_
  rw [hgapx, hgapy]
  linarith [Nat.zero_le (t * s)]

/-- Larger weights from smaller starts give smaller values, as long as the larger of the
two starts is below its limit. -/
theorem step_le_step {w' x' : ℕ} (hw : w ≤ w') (hx : x' ≤ x) (hle : w * x ≤ q) :
    step q w' x' ≤ step q w x :=
  (step_antitone hw x').trans (step_mono hx hle)

section Affine

variable {p v : ℕ}

/-- The start `3 / 2 - m / 2` at the mantissa `m = w / p` is off by at most `5 / 32`
below and `1 / 8` above when the mantissa lies between `3 / 4` and `3 / 2`. -/
theorem err_affine (hp : 0 < p) (hv : 0 < v) (hlo : 3 * p ≤ 4 * w) (hhi : 2 * w ≤ 3 * p) :
    -(1 / 8) ≤ err (2 * p * v) w (v * (3 * p - w) / p) ∧
      err (2 * p * v) w (v * (3 * p - w) / p) ≤ 5 / 32 + w / (2 * p * v : ℕ) := by
  have hp' : (0 : ℚ) < p := by exact_mod_cast hp
  have hv' : (0 : ℚ) < v := by exact_mod_cast hv
  have hlo' : (3 / 4 : ℚ) ≤ w / p := by
    rw [div_le_div_iff₀ (by norm_num) hp']
    exact_mod_cast (mul_comm 4 w).symm ▸ hlo
  have hhi' : (w / p : ℚ) ≤ 3 / 2 := by
    rw [div_le_div_iff₀ hp' (by norm_num)]
    exact_mod_cast (mul_comm 2 w).symm ▸ hhi
  obtain ⟨hle, hlt⟩ := Truncated.div_bounds (v * (3 * p - w)) hp
  generalize v * (3 * p - w) / p = x at hle hlt ⊢
  have hstart : ((v * (3 * p - w) : ℕ) / p : ℚ) = v * (3 - w / p) := by
    push_cast [Nat.cast_sub (show w ≤ 3 * p by omega)]
    field_simp
  have herr : err (2 * p * v) w x = 1 - w / p / (2 * v) * x := by
    rw [err]
    push_cast
    field_simp
  have hone : (w / (2 * p * v : ℕ) : ℚ) = w / p / (2 * v) := by
    push_cast
    field_simp
  have hprod : (w / p / (2 * v) * (v * (3 - w / p)) : ℚ) = w / p * (3 - w / p) / 2 := by
    field_simp
  rw [hstart] at hle hlt
  rw [herr, hone]
  have hnonneg : (0 : ℚ) ≤ w / p / (2 * v) := by positivity
  have hmax : (w / p * (3 - w / p) / 2 : ℚ) ≤ 9 / 8 := by
    linarith [sq_nonneg ((w : ℚ) / p - 3 / 2)]
  have hmin : (27 / 32 : ℚ) ≤ w / p * (3 - w / p) / 2 := by
    linarith [mul_nonneg (sub_nonneg.2 hlo') (by linarith : (0 : ℚ) ≤ 9 / 4 - w / p)]
  have hx := mul_le_mul_of_nonneg_left hle hnonneg
  have hx' := mul_le_mul_of_nonneg_left hlt.le hnonneg
  rw [hprod] at hx hx'
  rw [mul_add, mul_one] at hx'
  refine ⟨?_, ?_⟩ <;> linarith

/-- The step from the affine start already leaves an error below a fortieth. -/
theorem err_first_step (hp : 0 < p) (hv : 0 < v) (hlo : 3 * p ≤ 4 * w) (hhi : 2 * w ≤ 3 * p)
    (hsmall : 8 * w ≤ 2 * p * v) :
    w * (v * (3 * p - w) / p) < 2 * (2 * p * v) ∧
      err (2 * p * v) w (step (2 * p * v) w (v * (3 * p - w) / p)) ≤
        25 / 1024 + 2 * (w / (2 * p * v : ℕ)) := by
  obtain ⟨hge, hle⟩ := err_affine hp hv hlo hhi
  have hq : 0 < 2 * p * v := by positivity
  have hq' : (0 : ℚ) < (2 * p * v : ℕ) := by exact_mod_cast hq
  generalize v * (3 * p - w) / p = x at hge hle ⊢
  have hδ : ((w : ℚ) / (2 * p * v : ℕ)) ≤ 1 / 8 := by
    rw [div_le_div_iff₀ hq' (by norm_num)]
    exact_mod_cast (by omega : w * 8 ≤ 1 * (2 * p * v))
  generalize 2 * p * v = q at *
  have hbelow : w * x < 2 * q := by
    have hdiv : ((w * x : ℕ) : ℚ) / q < 2 := by
      rw [err] at hge
      linarith
    rw [div_lt_iff₀ hq'] at hdiv
    exact_mod_cast hdiv
  refine ⟨hbelow, ?_⟩
  have hδ0 : (0 : ℚ) ≤ w / q := by positivity
  have hstep := (err_step hq hbelow.le).2
  generalize (w : ℚ) / q = δ at *
  have hsq : err q w x ^ 2 ≤ (5 / 32 + δ) ^ 2 := by
    refine sq_le_sq.2 ?_
    rw [abs_of_nonneg (by linarith : 0 ≤ 5 / 32 + δ)]
    exact abs_le.2 ⟨by linarith, hle⟩
  have hδsq := mul_le_mul_of_nonneg_right hδ hδ0
  linarith

theorem affine_bounds (hp : 0 < p) (hhi : 2 * w ≤ 3 * p) :
    8 * (w * (v * (3 * p - w) / p)) ≤ 9 * (2 * p * v) ∧ 3 * v ≤ 2 * (v * (3 * p - w) / p) + 1 := by
  obtain ⟨u, hu⟩ := Nat.exists_eq_add_of_le (show w ≤ 3 * p by omega)
  have hdiff : 3 * p - w = u := by omega
  have hle : p * (v * u / p) ≤ v * u := Nat.mul_div_le _ _
  have hlt : v * u < p * (v * u / p + 1) := Nat.lt_mul_div_succ _ hp
  rw [hdiff]
  generalize v * u / p = x at hle hlt ⊢
  refine ⟨?_, ?_⟩
  · -- `w * u` is at most the square of half the sum `3 * p`
    have hsq : 4 * (w * u) ≤ 9 * (p * p) := by
      have hsum : (w + u) * (w + u) = 9 * (p * p) := by
        rw [← hu]
        ring
      zify at hsum ⊢
      linarith [sq_nonneg ((w : ℤ) - u)]
    have hstart := Nat.mul_le_mul_left (4 * w) hle
    have hsq' := Nat.mul_le_mul_left v hsq
    have hcancel : 4 * (w * x) ≤ 9 * (p * v) := by
      refine Nat.le_of_mul_le_mul_left ?_ hp
      linarith
    linarith
  · have hhalf : v * (3 * p) ≤ v * (2 * u) := Nat.mul_le_mul_left v (by omega)
    have hcancel : 3 * v < 2 * (x + 1) := by
      refine Nat.lt_of_mul_lt_mul_left (a := p) ?_
      linarith
    omega

theorem affine_succ (hp : 0 < p) (hhi : 2 * (w + 1) ≤ 3 * p) :
    ∃ t, v * (3 * p - w) / p = v * (3 * p - (w + 1)) / p + t ∧ p * t ≤ p + v := by
  obtain ⟨u, hu⟩ := Nat.exists_eq_add_of_le (show w + 1 ≤ 3 * p by omega)
  have hdiff : 3 * p - (w + 1) = u ∧ 3 * p - w = u + 1 := by omega
  rw [hdiff.1, hdiff.2]
  have hmono : v * u / p ≤ v * (u + 1) / p := Nat.div_le_div_right (Nat.mul_le_mul_left v (by omega))
  obtain ⟨t, ht⟩ := Nat.exists_eq_add_of_le hmono
  refine ⟨t, ht, ?_⟩
  have hle : p * (v * (u + 1) / p) ≤ v * (u + 1) := Nat.mul_div_le _ _
  have hlt : v * u < p * (v * u / p + 1) := Nat.lt_mul_div_succ _ hp
  rw [ht] at hle
  linarith

/-- A unit of weight more never raises the first step when the start drops by little. -/
theorem step_succ_le {t : ℕ} (hx : 8 * (w * (x + t)) ≤ 9 * q) (ht : q * t ≤ 4 * (x * x)) :
    step q (w + 1) x ≤ step q w (x + t) := by
  refine Nat.div_le_div_right ?_
  obtain ⟨a, ha⟩ := Nat.exists_eq_add_of_le (show w * (x + t) ≤ 2 * q by omega)
  rcases Nat.le_total (2 * q) ((w + 1) * x) with hge | hle
  · rw [Nat.sub_eq_zero_of_le hge]
    exact Nat.zero_le _
  · obtain ⟨b, hb⟩ := Nat.exists_eq_add_of_le hle
    have ha' : 2 * q - w * (x + t) = a := by omega
    have hb' : 2 * q - (w + 1) * x = b := by omega
    rw [ha', hb']
    have hslope := Nat.mul_le_mul_right t hx
    have hpos : 0 ≤ w * (t * t) := Nat.zero_le _
    zify at *
    have hwide : (a : ℤ) = 2 * q - w * (x + t) := by linarith
    have hnarrow : (b : ℤ) = 2 * q - (w + 1) * x := by linarith
    rw [hwide, hnarrow]
    linarith

theorem first_step_succ_le (hp : 0 < p) (hpv : 2 * p + 6 ≤ 7 * v) (hhi : 2 * (w + 1) ≤ 3 * p) :
    step (2 * p * v) (w + 1) (v * (3 * p - (w + 1)) / p) ≤
      step (2 * p * v) w (v * (3 * p - w) / p) := by
  obtain ⟨t, ht, hpt⟩ := affine_succ (v := v) hp hhi
  obtain ⟨hlimit, -⟩ := affine_bounds (v := v) hp (by omega : 2 * w ≤ 3 * p)
  obtain ⟨-, hlow⟩ := affine_bounds (v := v) hp hhi
  rw [ht] at hlimit ⊢
  generalize v * (3 * p - (w + 1)) / p = x at hlow hlimit ⊢
  refine step_succ_le hlimit ?_
  have hdrop : 2 * v * (p * t) ≤ 2 * v * (p + v) := Nat.mul_le_mul_left _ hpt
  have hroom : v * (2 * p + 6) ≤ v * (7 * v) := Nat.mul_le_mul_left v hpv
  obtain ⟨y, hy⟩ := Nat.exists_eq_add_of_le (show 1 ≤ 3 * v by omega)
  have hlow' : y * y ≤ 2 * x * (2 * x) := Nat.mul_le_mul (by omega) (by omega)
  have hsq : 3 * v * (3 * v) = (1 + y) * (1 + y) := by rw [hy]
  linarith

/-- The first step also falls where the nearest power of two doubles, from `2 * r` at the
weight `3 * r` to `4 * r` at the next one. -/
theorem first_step_switch_le {r : ℕ} (hr : 0 < r) (hv : 0 < v) :
    step (8 * r * v) (3 * r + 1) (v * (3 * (4 * r) - (3 * r + 1)) / (4 * r)) ≤
      step (8 * r * v) (3 * r) (2 * v * (3 * (2 * r) - 3 * r) / (2 * r)) := by
  have hstart : 2 * v * (3 * (2 * r) - 3 * r) / (2 * r) = 3 * v := by
    rw [show 3 * (2 * r) - 3 * r = 3 * r by omega, show 2 * v * (3 * r) = 2 * r * (3 * v) by ring]
    exact Nat.mul_div_cancel_left _ (by omega)
  have hnext : 4 * (v * (3 * (4 * r) - (3 * r + 1)) / (4 * r)) ≤ 9 * v := by
    have hle := Nat.mul_div_le (v * (3 * (4 * r) - (3 * r + 1))) (4 * r)
    have hnum : v * (3 * (4 * r) - (3 * r + 1)) ≤ v * (9 * r) := Nat.mul_le_mul_left v (by omega)
    refine Nat.le_of_mul_le_mul_left ?_ hr
    linarith
  rw [hstart]
  generalize v * (3 * (4 * r) - (3 * r + 1)) / (4 * r) = y at hnext ⊢
  refine (step_antitone (Nat.le_succ _) y).trans (Nat.div_le_div_right ?_)
  obtain ⟨a, ha⟩ := Nat.exists_eq_add_of_le (show 3 * y ≤ 16 * v by omega)
  have hgap : 2 * (8 * r * v) - 3 * r * y = r * a := by
    rw [show 2 * (8 * r * v) = r * (16 * v) by ring, ha, show 3 * r * y = r * (3 * y) by ring,
      Nat.mul_add, Nat.add_sub_cancel_left]
  have hgap' : 2 * (8 * r * v) - 3 * r * (3 * v) = r * (7 * v) := by
    rw [show 2 * (8 * r * v) = 3 * r * (3 * v) + r * (7 * v) by ring, Nat.add_sub_cancel_left]
  rw [hgap, hgap', mul_left_comm, mul_left_comm _ r]
  refine Nat.mul_le_mul_left r ?_
  -- `21 * v ^ 2 - y * (16 * v - 3 * y)` is `(7 * v - 3 * y) * (3 * v - y)`
  zify at ha hnext ⊢
  have hfactor : (0 : ℤ) ≤ (7 * v - 3 * y) * (3 * v - y) :=
    mul_nonneg (by linarith) (by linarith)
  have ha' : (a : ℤ) = 16 * v - 3 * y := by linarith
  rw [ha']
  linarith

end Affine

end Newton
