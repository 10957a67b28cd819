import Mathlib.Data.Nat.Dist
import Mathlib.Tactic

/-! Maps of the natural numbers that scale by a factor below one and round, applied
over and over: the roundings add up to at most a geometric series. -/

namespace Truncated

variable {f : ℕ → ℕ} {y c : ℚ}

/-- A quotient of the natural numbers is less than one below the rational one. -/
theorem div_bounds (a : ℕ) {b : ℕ} (hb : 0 < b) :
    ((a / b : ℕ) : ℚ) ≤ a / b ∧ (a : ℚ) / b < ((a / b : ℕ) : ℚ) + 1 := by
  have hb' : (0 : ℚ) < b := by exact_mod_cast hb
  refine ⟨Nat.cast_div_le, ?_⟩
  rw [div_lt_iff₀ hb', mul_comm]
  exact_mod_cast Nat.lt_mul_div_succ a hb

/-- The sum of the series is left alone by one more scaling and rounding. -/
theorem series_step (hy1 : y < 1) : y * (c / (1 - y)) + c = c / (1 - y) := by
  have hne : 1 - y ≠ 0 := by linarith
  field_simp
  ring

theorem iterate_ge (hy : 0 ≤ y) (hy1 : y < 1) (hc : 0 ≤ c) (hf : ∀ l : ℕ, y * l - c ≤ f l)
    (n l : ℕ) : y ^ n * l - c / (1 - y) ≤ f^[n] l := by
  induction n with
  | zero =>
    have hpos : 0 ≤ c / (1 - y) := div_nonneg hc (by linarith)
    simp only [pow_zero, one_mul, Function.iterate_zero, id_eq]
    linarith
  | succ n ih =>
    have hmul := mul_le_mul_of_nonneg_left ih hy
    rw [Function.iterate_succ_apply']
    calc y ^ (n + 1) * l - c / (1 - y) = y * (y ^ n * l - c / (1 - y)) - c := by
          rw [pow_succ]
          linarith [series_step (c := c) hy1]
      _ ≤ y * (f^[n] l) - c := by linarith
      _ ≤ f (f^[n] l) := hf _

theorem iterate_le (hy : 0 ≤ y) (hy1 : y < 1) (hc : 0 ≤ c) (hf : ∀ l : ℕ, (f l : ℚ) ≤ y * l + c)
    (n l : ℕ) : (f^[n] l : ℚ) ≤ y ^ n * l + c / (1 - y) := by
  induction n with
  | zero =>
    have hpos : 0 ≤ c / (1 - y) := div_nonneg hc (by linarith)
    simp only [pow_zero, one_mul, Function.iterate_zero, id_eq]
    linarith
  | succ n ih =>
    have hmul := mul_le_mul_of_nonneg_left ih hy
    rw [Function.iterate_succ_apply']
    calc (f (f^[n] l) : ℚ) ≤ y * (f^[n] l) + c := hf _
      _ ≤ y * (y ^ n * l + c / (1 - y)) + c := by linarith
      _ = y ^ (n + 1) * l + c / (1 - y) := by
          rw [pow_succ]
          linarith [series_step (c := c) hy1]

section Gap

def IsFloor (m : ℕ) (x : ℚ) : Prop := (m : ℚ) ≤ x ∧ x < m + 1

variable {m n k : ℕ} {x y z : ℚ}

theorem isFloor_mul_div (l u : ℕ) {v : ℕ} (hv : 0 < v) : IsFloor (l * u / v) (l * (u / v)) := by
  obtain ⟨hle, hlt⟩ := div_bounds (l * u) hv
  rw [Nat.cast_mul, mul_div_assoc] at hle hlt
  exact ⟨hle, hlt⟩

theorem abs_sub_eq_dist (a b : ℕ) : |(a : ℚ) - b| = Nat.dist a b := by
  rcases Nat.le_total a b with h | h
  · rw [Nat.dist_eq_sub_of_le h, Nat.cast_sub h, abs_sub_comm]
    exact abs_of_nonneg (sub_nonneg.2 (by exact_mod_cast h))
  · rw [Nat.dist_eq_sub_of_le_right h, Nat.cast_sub h]
    exact abs_of_nonneg (sub_nonneg.2 (by exact_mod_cast h))

theorem abs_div_sub_div {u v t q : ℕ} (hv : 0 < v) (hq : 0 < q) :
    |(u : ℚ) / v - t / q| = Nat.dist (u * q) (t * v) / (v * q) := by
  have hv' : (0 : ℚ) < v := by exact_mod_cast hv
  have hq' : (0 : ℚ) < q := by exact_mod_cast hq
  rw [div_sub_div _ _ hv'.ne' hq'.ne', abs_div, abs_of_pos (mul_pos hv' hq'), ← abs_sub_eq_dist]
  push_cast
  ring_nf

theorem gap_bounds (hx : IsFloor m x) (hy : IsFloor n y) :
    |x - y| < Nat.dist m n + 1 ∧ (Nat.dist m n : ℚ) < |x - y| + 1 := by
  obtain ⟨hx, hx'⟩ := hx
  obtain ⟨hy, hy'⟩ := hy
  have hle := le_abs_self ((m : ℚ) - n)
  have hge := neg_abs_le ((m : ℚ) - n)
  have hle' := le_abs_self (x - y)
  have hge' := neg_abs_le (x - y)
  rw [← abs_sub_eq_dist]
  refine ⟨abs_lt.2 ⟨by linarith, by linarith⟩, abs_lt.2 ⟨by linarith, by linarith⟩⟩

theorem gap_le_of_relative (hx : IsFloor m x) (hy : IsFloor n y) {b : ℚ} (h0 : 0 ≤ b) (h1 : b ≤ 1)
    (h : |x - y| ≤ b * y) : (Nat.dist m n : ℚ) ≤ b * n + 2 := by
  have hgap := (gap_bounds hx hy).2
  have hscale := mul_le_mul_of_nonneg_left hy.2.le h0
  linarith

/-- The number nearer to `y` stays nearer after rounding, or as near up to one. -/
theorem gap_le_of_nearer (hx : IsFloor m x) (hy : IsFloor n y) (hz : IsFloor k z)
    (h : |x - y| ≤ |z - y|) : Nat.dist m n ≤ Nat.dist k n + 1 := by
  have hnear := (gap_bounds hx hy).2
  have hfar := (gap_bounds hz hy).1
  have hlt : (Nat.dist m n : ℚ) < Nat.dist k n + 2 := by linarith
  have hlt' : Nat.dist m n < Nat.dist k n + 2 := by exact_mod_cast hlt
  omega

theorem gap_le_one (hx : IsFloor m x) (hy : IsFloor n y) (h : |x - y| ≤ 1) : Nat.dist m n ≤ 1 := by
  have hgap := (gap_bounds hx hy).2
  have hlt : (Nat.dist m n : ℚ) < 2 := by linarith
  have hlt' : Nat.dist m n < 2 := by exact_mod_cast hlt
  omega

end Gap

section Nonexpansive

variable {g : ℕ → ℕ} (hmono : Monotone f) (hexp : ∀ a d, f (a + d) ≤ f a + d)

include hmono hexp

theorem iterate_le_add {a b d : ℕ} (h : a ≤ b + d) (n : ℕ) : f^[n] a ≤ f^[n] b + d := by
  induction n with
  | zero => exact h
  | succ n ih =>
    rw [Function.iterate_succ_apply', Function.iterate_succ_apply']
    exact (hmono ih).trans (hexp _ _)

/-- A map that commutes with `f` up to one does so with its iterates up to one for
every step. -/
theorem iterate_commute (hg : ∀ x, f (g x) ≤ g (f x) + 1) (n x : ℕ) :
    f^[n] (g x) ≤ g (f^[n] x) + n := by
  induction n generalizing x with
  | zero => exact le_rfl
  | succ n ih =>
    rw [Function.iterate_succ_apply, Function.iterate_succ_apply]
    calc f^[n] (f (g x)) ≤ f^[n] (g (f x)) + 1 := iterate_le_add hmono hexp (hg x) n
      _ ≤ g (f^[n] (f x)) + n + 1 := Nat.add_le_add_right (ih (f x)) 1

end Nonexpansive

theorem iterate_subadditive (hmono : Monotone f) (hsub : ∀ a d, f (a + d) ≤ f a + f d) (n a d : ℕ) :
    f^[n] (a + d) ≤ f^[n] a + f^[n] d := by
  induction n with
  | zero => exact le_rfl
  | succ n ih =>
    rw [Function.iterate_succ_apply', Function.iterate_succ_apply', Function.iterate_succ_apply']
    exact (hmono ih).trans (hsub _ _)

/-- A bound between two monotone maps needs checking at breakpoints only, the upper map
at the end of each stretch and the lower one at its start. -/
theorem le_of_breakpoints {f g : ℕ → ℕ} (hf : Monotone f) (hg : Monotone g) {lo : ℕ} {bs : List ℕ}
    (h : (lo :: bs).IsChain fun lo hi => g (hi - 1) ≤ f lo) {m : ℕ} (hlo : lo ≤ m)
    (hhi : m < (lo :: bs).getLast (by simp)) : g m ≤ f m := by
  induction bs generalizing lo with
  | nil => exact absurd hhi (by simpa using hlo)
  | cons hi bs ih =>
    obtain ⟨hstretch, hrest⟩ := List.isChain_cons_cons.1 h
    rcases Nat.lt_or_ge m hi with hm | hm
    · calc g m ≤ g (hi - 1) := hg (Nat.le_sub_one_of_lt hm)
        _ ≤ f lo := hstretch
        _ ≤ f m := hf hlo
    · exact ih hrest hm (by simpa using hhi)

end Truncated
