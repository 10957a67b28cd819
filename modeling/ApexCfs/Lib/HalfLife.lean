import Mathlib.Order.Monotone.Basic
import Mathlib.Tactic

/-! Decays that take whole half-lives as shifts and leave the rest of the periods
to a table or a loop; from a cut-off on nothing is left. -/

namespace HalfLife

/-- The decay of a load over `n` periods, `period` of them to the half-life;
`rest r` decays over `r < period` of them. -/
def decay (period cutoff : ℕ) (rest : ℕ → ℕ → ℕ) (n load : ℕ) : ℕ :=
  if n < cutoff then rest (n % period) (load / 2 ^ (n / period)) else 0

variable {period cutoff : ℕ} {rest : ℕ → ℕ → ℕ}

theorem decay_of_lt {n : ℕ} (h : n < cutoff) (load : ℕ) :
    decay period cutoff rest n load = rest (n % period) (load / 2 ^ (n / period)) := if_pos h

theorem decay_of_ge {n : ℕ} (h : cutoff ≤ n) (load : ℕ) : decay period cutoff rest n load = 0 :=
  if_neg (not_lt.mpr h)

theorem decay_one (hp : 1 < period) (hc : 1 < cutoff) (load : ℕ) :
    decay period cutoff rest 1 load = rest 1 load := by
  rw [decay_of_lt hc, Nat.mod_eq_of_lt hp, Nat.div_eq_of_lt hp, pow_zero, Nat.div_one]

theorem decay_mono (hp : 0 < period) (hmono : ∀ r < period, Monotone (rest r)) (n : ℕ) :
    Monotone (decay period cutoff rest n) := by
  intro a b hab
  unfold decay
  split_ifs
  · exact hmono _ (Nat.mod_lt n hp) (Nat.div_le_div_right hab)
  · exact le_rfl

theorem succ_cases (hp : 0 < period) (n : ℕ) :
    ((n + 1) % period = n % period + 1 ∧ (n + 1) / period = n / period ∧ n % period + 1 < period) ∨
      (n % period = period - 1 ∧ (n + 1) % period = 0 ∧ (n + 1) / period = n / period + 1) := by
  have hlt := Nat.mod_lt n hp
  have hdiv := Nat.div_add_mod n period
  rcases Nat.lt_or_ge (n % period + 1) period with h | h
  · have hn : n + 1 = n % period + 1 + period * (n / period) := by omega
    refine Or.inl ⟨?_, ?_, h⟩
    · rw [hn, Nat.add_mul_mod_self_left, Nat.mod_eq_of_lt h]
    · rw [hn, Nat.add_mul_div_left _ _ hp, Nat.div_eq_of_lt h, Nat.zero_add]
  · have hlast : n % period = period - 1 := by omega
    have hn : n + 1 = period * (n / period + 1) := by
      rw [Nat.mul_add, Nat.mul_one]
      omega
    refine Or.inr ⟨hlast, ?_, ?_⟩
    · rw [hn, Nat.mul_mod_right]
    · rw [hn, Nat.mul_div_cancel_left _ hp]

/-- More periods never leave more, if neither a step nor the last one before a
half-life does. -/
theorem decay_antitone (hp : 0 < period)
    (hstep : ∀ r, r + 1 < period → ∀ l, rest (r + 1) l ≤ rest r l)
    (hhalf : ∀ l, rest 0 (l / 2) ≤ rest (period - 1) l) (load : ℕ) :
    Antitone fun n => decay period cutoff rest n load := by
  refine antitone_nat_of_succ_le fun n => ?_
  rcases Nat.lt_or_ge (n + 1) cutoff with h | h
  · rw [decay_of_lt h, decay_of_lt (by omega)]
    rcases succ_cases hp n with ⟨hmod, hdiv, hlt⟩ | ⟨hlast, hmod, hdiv⟩
    · rw [hmod, hdiv]
      exact hstep _ hlt _
    · rw [hmod, hdiv, hlast, pow_succ, ← Nat.div_div_eq_div_mul]
      exact hhalf _
  · rw [decay_of_ge h]
    exact Nat.zero_le _

theorem decay_lt (hp : 0 < period) (hzero : ∀ l, rest 0 l = l)
    (hlt : ∀ r, 0 < r → r < period → ∀ l, 0 < l → rest r l < l) (hnil : ∀ r, rest r 0 = 0)
    {n load : ℕ} (hn : 0 < n) (hload : 0 < load) : decay period cutoff rest n load < load := by
  rcases Nat.lt_or_ge n cutoff with h | h
  · rw [decay_of_lt h]
    have hle : load / 2 ^ (n / period) ≤ load := Nat.div_le_self _ _
    rcases Nat.eq_zero_or_pos (n % period) with hr | hr
    · have hdiv : n / period ≠ 0 := by
        intro h0
        have := Nat.div_add_mod n period
        rw [h0, hr, Nat.mul_zero] at this
        omega
      rw [hr, hzero]
      exact Nat.div_lt_self hload (Nat.one_lt_two_pow hdiv)
    · rcases Nat.eq_zero_or_pos (load / 2 ^ (n / period)) with h0 | h0
      · rw [h0, hnil]
        exact hload
      · exact (hlt _ hr (Nat.mod_lt n hp) _ h0).trans_le hle
  · rw [decay_of_ge h]
    exact hload

end HalfLife
