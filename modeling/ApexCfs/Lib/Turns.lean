import Mathlib.Tactic

/-! Taking turns: `n` players served in index order, one per round. -/

namespace Turns

/-- How often player `i` of `n` has been served after `t` rounds. -/
def turns (n i t : ℕ) : ℕ := t / n + if i < t % n then 1 else 0

@[simp] theorem turns_zero (n i : ℕ) : turns n i 0 = 0 := by simp [turns]

theorem turns_ge (n i t : ℕ) : t / n ≤ turns n i t := Nat.le_add_right _ _

theorem turns_le (n i t : ℕ) : turns n i t ≤ t / n + 1 := by
  unfold turns
  split_ifs <;> omega

/-- The player served next is the first of those served least. -/
theorem turns_next (n t : ℕ) : turns n (t % n) t = t / n := by simp [turns]

theorem turns_before {n i t : ℕ} (h : i < t % n) : turns n i t = t / n + 1 := by
  rw [turns, if_pos h]

theorem turns_succ {n i t : ℕ} (hi : i < n) :
    turns n i (t + 1) = turns n i t + if t % n = i then 1 else 0 := by
  have hn : 0 < n := by omega
  have hr : t % n < n := Nat.mod_lt t hn
  have ht : n * (t / n) + t % n = t := Nat.div_add_mod t n
  unfold turns
  rcases Nat.lt_or_ge (t % n + 1) n with hlt | hge
  · have hd : (t + 1) / n = t / n := by
      rw [← ht, Nat.add_assoc, Nat.mul_add_div hn, Nat.div_eq_of_lt hlt, Nat.mul_add_div hn,
        Nat.div_eq_of_lt hr]
    have hm : (t + 1) % n = t % n + 1 := by
      rw [← ht, Nat.add_assoc, Nat.mul_add_mod, Nat.mod_eq_of_lt hlt, Nat.mul_add_mod,
        Nat.mod_eq_of_lt hr]
    rw [hd, hm]
    split_ifs <;> omega
  · have he : t + 1 = n * (t / n + 1) := by
      rw [Nat.mul_add]
      omega
    have hd : (t + 1) / n = t / n + 1 := by rw [he, Nat.mul_div_cancel_left _ hn]
    have hm : (t + 1) % n = 0 := by rw [he, Nat.mul_mod_right]
    rw [hd, hm]
    split_ifs <;> omega

end Turns
