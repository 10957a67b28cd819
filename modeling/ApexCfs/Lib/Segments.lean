import Mathlib.Tactic

/-! An accumulator over segments of equal length. When segments end, what is there
and the rest of the segment under way decay by a superadditive map, the segments in
between add their part of a maximum, and the next one starts. What remains of the
maximum is the room left in the segment under way. -/

namespace Segments

/-- What a run through the end of a segment adds: the decayed rest of it, the
segments in between and the start `filled` of the next one; `full` is the maximum. -/
def contribution (D : ℕ → ℕ) (full size rest filled : ℕ) : ℕ :=
  D rest + (full - D full - size) + filled

section

variable {D : ℕ → ℕ} (hsup : ∀ a b, D a + D b ≤ D (a + b))

include hsup

theorem mono_of_superadditive : Monotone D := by
  intro a b hab
  have h := hsup a (b - a)
  rw [Nat.add_sub_cancel' hab] at h
  exact (Nat.le_add_right _ _).trans h

theorem mul_le_of_superadditive (s a : ℕ) : s * D a ≤ D (s * a) := by
  induction s with
  | zero => simp
  | succ s ih =>
    rw [Nat.succ_mul, Nat.succ_mul]
    exact (Nat.add_le_add_right ih _).trans (hsup _ _)

theorem contribution_le {full size rest filled : ℕ} (hsize : D full + size ≤ full)
    (hrest : rest ≤ full) (hfilled : filled ≤ size) : contribution D full size rest filled ≤ full := by
  have hmono := mono_of_superadditive hsup hrest
  rw [contribution]
  omega

variable {full size scale slack : ℕ} (hsize : D full + size ≤ full)
  (hscale : D (scale * full + slack) ≤ scale * D full + slack)

include hscale

/-- Without a contribution a level within its bound stays within the bound of the
new segment. -/
theorem idle_le {level filled : ℕ} (hlevel : level ≤ scale * full + slack)
    (hsize : D full + size ≤ full) : D level ≤ scale * (full - size + filled) + slack := by
  have hmono := (mono_of_superadditive hsup hlevel).trans hscale
  have hpart : scale * D full ≤ scale * (full - size + filled) := Nat.mul_le_mul_left _ (by omega)
  omega

include hsize

/-- With one, too: the maximum is invariant. -/
theorem busy_le {level rest used filled : ℕ} (hrest : used + rest = size)
    (hlevel : level ≤ scale * (full - size + used) + slack) :
    D level + scale * contribution D full size rest filled ≤
      scale * (full - size + filled) + slack := by
  have hsum : D level + scale * D rest ≤ scale * D full + slack := by
    refine (Nat.add_le_add_left (mul_le_of_superadditive hsup scale rest) _).trans ?_
    refine (hsup _ _).trans ((mono_of_superadditive hsup ?_).trans hscale)
    have hfull : full - size + used + rest = full := by omega
    calc level + scale * rest ≤ scale * (full - size + used) + slack + scale * rest :=
          Nat.add_le_add_right hlevel _
      _ = scale * (full - size + used + rest) + slack := by ring
      _ = scale * full + slack := by rw [hfull]
  have hpart : scale * D full + scale * (full - D full - size) = scale * (full - size) := by
    rw [← Nat.mul_add]
    congr 1
    omega
  rw [contribution, Nat.mul_add, Nat.mul_add, Nat.mul_add]
  omega

end

end Segments
