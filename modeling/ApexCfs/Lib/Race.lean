import Mathlib.Algebra.Order.Group.Abs
import Mathlib.Logic.Relation
import Mathlib.Tactic

/-! Two clocks in a race that is throttled from behind: a clock moves only
while it is not ahead of the other one, and by a bounded amount. Whatever the
order of the moves, the gap never grows beyond its start and the two bounds. -/

namespace Race

variable {K : Type*} [AddCommGroup K] [LinearOrder K]

/-- One move of the race with bounds `dx` and `dy`. -/
inductive Step (dx dy : K) : K × K → K × K → Prop
  | rest (p : K × K) : Step dx dy p p
  | left {x y e : K} (hle : x ≤ y) (h0 : 0 ≤ e) (he : e ≤ dx) : Step dx dy (x, y) (x + e, y)
  | right {x y e : K} (hle : y ≤ x) (h0 : 0 ≤ e) (he : e ≤ dy) : Step dx dy (x, y) (x, y + e)

def gap (p : K × K) : K := |p.1 - p.2|

theorem gap_swap (x y : K) : gap (y, x) = gap (x, y) := abs_sub_comm _ _

variable [IsOrderedAddMonoid K]

theorem gap_left {x y e d : K} (hle : x ≤ y) (h0 : 0 ≤ e) (he : e ≤ d) :
    gap (x + e, y) ≤ max (gap (x, y)) d := by
  have hgap : gap (x, y) = y - x := by
    rw [gap, abs_sub_comm, abs_of_nonneg (sub_nonneg.mpr hle)]
  rw [gap, hgap, abs_le]
  refine ⟨?_, ?_⟩
  · have h1 : -(max (y - x) d) ≤ -(y - x) := neg_le_neg (le_max_left _ _)
    calc -(max (y - x) d) ≤ -(y - x) := h1
      _ = x - y := neg_sub y x
      _ ≤ x + e - y := by rw [add_sub_right_comm]; exact le_add_of_nonneg_right h0
  · calc x + e - y = e - (y - x) := by abel
      _ ≤ e := sub_le_self _ (sub_nonneg.mpr hle)
      _ ≤ max (y - x) d := he.trans (le_max_right _ _)

theorem gap_step {dx dy : K} {p q : K × K} (h : Step dx dy p q) :
    gap q ≤ max (gap p) (max dx dy) := by
  cases h with
  | rest => exact le_max_left _ _
  | left hle h0 he => exact (gap_left hle h0 he).trans (max_le_max le_rfl (le_max_left _ _))
  | @right x y e hle h0 he =>
    rw [← gap_swap, ← gap_swap x]
    exact (gap_left hle h0 he).trans (max_le_max le_rfl (le_max_right _ _))

/-- The gap of a whole race is bounded by its start and the larger move. -/
theorem gap_race {dx dy : K} {p q : K × K} (h : Relation.ReflTransGen (Step dx dy) p q) :
    gap q ≤ max (gap p) (max dx dy) := by
  induction h with
  | refl => exact le_max_left _ _
  | tail _ hstep ih => exact (gap_step hstep).trans (max_le ih (le_max_right _ _))

end Race
