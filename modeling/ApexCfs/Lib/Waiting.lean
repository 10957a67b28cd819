import Mathlib.Algebra.BigOperators.Group.Finset.Basic
import Mathlib.Tactic

/-! Waiting for one's turn where the least clock moves. A clock that is let
before the waiting one is not ahead of it and moves by at least its stride, so
it is let before only so often. -/

namespace Waiting

variable {ι : Type*} (d : ι → ℕ) (c : ℕ)

/-- How often clock `i` can still be let before a clock that waits at `c`. -/
def room (v : ι → ℕ) (i : ι) : ℕ := (c + d i - v i) / d i

/-- Clock `i` is let before the waiting one. -/
structure Move (i : ι) (v v' : ι → ℕ) : Prop where
  not_ahead : v i ≤ c
  stride : v i + d i ≤ v' i
  others : ∀ j ≠ i, v' j = v j

variable {d c}

theorem room_move {v v' : ι → ℕ} {i : ι} (hd : 0 < d i) (h : Move d c i v v') :
    room d c v' i + 1 ≤ room d c v i := by
  have hstride := h.stride
  have hahead := h.not_ahead
  calc room d c v' i + 1 ≤ (c - v i) / d i + 1 :=
        Nat.add_le_add_right (Nat.div_le_div_right (by omega)) 1
    _ = (c - v i + d i) / d i := (Nat.add_div_right _ hd).symm
    _ = room d c v i := by rw [room, Nat.sub_add_comm hahead]

def budget (d : ι → ℕ) (c : ℕ) (s : Finset ι) (v : ι → ℕ) : ℕ := ∑ i ∈ s, room d c v i

variable {s : Finset ι}

theorem budget_congr {v v' : ι → ℕ} (h : ∀ j ∈ s, v' j = v j) : budget d c s v' = budget d c s v :=
  Finset.sum_congr rfl fun j hj => by rw [room, room, h j hj]

theorem budget_move [DecidableEq ι] {v v' : ι → ℕ} {i : ι} (hi : i ∈ s) (hd : 0 < d i)
    (h : Move d c i v v') : budget d c s v' + 1 ≤ budget d c s v := by
  have hrest : ∑ j ∈ s.erase i, room d c v' j = ∑ j ∈ s.erase i, room d c v j :=
    Finset.sum_congr rfl fun j hj => by rw [room, room, h.others j (Finset.ne_of_mem_erase hj)]
  rw [budget, budget, ← Finset.add_sum_erase s _ hi, ← Finset.add_sum_erase s _ hi, hrest]
  have hroom := room_move hd h
  omega

end Waiting
