import Mathlib.Order.Lattice
import Mathlib.Tactic

/-! The running extremum of a loop: a value replaces the best so far if it beats
it. -/

namespace Extremum

variable {α : Type*} [LinearOrder α]

/-- `if (x < best) best = x;` for every `x` in turn. -/
def runningMin (a : α) (xs : List α) : α := xs.foldl (fun best x => if x < best then x else best) a

def runningMax (a : α) (xs : List α) : α := xs.foldl (fun best x => if x > best then x else best) a

@[simp] theorem runningMin_nil (a : α) : runningMin a [] = a := rfl

@[simp] theorem runningMax_nil (a : α) : runningMax a [] = a := rfl

theorem runningMin_cons (a x : α) (xs : List α) :
    runningMin a (x :: xs) = runningMin (min x a) xs := by
  rw [runningMin, List.foldl_cons, ← min_def_lt]
  rfl

theorem runningMax_append (a : α) (xs ys : List α) :
    runningMax a (xs ++ ys) = runningMax (runningMax a xs) ys :=
  List.foldl_append

theorem runningMin_le_start (a : α) (xs : List α) : runningMin a xs ≤ a := by
  induction xs generalizing a with
  | nil => exact le_rfl
  | cons x xs ih =>
    rw [runningMin_cons]
    exact (ih _).trans (min_le_right x a)

theorem runningMin_le {a x : α} {xs : List α} (hx : x ∈ xs) : runningMin a xs ≤ x := by
  induction xs generalizing a with
  | nil => simp at hx
  | cons y xs ih =>
    rw [runningMin_cons]
    rcases List.mem_cons.mp hx with rfl | hx
    · exact (runningMin_le_start _ _).trans (min_le_left x a)
    · exact ih hx

theorem le_runningMin {a b : α} {xs : List α} (ha : b ≤ a) (h : ∀ x ∈ xs, b ≤ x) :
    b ≤ runningMin a xs := by
  induction xs generalizing a with
  | nil => exact ha
  | cons y xs ih =>
    rw [runningMin_cons]
    exact ih (le_min (h y (List.mem_cons_self ..)) ha) fun x hx => h x (List.mem_cons_of_mem _ hx)

theorem start_le_runningMax (a : α) (xs : List α) : a ≤ runningMax a xs :=
  runningMin_le_start (α := αᵒᵈ) a xs

theorem le_runningMax {a x : α} {xs : List α} (hx : x ∈ xs) : x ≤ runningMax a xs :=
  runningMin_le (α := αᵒᵈ) hx

theorem runningMax_le {a b : α} {xs : List α} (ha : a ≤ b) (h : ∀ x ∈ xs, x ≤ b) :
    runningMax a xs ≤ b :=
  le_runningMin (α := αᵒᵈ) ha h

theorem runningMin_eq {a b : α} {xs : List α} (ha : b ≤ a) (h : ∀ x ∈ xs, b ≤ x) (hb : b ∈ xs) :
    runningMin a xs = b :=
  le_antisymm (runningMin_le hb) (le_runningMin ha h)

theorem runningMax_eq {a b : α} {xs : List α} (ha : a ≤ b) (h : ∀ x ∈ xs, x ≤ b) (hb : b ∈ xs) :
    runningMax a xs = b :=
  runningMin_eq (α := αᵒᵈ) ha h hb

section Mean

variable {K : Type*} [Field K] [LinearOrder K] [IsStrictOrderedRing K]

theorem mean_le {xs : List K} {b : K} (hb : 0 ≤ b) (h : ∀ x ∈ xs, x ≤ b) :
    xs.sum / xs.length ≤ b := by
  rcases xs.eq_nil_or_concat with rfl | ⟨ys, y, rfl⟩
  · simpa using hb
  · rw [div_le_iff₀ (by simp; positivity), mul_comm, ← nsmul_eq_mul]
    exact List.sum_le_card_nsmul _ _ h

theorem le_mean {xs : List K} {b : K} (hne : xs ≠ []) (h : ∀ x ∈ xs, b ≤ x) :
    b ≤ xs.sum / xs.length := by
  have hpos : (0 : K) < xs.length := by exact_mod_cast List.length_pos_iff.mpr hne
  rw [le_div_iff₀ hpos, mul_comm, ← nsmul_eq_mul]
  exact List.card_nsmul_le_sum _ _ h

theorem mean_le_runningMax (xs : List K) : xs.sum / xs.length ≤ runningMax 0 xs :=
  mean_le (start_le_runningMax 0 xs) fun _ => le_runningMax

end Mean

end Extremum
