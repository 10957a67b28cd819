import Mathlib.Data.Rat.Lemmas
import Mathlib.Tactic

/-! Idealised C doubles. Arithmetic is exact over the rationals; a quotient of
two unsigned integers keeps the two values that a zero divisor produces, so a
comparison behaves as it does in C. -/

namespace Idealised

inductive Double where
  | nan
  | inf
  | fin (q : ℚ)
deriving DecidableEq, Repr

namespace Double

/-- C's `<` is false as soon as one side is not a number. -/
protected def lt : Double → Double → Prop
  | fin a, fin b => a < b
  | fin _, inf => True
  | _, _ => False

instance : LT Double := ⟨Double.lt⟩

instance decidableLT : (x y : Double) → Decidable (x < y)
  | fin a, fin b => inferInstanceAs (Decidable (a < b))
  | fin _, inf => .isTrue trivial
  | fin _, nan => .isFalse id
  | inf, _ => .isFalse id
  | nan, _ => .isFalse id

@[simp] theorem fin_lt_fin (a b : ℚ) : fin a < fin b ↔ a < b := Iff.rfl
@[simp] theorem fin_lt_inf (a : ℚ) : fin a < inf ↔ True := Iff.rfl
@[simp] theorem lt_nan (x : Double) : x < nan ↔ False := by cases x <;> exact Iff.rfl
@[simp] theorem nan_lt (x : Double) : nan < x ↔ False := Iff.rfl
@[simp] theorem inf_lt (x : Double) : inf < x ↔ False := Iff.rfl

/-- The value of a finite double; the other two count as zero. -/
def toRat : Double → ℚ
  | fin q => q
  | _ => 0

@[simp] theorem toRat_fin (q : ℚ) : (fin q).toRat = q := rfl

/-- `(double)a / (double)b` for unsigned `a` and `b`. -/
def quot (a b : ℕ) : Double :=
  if b = 0 then if a = 0 then nan else inf
  else fin (a / b)

theorem quot_of_ne_zero (a : ℕ) {b : ℕ} (hb : b ≠ 0) : quot a b = fin (a / b) := by
  rw [quot, if_neg hb]

/-- The model has no negative infinity: no sum here meets one. -/
protected def add : Double → Double → Double
  | fin a, fin b => fin (a + b)
  | fin _, inf => inf
  | inf, fin _ => inf
  | inf, inf => inf
  | _, _ => nan

instance : Add Double := ⟨Double.add⟩

@[simp] theorem fin_add_fin (a b : ℚ) : fin a + fin b = fin (a + b) := rfl

theorem add_eq_fin {x y : Double} {s : ℚ} (h : x + y = fin s) : ∃ p q, x = fin p ∧ y = fin q := by
  cases x <;> cases y <;> first | exact ⟨_, _, rfl, rfl⟩ | cases h

theorem foldl_add_eq_fin {xs : List Double} {x : Double} {s : ℚ} (h : xs.foldl (· + ·) x = fin s) :
    (∃ p, x = fin p) ∧ ∃ qs : List ℚ, xs = qs.map fin := by
  induction xs generalizing x with
  | nil => exact ⟨⟨s, h⟩, [], rfl⟩
  | cons y xs ih =>
    obtain ⟨⟨p, hp⟩, qs, rfl⟩ := ih h
    obtain ⟨a, b, rfl, rfl⟩ := add_eq_fin hp
    exact ⟨⟨a, rfl⟩, b :: qs, rfl⟩

/-- `x / (double)n` for an unsigned `n` and an `x` that is not negative. -/
def divNat (x : Double) (n : ℕ) : Double :=
  match x with
  | fin q => if n = 0 then if q = 0 then nan else inf else fin (q / n)
  | inf => inf
  | nan => nan

theorem divNat_fin (q : ℚ) {n : ℕ} (hn : n ≠ 0) : (fin q).divNat n = fin (q / n) := by
  rw [divNat, if_neg hn]

theorem divNat_eq_fin {x : Double} {n : ℕ} {a : ℚ} (hn : n ≠ 0) (h : x.divNat n = fin a) :
    ∃ q, x = fin q ∧ a = q / n := by
  cases x with
  | fin q =>
    rw [divNat_fin q hn, fin.injEq] at h
    exact ⟨q, rfl, h.symm⟩
  | inf => cases h
  | nan => cases h

/-- The range check `if (j > 1.0) j = 1.0; else if (j < 0.0) j = 0.0;`. -/
def clampUnit (j : Double) : Double :=
  if fin 1 < j then fin 1
  else if j < fin 0 then fin 0
  else j

theorem clampUnit_fin {q : ℚ} (h0 : 0 ≤ q) (h1 : q ≤ 1) : clampUnit (fin q) = fin q := by
  simp [clampUnit, not_lt.mpr h0, not_lt.mpr h1]

theorem clampUnit_range (j : Double) :
    clampUnit j = nan ∨ ∃ q, clampUnit j = fin q ∧ 0 ≤ q ∧ q ≤ 1 := by
  cases j with
  | nan => exact Or.inl (by simp [clampUnit])
  | inf => exact Or.inr ⟨1, by simp [clampUnit], zero_le_one, le_rfl⟩
  | fin q =>
    right
    unfold clampUnit
    split_ifs with h1 h0
    · exact ⟨1, rfl, zero_le_one, le_rfl⟩
    · exact ⟨0, rfl, le_rfl, zero_le_one⟩
    · exact ⟨q, rfl, not_lt.mp (by simpa using h0), not_lt.mp (by simpa using h1)⟩

end Double

end Idealised
