import Mathlib.Algebra.Order.Group.Abs
import Mathlib.Algebra.Order.Ring.Rat
import Mathlib.Order.Interval.Finset.Nat
import Mathlib.Tactic

/-! A controller on a ladder of levels with hysteresis: it climbs above an upper
threshold of its level and descends below a lower one, and every lower threshold
lies a gap under the upper threshold of the level below. -/

namespace Hysteresis

variable {K : Type*} [AddCommGroup K] [LinearOrder K]

structure Ladder (K : Type*) [AddCommGroup K] [LinearOrder K] where
  up : ℤ → K
  down : ℤ → K
  gap : K
  down_add_gap_le : ∀ l, down (l + 1) + gap ≤ up l

/-- One step of the controller at an observed value; it may always rest. -/
inductive Step (L : Ladder K) : ℤ → K → ℤ → Prop
  | rest (l : ℤ) (v : K) : Step L l v l
  | climb {l : ℤ} {v : K} (h : L.up l < v) : Step L l v (l + 1)
  | descend {l : ℤ} {v : K} (h : v < L.down l) : Step L l v (l - 1)

variable {L : Ladder K}

theorem Step.cases_move {l l' : ℤ} {v : K} (h : Step L l v l') :
    l' = l ∨ (l' = l + 1 ∧ L.up l < v) ∨ (l' = l - 1 ∧ v < L.down l) := by
  cases h with
  | rest => exact Or.inl rfl
  | climb h => exact Or.inr (Or.inl ⟨rfl, h⟩)
  | descend h => exact Or.inr (Or.inr ⟨rfl, h⟩)

theorem Step.up_lt {l : ℤ} {v : K} (h : Step L l v (l + 1)) : L.up l < v := by
  rcases h.cases_move with he | ⟨-, hv⟩ | ⟨he, -⟩
  · omega
  · exact hv
  · omega

theorem Step.lt_down {l : ℤ} {v : K} (h : Step L l v (l - 1)) : v < L.down l := by
  rcases h.cases_move with he | ⟨he, -⟩ | ⟨-, hv⟩
  · omega
  · omega
  · exact hv

theorem card_climbs {f : ℕ → ℤ} {a b : ℕ} (hab : a ≤ b)
    (h : ∀ k, a ≤ k → k < b → f (k + 1) = f k ∨ f (k + 1) = f k + 1) :
    (((Finset.Ico a b).filter fun k => f (k + 1) ≠ f k).card : ℤ) = f b - f a := by
  induction b, hab using Nat.le_induction with
  | base => simp
  | succ b hb ih =>
    have ih' := ih fun k hk hlt => h k hk (by omega)
    rw [← Finset.insert_Ico_right_eq_Ico_add_one hb, Finset.filter_insert]
    rcases h b hb (by omega) with he | he
    · rw [if_neg (not_not.mpr he), ih', he]
    · have hmem : b ∉ (Finset.Ico a b).filter fun k => f (k + 1) ≠ f k := by simp
      rw [if_pos (by omega), Finset.card_insert_of_notMem hmem, Nat.cast_add, ih', he]
      push_cast
      ring

section Run

variable {s : ℕ → ℤ} {v : ℕ → K} (hstep : ∀ k, Step L (s k) (v k) (s (k + 1)))

include hstep

theorem move_eq_one (k : ℕ) (h : s (k + 1) ≠ s k) : s (k + 1) = s k + 1 ∨ s (k + 1) = s k - 1 := by
  rcases (hstep k).cases_move with he | ⟨he, -⟩ | ⟨he, -⟩
  · exact absurd he h
  · exact Or.inl he
  · exact Or.inr he

omit hstep in
theorem level_const {a b : ℕ} (hab : a ≤ b) (h : ∀ k, a ≤ k → k < b → s (k + 1) = s k) :
    s b = s a := by
  induction b, hab using Nat.le_induction with
  | base => rfl
  | succ b hb ih => rw [h b hb (by omega), ih fun k hk hlt => h k hk (by omega)]

variable [IsOrderedAddMonoid K]

/-- A climb and the descent right after it are observed more than a gap apart. -/
theorem gap_lt_of_climb_descend {a b : ℕ} (hab : a < b) (hup : s (a + 1) = s a + 1)
    (hdown : s (b + 1) = s b - 1) (hflat : ∀ k, a < k → k < b → s (k + 1) = s k) :
    L.gap < v a - v b := by
  have hlevel : s b = s a + 1 := by
    rw [level_const (a := a + 1) (by omega) fun k hk hlt => hflat k (by omega) hlt, hup]
  have ha : L.up (s a) < v a := (hup ▸ hstep a).up_lt
  have hb : v b < L.down (s a + 1) := hlevel ▸ (hdown ▸ hstep b).lt_down
  have hsum : v b + L.gap < v a :=
    calc v b + L.gap < L.down (s a + 1) + L.gap := by gcongr
      _ ≤ L.up (s a) := L.down_add_gap_le (s a)
      _ < v a := ha
  exact lt_sub_iff_add_lt'.mpr hsum

theorem gap_lt_of_descend_climb {a b : ℕ} (hab : a < b) (hdown : s (a + 1) = s a - 1)
    (hup : s (b + 1) = s b + 1) (hflat : ∀ k, a < k → k < b → s (k + 1) = s k) :
    L.gap < v b - v a := by
  have hlevel : s b = s a - 1 := by
    rw [level_const (a := a + 1) (by omega) fun k hk hlt => hflat k (by omega) hlt, hdown]
  have ha : v a < L.down (s b + 1) := by
    have h := (hdown ▸ hstep a).lt_down
    rwa [hlevel, sub_add_cancel]
  have hb : L.up (s b) < v b := (hup ▸ hstep b).up_lt
  have hsum : v a + L.gap < v b :=
    calc v a + L.gap < L.down (s b + 1) + L.gap := by gcongr
      _ ≤ L.up (s b) := L.down_add_gap_le (s b)
      _ < v b := hb
  exact lt_sub_iff_add_lt'.mpr hsum

/-- Consecutive moves in opposite directions are observed more than a gap apart. -/
theorem gap_lt_of_opposite {a b : ℕ} (hab : a < b) (ha : s (a + 1) ≠ s a) (hb : s (b + 1) ≠ s b)
    (hflat : ∀ k, a < k → k < b → s (k + 1) = s k) (hopp : s a < s (a + 1) ↔ s (b + 1) < s b) :
    L.gap < |v a - v b| := by
  rcases move_eq_one hstep a ha with hup | hdown
  · have hb' : s (b + 1) = s b - 1 := by
      rcases move_eq_one hstep b hb with h | h
      · omega
      · exact h
    exact (gap_lt_of_climb_descend hstep hab hup hb' hflat).trans_le (le_abs_self _)
  · have hb' : s (b + 1) = s b + 1 := by
      rcases move_eq_one hstep b hb with h | h
      · exact h
      · omega
    rw [abs_sub_comm]
    exact (gap_lt_of_descend_climb hstep hab hdown hb' hflat).trans_le (le_abs_self _)

/-- Two moves in opposite directions have two consecutive ones between them, so
a stretch whose moves are all observed within a gap has only one direction. -/
theorem no_opposite_moves {a b : ℕ} (hwin : ∀ k l, a ≤ k → k < b → a ≤ l → l < b →
      s (k + 1) ≠ s k → s (l + 1) ≠ s l → v k - v l ≤ L.gap) :
    ∀ d i j, j - i = d → a ≤ i → i < j → j < b → s (i + 1) ≠ s i → s (j + 1) ≠ s j →
      ¬ (s i < s (i + 1) ↔ s (j + 1) < s j) := by
  intro d
  induction d using Nat.strong_induction_on with
  | _ d ih =>
    intro i j hd hai hij hjb hi hj hopp
    by_cases hflat : ∀ k, i < k → k < j → s (k + 1) = s k
    · have hlt := gap_lt_of_opposite hstep hij hi hj hflat hopp
      have hle : |v i - v j| ≤ L.gap := by
        rw [abs_le']
        refine ⟨hwin i j hai (by omega) (by omega) hjb hi hj, ?_⟩
        rw [neg_sub]
        exact hwin j i (by omega) hjb hai (by omega) hj hi
      exact absurd hlt (not_lt.mpr hle)
    · push Not at hflat
      obtain ⟨k, hik, hkj, hk⟩ := hflat
      -- the move between them is opposite to one of the two
      by_cases hdir : s i < s (i + 1) ↔ s (k + 1) < s k
      · exact ih (k - i) (by omega) i k rfl hai hik (by omega) hi hk hdir
      · refine ih (j - k) (by omega) k j rfl (by omega) hkj hjb hk hj ?_
        refine ⟨?_, ?_⟩ <;> intro h <;> omega

/-- The moves of such a stretch go one way, so there are no more of them than
levels to cross. -/
theorem moves_of_stretch {a b : ℕ} {n : ℕ} (hab : a ≤ b) (hlo : ∀ k, 0 ≤ s k)
    (hhi : ∀ k, s k ≤ n) (hwin : ∀ k l, a ≤ k → k < b → a ≤ l → l < b →
      s (k + 1) ≠ s k → s (l + 1) ≠ s l → v k - v l ≤ L.gap) :
    ((Finset.Ico a b).filter fun k => s (k + 1) ≠ s k).card ≤ n ∧
      ((∀ k, a ≤ k → k < b → s k ≤ s (k + 1)) ∨ (∀ k, a ≤ k → k < b → s (k + 1) ≤ s k)) := by
  by_cases hclimb : ∃ i, a ≤ i ∧ i < b ∧ s i < s (i + 1)
  · obtain ⟨i, hai, hib, hi⟩ := hclimb
    have hup : ∀ k, a ≤ k → k < b → s k ≤ s (k + 1) := by
      intro k hak hkb
      by_contra hk
      have hno := no_opposite_moves hstep hwin
      rcases Nat.lt_trichotomy i k with hlt | rfl | hgt
      · exact hno _ i k rfl hai hlt hkb (by omega) (by omega) (by omega)
      · omega
      · exact hno _ k i rfl hak hgt hib (by omega) (by omega) (by omega)
    have hcard := card_climbs (f := s) hab fun k hak hkb => by
      have hle := hup k hak hkb
      by_cases hk : s (k + 1) = s k
      · exact Or.inl hk
      · rcases move_eq_one hstep k hk with h | h <;> omega
    have h1 := hlo a
    have h2 := hhi b
    exact ⟨by omega, Or.inl hup⟩
  · push Not at hclimb
    have hcard := card_climbs (f := fun k => -s k) hab fun k hak hkb => by
      have hle := hclimb k hak hkb
      by_cases hk : s (k + 1) = s k
      · exact Or.inl (congrArg Neg.neg hk)
      · rcases move_eq_one hstep k hk with h | h <;> omega
    simp only [ne_eq, neg_inj] at hcard ⊢
    have h1 := hlo b
    have h2 := hhi a
    exact ⟨by omega, Or.inr hclimb⟩

end Run

end Hysteresis
