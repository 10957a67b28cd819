import Mathlib.Algebra.Order.Field.Rat
import Mathlib.Tactic

/-! Jain's index of a list of shares, `(∑ x)^2 / (n * ∑ x^2)`: its range, when it
is one, and how close to one it is for shares of bounded ratio. -/

namespace Jain

def sumSq (xs : List ℕ) : ℕ := (xs.map (· ^ 2)).sum

def index (xs : List ℕ) : ℚ := (xs.sum : ℚ) ^ 2 / (xs.length * sumSq xs)

@[simp] theorem sumSq_nil : sumSq [] = 0 := rfl

@[simp] theorem sumSq_cons (x : ℕ) (xs : List ℕ) : sumSq (x :: xs) = x ^ 2 + sumSq xs := by
  simp [sumSq]

theorem sum_le_sumSq (xs : List ℕ) : xs.sum ≤ sumSq xs := by
  induction xs with
  | nil => simp
  | cons x xs ih =>
    have hx : x ≤ x ^ 2 := Nat.le_self_pow (by decide) x
    rw [List.sum_cons, sumSq_cons]
    omega

theorem sumSq_le_sq_sum (xs : List ℕ) : sumSq xs ≤ xs.sum ^ 2 := by
  induction xs with
  | nil => simp
  | cons x xs ih =>
    rw [List.sum_cons, sumSq_cons]
    calc x ^ 2 + sumSq xs ≤ x ^ 2 + xs.sum ^ 2 := Nat.add_le_add_left ih _
      _ ≤ (x + xs.sum) ^ 2 := by
        rw [add_sq]
        omega

theorem length_mul_sq_le_sumSq {xs : List ℕ} {a : ℕ} (h : ∀ x ∈ xs, a ≤ x) :
    xs.length * a ^ 2 ≤ sumSq xs := by
  induction xs with
  | nil => simp
  | cons x xs ih =>
    have hx : a ^ 2 ≤ x ^ 2 := Nat.pow_le_pow_left (h x (List.mem_cons_self ..)) 2
    have ih' := ih fun y hy => h y (List.mem_cons_of_mem _ hy)
    rw [List.length_cons, sumSq_cons, Nat.add_mul, Nat.one_mul]
    omega

theorem sumSq_pos {xs : List ℕ} (h : ∃ x ∈ xs, x ≠ 0) : 0 < sumSq xs := by
  obtain ⟨x, hx, hne⟩ := h
  have hsum : x ≤ xs.sum := List.le_sum_of_mem hx
  have hsq := sum_le_sumSq xs
  omega

theorem sum_affine_sq (a b : ℤ) (xs : List ℕ) :
    (xs.map fun x : ℕ => (a * x - b) ^ 2).sum =
      a ^ 2 * sumSq xs - 2 * a * b * xs.sum + xs.length * b ^ 2 := by
  induction xs with
  | nil => simp
  | cons x xs ih =>
    rw [List.map_cons, List.sum_cons, ih, sumSq_cons, List.sum_cons, List.length_cons]
    push_cast
    ring

/-- Lagrange's identity: the defect of the Cauchy-Schwarz inequality as a sum of squares. -/
theorem lagrange (xs : List ℕ) :
    (xs.map fun x : ℕ => ((xs.length : ℤ) * x - xs.sum) ^ 2).sum =
      xs.length * ((xs.length : ℤ) * sumSq xs - (xs.sum : ℤ) ^ 2) := by
  rw [sum_affine_sq]
  ring

theorem sq_sum_le (xs : List ℕ) : xs.sum ^ 2 ≤ xs.length * sumSq xs := by
  rcases Nat.eq_zero_or_pos xs.length with h | h
  · rw [List.length_eq_zero_iff] at h
    simp [h]
  · have hnonneg : 0 ≤ (xs.length : ℤ) * ((xs.length : ℤ) * sumSq xs - (xs.sum : ℤ) ^ 2) := by
      rw [← lagrange]
      refine List.sum_nonneg fun y hy => ?_
      obtain ⟨x, -, rfl⟩ := List.mem_map.mp hy
      positivity
    have hdefect : (0 : ℤ) ≤ xs.length * sumSq xs - (xs.sum : ℤ) ^ 2 :=
      nonneg_of_mul_nonneg_right hnonneg (by exact_mod_cast h)
    have hint : (xs.sum : ℤ) ^ 2 ≤ xs.length * sumSq xs := by linarith
    exact_mod_cast hint

/-- Equality in Cauchy-Schwarz: all shares are equal. -/
theorem sq_sum_eq_iff (xs : List ℕ) :
    xs.sum ^ 2 = xs.length * sumSq xs ↔ ∀ x ∈ xs, ∀ y ∈ xs, x = y := by
  refine ⟨fun h x hx y hy => ?_, fun h => ?_⟩
  · have hpos : 0 < xs.length := List.length_pos_of_mem hx
    have hzero : (xs.map fun x : ℕ => ((xs.length : ℤ) * x - xs.sum) ^ 2).sum = 0 := by
      have hint : (xs.sum : ℤ) ^ 2 = xs.length * sumSq xs := by exact_mod_cast h
      rw [lagrange, hint, sub_self, mul_zero]
    -- every summand vanishes, so every share is the mean
    have hmean : ∀ z ∈ xs, (xs.length : ℤ) * z = xs.sum := by
      intro z hz
      have hle : ((xs.length : ℤ) * z - xs.sum) ^ 2 ≤ 0 := by
        rw [← hzero]
        refine List.single_le_sum (fun w hw => ?_) _ (List.mem_map_of_mem hz)
        obtain ⟨u, -, rfl⟩ := List.mem_map.mp hw
        positivity
      have hsq : ((xs.length : ℤ) * z - xs.sum) ^ 2 = 0 := le_antisymm hle (sq_nonneg _)
      exact sub_eq_zero.mp (pow_eq_zero_iff two_ne_zero |>.mp hsq)
    have hxy : (xs.length : ℤ) * x = xs.length * y := (hmean x hx).trans (hmean y hy).symm
    have hcancel : (x : ℤ) = y := mul_left_cancel₀ (by exact_mod_cast hpos.ne') hxy
    exact_mod_cast hcancel
  · rcases xs with _ | ⟨c, xs⟩
    · rfl
    · have hrep : c :: xs = List.replicate (xs.length + 1) c :=
        List.eq_replicate_of_mem fun y hy => h y hy c (List.mem_cons_self ..)
      rw [hrep, sumSq, List.map_replicate, List.sum_replicate, List.sum_replicate,
        List.length_replicate, smul_eq_mul, smul_eq_mul]
      ring

theorem sumSq_scale (xs : List ℕ) (c : ℕ) : sumSq (xs.map (· * c)) = sumSq xs * c ^ 2 := by
  induction xs with
  | nil => simp
  | cons x xs ih => rw [List.map_cons, sumSq_cons, ih, sumSq_cons, mul_pow, Nat.add_mul]

/-- Shares of which none is two above another sit on two neighbouring levels. -/
theorem exists_level {xs : List ℕ} (h : ∀ x ∈ xs, ∀ y ∈ xs, x ≤ y + 1) :
    ∃ a, ∀ x ∈ xs, a ≤ x ∧ x ≤ a + 1 := by
  rcases xs.eq_nil_or_concat with rfl | ⟨ys, y, rfl⟩
  · exact ⟨0, by simp⟩
  · obtain ⟨a, ha, hleast⟩ := Finset.exists_min_image (ys.concat y).toFinset id ⟨y, by simp⟩
    rw [List.mem_toFinset] at ha
    exact ⟨a, fun x hx => ⟨hleast x (List.mem_toFinset.mpr hx), h x hx a ha⟩⟩

theorem sums_of_level {xs : List ℕ} {a : ℕ} (h : ∀ x ∈ xs, a ≤ x ∧ x ≤ a + 1) :
    ∃ r ≤ xs.length, xs.sum = xs.length * a + r ∧
      sumSq xs = xs.length * a ^ 2 + r * (2 * a + 1) := by
  induction xs with
  | nil => exact ⟨0, le_rfl, by simp, by simp⟩
  | cons x xs ih =>
    obtain ⟨r, hr, hsum, hsq⟩ := ih fun y hy => h y (List.mem_cons_of_mem _ hy)
    obtain ⟨hlo, hhi⟩ := h x (List.mem_cons_self ..)
    rw [List.length_cons, List.sum_cons, sumSq_cons, hsum, hsq]
    rcases (by omega : x = a ∨ x = a + 1) with rfl | rfl
    · exact ⟨r, by omega, by ring, by ring⟩
    · exact ⟨r + 1, by omega, by ring, by ring⟩

/-- The total alone decides the sum of squares. -/
theorem length_mul_sumSq_of_level {xs : List ℕ} (h : ∀ x ∈ xs, ∀ y ∈ xs, x ≤ y + 1) :
    xs.length * sumSq xs =
      xs.sum ^ 2 + xs.sum % xs.length * (xs.length - xs.sum % xs.length) := by
  obtain ⟨a, ha⟩ := exists_level h
  obtain ⟨r, hr, hsum, hsq⟩ := sums_of_level ha
  have hrest : xs.sum % xs.length * (xs.length - xs.sum % xs.length) = r * (xs.length - r) := by
    rw [hsum, Nat.mul_add_mod]
    rcases hr.eq_or_lt with rfl | hlt
    · rw [Nat.mod_self, Nat.zero_mul, Nat.sub_self, Nat.mul_zero]
    · rw [Nat.mod_eq_of_lt hlt]
  rw [hrest, hsum, hsq]
  zify [hr]
  ring

/-- No shares of the same number and total have a smaller sum of squares. -/
theorem length_mul_sumSq_ge (xs : List ℕ) :
    xs.sum ^ 2 + xs.sum % xs.length * (xs.length - xs.sum % xs.length) ≤ xs.length * sumSq xs := by
  -- no share lies strictly between the levels `a` and `a + 1`
  have hlevels : ∀ (a : ℕ) (ys : List ℕ),
      (2 * a + 1) * ys.sum ≤ sumSq ys + ys.length * (a * (a + 1)) := by
    intro a ys
    induction ys with
    | nil => simp
    | cons y ys ih =>
      have hy : (2 * a + 1) * y ≤ y ^ 2 + a * (a + 1) := by
        rcases le_or_gt y a with h | h
        · obtain ⟨d, rfl⟩ := Nat.exists_eq_add_of_le h
          nlinarith
        · obtain ⟨d, rfl⟩ := Nat.exists_eq_add_of_le (Nat.succ_le_of_lt h)
          nlinarith
      rw [List.sum_cons, sumSq_cons, List.length_cons]
      linarith
  rcases Nat.eq_zero_or_pos xs.length with h0 | hpos
  · rw [List.length_eq_zero_iff] at h0
    simp [h0]
  · have hsum := Nat.div_add_mod xs.sum xs.length
    have hr := (Nat.mod_lt xs.sum hpos).le
    have hlevel := Nat.mul_le_mul_left xs.length (hlevels (xs.sum / xs.length) xs)
    generalize xs.sum / xs.length = a at hsum hlevel
    generalize xs.sum % xs.length = r at hsum hr ⊢
    rw [← hsum] at hlevel ⊢
    zify [hr] at hlevel ⊢
    linarith

/-- Shares a unit apart are the fairest of their number and total. -/
theorem index_le_of_level {xs ys : List ℕ} (hlen : xs.length = ys.length) (hsum : xs.sum = ys.sum)
    (hys : ∀ x ∈ ys, ∀ y ∈ ys, x ≤ y + 1) : index xs ≤ index ys := by
  have hge := length_mul_sumSq_ge xs
  rw [hlen, hsum, ← length_mul_sumSq_of_level hys] at hge
  have hgeQ : (ys.length * sumSq ys : ℚ) ≤ ys.length * sumSq xs := by exact_mod_cast hge
  rw [index, index, hlen, hsum]
  rcases Nat.eq_zero_or_pos (ys.length * sumSq ys) with hzero | hpos
  · have hsq : ys.sum ^ 2 = 0 := Nat.le_zero.mp (hzero ▸ sq_sum_le ys)
    have hcast : (ys.sum : ℚ) ^ 2 = 0 := by exact_mod_cast hsq
    rw [hcast, zero_div, zero_div]
  · exact div_le_div_of_nonneg_left (sq_nonneg _) (by exact_mod_cast hpos) hgeQ

section Index

variable {xs : List ℕ} (h : ∃ x ∈ xs, x ≠ 0)

include h

theorem denominator_pos : (0 : ℚ) < xs.length * sumSq xs := by
  obtain ⟨x, hx, -⟩ := id h
  have hn : 0 < xs.length := List.length_pos_of_mem hx
  exact_mod_cast Nat.mul_pos hn (sumSq_pos h)

theorem index_le_one : index xs ≤ 1 := by
  rw [index, div_le_one (denominator_pos h)]
  exact_mod_cast sq_sum_le xs

theorem inv_length_le_index : 1 / (xs.length : ℚ) ≤ index xs := by
  have hd := denominator_pos h
  have hn : (0 : ℚ) < xs.length := by
    obtain ⟨x, hx, -⟩ := h
    exact_mod_cast List.length_pos_of_mem hx
  rw [index, div_le_div_iff₀ hn hd, one_mul, mul_comm]
  have hsq : (sumSq xs : ℚ) ≤ (xs.sum : ℚ) ^ 2 := by exact_mod_cast sumSq_le_sq_sum xs
  exact mul_le_mul_of_nonneg_right hsq hn.le

theorem index_eq_one_iff : index xs = 1 ↔ ∀ x ∈ xs, ∀ y ∈ xs, x = y := by
  rw [index, div_eq_one_iff_eq (denominator_pos h).ne', ← sq_sum_eq_iff]
  exact_mod_cast Iff.rfl

end Index

theorem sumSq_add_le {xs : List ℕ} {a b : ℕ} (hxs : ∀ x ∈ xs, a ≤ x ∧ x ≤ b) :
    sumSq xs + xs.length * (a * b) ≤ (a + b) * xs.sum := by
  induction xs with
  | nil => simp
  | cons x xs ih =>
    obtain ⟨hax, hxb⟩ := hxs x (List.mem_cons_self ..)
    have ih' := ih fun y hy => hxs y (List.mem_cons_of_mem _ hy)
    have hx : x ^ 2 + a * b ≤ (a + b) * x := by nlinarith
    rw [sumSq_cons, List.length_cons, List.sum_cons]
    calc x ^ 2 + sumSq xs + (xs.length + 1) * (a * b)
        = (x ^ 2 + a * b) + (sumSq xs + xs.length * (a * b)) := by ring
      _ ≤ (a + b) * x + (a + b) * xs.sum := Nat.add_le_add hx ih'
      _ = (a + b) * (x + xs.sum) := by ring

/-- Shares between `a` and `b`: the index is at least `4ab / (a + b)^2`. -/
theorem index_ge_of_range {xs : List ℕ} {a b : ℕ} (ha : 0 < a) (hne : xs ≠ [])
    (hxs : ∀ x ∈ xs, a ≤ x ∧ x ≤ b) : 4 * (a : ℚ) * b / (a + b) ^ 2 ≤ index xs := by
  obtain ⟨x, hx⟩ := List.exists_mem_of_ne_nil xs hne
  have hd : (0 : ℚ) < xs.length * sumSq xs :=
    denominator_pos ⟨x, hx, (ha.trans_le (hxs x hx).1).ne'⟩
  have ha' : (0 : ℚ) < a := by exact_mod_cast ha
  have hQ : (sumSq xs : ℚ) + xs.length * (a * b) ≤ (a + b) * xs.sum := by
    exact_mod_cast sumSq_add_le hxs
  rw [index, div_le_div_iff₀ (by positivity) hd]
  calc 4 * (a : ℚ) * b * (xs.length * sumSq xs)
      ≤ 4 * a * b * (xs.length * ((a + b) * xs.sum - xs.length * (a * b))) := by
        gcongr
        linarith
    _ = (xs.sum * (a + b)) ^ 2 - (xs.sum * (a + b) - 2 * xs.length * (a * b)) ^ 2 := by ring
    _ ≤ (xs.sum * (a + b)) ^ 2 := sub_le_self _ (sq_nonneg _)
    _ = (xs.sum : ℚ) ^ 2 * (a + b) ^ 2 := by ring

end Jain
