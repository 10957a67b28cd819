import ApexCfs.Lib.While
import ApexCfs.Lib.Word
import ApexCfs.Spec.Bsa
import Mathlib.Data.Nat.Dist

/-! The power of two that the Newton start is taken at. The loop stops at the largest one
that is not above the weight, at the latest where the shift wraps to zero, and the nearer
of it and its double is the nearest of all. -/

namespace ApexCfs

open While

theorem toNat_double (f : UInt32) : (f <<< 1).toNat = f.toNat * 2 % 2 ^ 32 := by
  rw [UInt32.toNat_shiftLeft, Nat.shiftLeft_eq]
  rfl

theorem lt_32_of_pow_le {weight : UInt32} {j : ℕ} (h : 2 ^ j ≤ weight.toNat) : j < 32 :=
  (Nat.pow_lt_pow_iff_right (by norm_num)).1 (h.trans_lt (UInt32.toNat_lt weight))

def pow2Guard (weight floorPow2 : UInt32) : Prop :=
  floorPow2 <<< 1 ≠ 0 ∧ floorPow2 <<< 1 ≤ weight

instance (weight floorPow2 : UInt32) : Decidable (pow2Guard weight floorPow2) :=
  inferInstanceAs (Decidable (_ ∧ _))

theorem floorPow2Loop_eq_loop (rounds : ℕ) (weight floorPow2 : UInt32) :
    floorPow2Loop rounds weight floorPow2 =
      loop (pow2Guard weight) (fun f => f <<< 1) rounds floorPow2 := by
  induction rounds generalizing floorPow2 with
  | zero => rfl
  | succ rounds ih =>
    rw [floorPow2Loop, loop, ih]
    rfl

theorem floorPow2Loop_le (rounds : ℕ) {weight floorPow2 : UInt32}
    (h : floorPow2.toNat ≤ weight.toNat) :
    (floorPow2Loop rounds weight floorPow2).toNat ≤ weight.toNat := by
  rw [floorPow2Loop_eq_loop]
  exact loop_invariant (I := fun f : UInt32 => f.toNat ≤ weight.toNat) h
    (fun _ _ hguard => UInt32.le_iff_toNat_le.1 hguard.2) rounds

/-- A pass doubles the power: the guard fails before the shift drops its bit. -/
theorem pow2Guard_double {weight f : UInt32} {j : ℕ} (hpow : f.toNat = 2 ^ j)
    (hle : 2 ^ j ≤ weight.toNat) (hguard : pow2Guard weight f) :
    (f <<< 1).toNat = 2 ^ (j + 1) ∧ 2 ^ (j + 1) ≤ weight.toNat := by
  have hj := lt_32_of_pow_le hle
  have hdouble := toNat_double f
  rw [hpow, ← pow_succ] at hdouble
  rcases Nat.lt_or_ge (j + 1) 32 with hlt | hge
  · rw [Nat.mod_eq_of_lt (Nat.pow_lt_pow_right (by norm_num) hlt)] at hdouble
    exact ⟨hdouble, hdouble ▸ UInt32.le_iff_toNat_le.1 hguard.2⟩
  · have hzero : (f <<< 1).toNat = 0 := by
      rw [hdouble, show j + 1 = 32 by omega, Nat.mod_self]
    exact absurd (UInt32.toNat_inj.1 hzero) hguard.1

theorem lt_double_of_not_pow2Guard {weight f : UInt32} {j : ℕ} (hpow : f.toNat = 2 ^ j)
    (hguard : ¬pow2Guard weight f) : weight.toNat < 2 ^ (j + 1) := by
  by_contra hge
  have hdouble := toNat_double f
  rw [hpow, ← pow_succ, Nat.mod_eq_of_lt ((Nat.not_lt.1 hge).trans_lt (UInt32.toNat_lt weight))]
    at hdouble
  refine hguard ⟨fun h => ?_, ?_⟩
  · rw [h] at hdouble
    exact absurd hdouble.symm (by positivity)
  · rw [UInt32.le_iff_toNat_le, hdouble]
    exact Nat.not_lt.1 hge

/-- The loop exits by itself after at most 31 passes, at the largest power of two that is
not above the weight. -/
theorem floorPow2_exits {weight : UInt32} (h0 : 0 < weight.toNat) :
    ∃ k ≤ 31, ExitsAfter (pow2Guard weight) (fun f => f <<< 1) 1 k ∧
      ((fun f : UInt32 => f <<< 1)^[k] 1).toNat = 2 ^ k ∧ 2 ^ k ≤ weight.toNat ∧
      weight.toNat < 2 ^ (k + 1) := by
  obtain ⟨k, hk, hexit, hpow, hle⟩ : ∃ k ≤ 31,
      ExitsAfter (pow2Guard weight) (fun f => f <<< 1) 1 k ∧
        ((fun f : UInt32 => f <<< 1)^[k] 1).toNat = 2 ^ k ∧ 2 ^ k ≤ weight.toNat :=
    exists_exitsAfter (I := fun j (f : UInt32) => f.toNat = 2 ^ j ∧ 2 ^ j ≤ weight.toNat) ⟨rfl, h0⟩
      (fun j f h hguard => pow2Guard_double h.1 h.2 hguard)
      (fun j f h => Nat.le_of_lt_succ (lt_32_of_pow_le h.2))
  exact ⟨k, hk, hexit, hpow, hle, lt_double_of_not_pow2Guard hpow hexit.exit⟩

theorem floorPow2Loop_spec {weight : UInt32} (h0 : 0 < weight.toNat) {rounds : ℕ}
    (hrounds : 31 ≤ rounds) : ∃ k ≤ 31, (floorPow2Loop rounds weight 1).toNat = 2 ^ k ∧
      2 ^ k ≤ weight.toNat ∧ weight.toNat < 2 ^ (k + 1) := by
  obtain ⟨k, hk, hexit, hpow, hle, hlt⟩ := floorPow2_exits h0
  refine ⟨k, hk, ?_, hle, hlt⟩
  rw [floorPow2Loop_eq_loop, hexit.loop_eq (hk.trans hrounds), hpow]

/-- The result is the largest power of two not above the weight up to half way, or where
there is no larger one, and its double from there on. -/
theorem bsaNearestPow2_cases {weight : UInt32} (h0 : 0 < weight.toNat) :
    ∃ k ≤ 31, 2 ^ k ≤ weight.toNat ∧ weight.toNat < 2 ^ (k + 1) ∧
      ((bsaNearestPow2 weight).toNat = 2 ^ k ∧ (k = 31 ∨ 2 * weight.toNat ≤ 3 * 2 ^ k) ∨
        (bsaNearestPow2 weight).toNat = 2 ^ (k + 1) ∧ k < 31 ∧ 3 * 2 ^ k < 2 * weight.toNat) := by
  obtain ⟨k, hk, hfloor, hle, hlt⟩ := floorPow2Loop_spec h0 (by norm_num : 31 ≤ 32)
  refine ⟨k, hk, hle, hlt, ?_⟩
  have hdouble := toNat_double (floorPow2Loop 32 weight 1)
  simp only [bsaNearestPow2, if_neg (Word.ne_zero_of_toNat_pos h0)]
  generalize floorPow2Loop 32 weight 1 = floorPow2 at hfloor hdouble ⊢
  rw [hfloor, ← pow_succ] at hdouble
  split_ifs with heq hzero hdist
  · rw [← heq, hfloor]
    exact Or.inl ⟨rfl, Or.inr (by omega)⟩
  · refine Or.inl ⟨hfloor, Or.inl ?_⟩
    by_contra hne
    rw [hzero, Nat.mod_eq_of_lt (Nat.pow_lt_pow_right (by norm_num) (by omega))] at hdouble
    exact absurd hdouble.symm (by positivity)
  all_goals
    -- the double is a word, so both distances are those of the naturals
    have hk' : k < 31 := by
      by_contra hge
      rw [show k = 31 by omega, Nat.mod_self] at hdouble
      exact hzero (UInt32.toNat_inj.1 hdouble)
    rw [Nat.mod_eq_of_lt (Nat.pow_lt_pow_right (by norm_num) (by omega))] at hdouble
    rw [UInt32.le_iff_toNat_le, UInt32.toNat_sub_of_le _ _ (UInt32.le_iff_toNat_le.2 (by omega)),
      UInt32.toNat_sub_of_le _ _ (UInt32.le_iff_toNat_le.2 (by omega)), hfloor, hdouble,
      pow_succ] at hdist
  · exact Or.inl ⟨hfloor, Or.inr (by omega)⟩
  · exact Or.inr ⟨hdouble, hk', by omega⟩

/-- Up to `3 * 2 ^ 30` the result is between two thirds and four thirds of the weight; half
way between two powers it is the smaller one. -/
theorem bsaNearestPow2_spec {weight : UInt32} (h0 : 0 < weight.toNat)
    (hmax : weight.toNat ≤ 3 * 2 ^ 30) : ∃ k ≤ 31, (bsaNearestPow2 weight).toNat = 2 ^ k ∧
      3 * 2 ^ k < 4 * weight.toNat ∧ 2 * weight.toNat ≤ 3 * 2 ^ k := by
  obtain ⟨k, hk, hle, hlt, ⟨hpow, hlow⟩ | ⟨hpow, hk', hhigh⟩⟩ := bsaNearestPow2_cases h0
  · rcases hlow with rfl | hlow
    · exact ⟨31, le_rfl, hpow, by omega, by omega⟩
    · exact ⟨k, hk, hpow, by omega, hlow⟩
  · rw [pow_succ] at hlt
    exact ⟨k + 1, by omega, hpow, by rw [pow_succ]; omega, by rw [pow_succ]; omega⟩

/-- `p` is the 32-bit power of two nearest to a weight, and the smaller one of two equally
near. -/
structure NearestPow2 (weight p : UInt32) : Prop where
  pow : ∃ k ≤ 31, p.toNat = 2 ^ k
  least : ∀ q : UInt32, q.toNat.isPowerOfTwo →
    Nat.dist weight.toNat p.toNat ≤ Nat.dist weight.toNat q.toNat
  smaller : ∀ q : UInt32, q.toNat.isPowerOfTwo → q < p →
    Nat.dist weight.toNat p.toNat < Nat.dist weight.toNat q.toNat

theorem pow_le_or_double_le (j k : ℕ) : 2 ^ j ≤ 2 ^ k ∨ 2 * 2 ^ k ≤ 2 ^ j := by
  rcases Nat.lt_or_ge k j with h | h
  · right
    rw [← pow_succ']
    exact Nat.pow_le_pow_right (by norm_num) h
  · exact Or.inl (Nat.pow_le_pow_right (by norm_num) h)

theorem bsaNearestPow2_nearest {weight : UInt32} (h0 : 0 < weight.toNat) :
    NearestPow2 weight (bsaNearestPow2 weight) := by
  obtain ⟨k, hk, hle, hlt, ⟨hpow, hlow⟩ | ⟨hpow, hk', hhigh⟩⟩ := bsaNearestPow2_cases h0
  · rw [pow_succ'] at hlt
    refine ⟨⟨k, hk, hpow⟩, ?_, fun q _ hqp => ?_⟩
    · rintro q ⟨j, hj⟩
      have hq := UInt32.toNat_lt q
      rw [hpow]
      unfold Nat.dist
      rcases pow_le_or_double_le j k with hbelow | habove
      · omega
      · rcases hlow with rfl | hlow
        · omega
        · omega
    · rw [UInt32.lt_iff_toNat_lt, hpow] at hqp
      rw [hpow]
      unfold Nat.dist
      omega
  · rw [pow_succ'] at hlt hpow
    -- above half way the lower power is strictly farther than the upper one
    have hfar : ∀ q : UInt32, q.toNat.isPowerOfTwo →
        Nat.dist weight.toNat (2 * 2 ^ k) < Nat.dist weight.toNat q.toNat ∨
          2 * 2 ^ k ≤ q.toNat := by
      rintro q ⟨j, hj⟩
      unfold Nat.dist
      rcases pow_le_or_double_le j k with hbelow | habove
      · left
        omega
      · exact Or.inr (hj ▸ habove)
    refine ⟨⟨k + 1, hk', by rw [hpow, pow_succ']⟩, fun q hq => ?_, fun q hq hqp => ?_⟩
    · rw [hpow]
      rcases hfar q hq with hlower | hupper
      · exact hlower.le
      · unfold Nat.dist
        omega
    · rw [UInt32.lt_iff_toNat_lt, hpow] at hqp
      rw [hpow]
      exact (hfar q hq).resolve_right (Nat.not_le.2 hqp)

theorem bsaNearestPow2_of_large {weight : UInt32} (h : 3 * 2 ^ 30 < weight.toNat) :
    (bsaNearestPow2 weight).toNat = 2 ^ 31 := by
  obtain ⟨k, hk, -, hlt, hcase⟩ := bsaNearestPow2_cases (by omega : 0 < weight.toNat)
  have hk31 : k = 31 := by
    by_contra hne
    have hpow : 2 ^ (k + 1) ≤ 2 ^ 31 := Nat.pow_le_pow_right (by norm_num) (by omega)
    omega
  subst hk31
  rcases hcase with ⟨hpow, -⟩ | ⟨-, habsurd, -⟩
  · exact hpow
  · exact absurd habsurd (lt_irrefl 31)

/-- The nearest power of two on the whole range of weights: the loop is left by its guard
after at most 31 passes, however many more it were given, and the result is the nearest
32-bit power of two. So the mantissa is in `(3/4, 3/2]` up to the weight `3 * 2 ^ 30`, and
in `[1, 2)` above it, where the next power is no word. -/
theorem nearest_pow2_correct (weight : UInt32) (hpos : 1 ≤ weight.toNat) :
    (∃ k ≤ 31, ExitsAfter (pow2Guard weight) (fun f => f <<< 1) 1 k ∧
        ∀ rounds ≥ k, floorPow2Loop rounds weight 1 = (fun f : UInt32 => f <<< 1)^[k] 1) ∧
      NearestPow2 weight (bsaNearestPow2 weight) ∧
      (weight.toNat ≤ 3 * 2 ^ 30 →
        (3 / 4 : ℚ) < weight.toNat / (bsaNearestPow2 weight).toNat ∧
          (weight.toNat / (bsaNearestPow2 weight).toNat : ℚ) ≤ 3 / 2) ∧
      (3 * 2 ^ 30 < weight.toNat →
        (1 : ℚ) ≤ weight.toNat / (bsaNearestPow2 weight).toNat ∧
          (weight.toNat / (bsaNearestPow2 weight).toNat : ℚ) < 2) := by
  refine ⟨?_, bsaNearestPow2_nearest hpos, fun hsmall => ?_, fun hlarge => ?_⟩
  · obtain ⟨k, hk, hexit, -⟩ := floorPow2_exits hpos
    refine ⟨k, hk, hexit, fun rounds hrounds => ?_⟩
    rw [floorPow2Loop_eq_loop, hexit.loop_eq hrounds]
  · obtain ⟨k, -, hpow, hlo, hhi⟩ := bsaNearestPow2_spec hpos hsmall
    rw [← hpow] at hlo hhi
    have hp : 0 < (bsaNearestPow2 weight).toNat := by
      rw [hpow]
      positivity
    have hp' : (0 : ℚ) < (bsaNearestPow2 weight).toNat := by exact_mod_cast hp
    rw [div_lt_div_iff₀ (by norm_num) hp', div_le_div_iff₀ hp' (by norm_num)]
    refine ⟨?_, ?_⟩
    · exact_mod_cast (by omega : 3 * (bsaNearestPow2 weight).toNat < weight.toNat * 4)
    · exact_mod_cast (by omega : weight.toNat * 2 ≤ 3 * (bsaNearestPow2 weight).toNat)
  · have hlt := UInt32.toNat_lt weight
    rw [bsaNearestPow2_of_large hlarge, le_div_iff₀ (by norm_num), div_lt_iff₀ (by norm_num)]
    refine ⟨?_, ?_⟩
    · exact_mod_cast (by omega : 1 * 2 ^ 31 ≤ weight.toNat)
    · exact_mod_cast (by omega : weight.toNat < 2 * 2 ^ 31)

/-- Nice 1 is above half way from 512 to 1024. -/
theorem nearest_pow2_correct_820 : NearestPow2 820 1024 := by
  have hnear := (nearest_pow2_correct 820 (by decide)).2.1
  rwa [show bsaNearestPow2 820 = 1024 by decide] at hnear

end ApexCfs
