import ApexCfs.Lib.MinScan
import ApexCfs.Proofs.VruntimeScaling
import ApexCfs.Spec.Clti
import Mathlib.Data.Bool.AllAny
import Mathlib.Data.Nat.Dist

/-! CLTI's vruntime scaling. The class search returns the nearest representative, and the
Newton step on a representative is exact, so the scaling is the division by the nearest
class; what is lost is lost in the choice of the class. -/

namespace ApexCfs

open MinScan

/-- The representative that `clti_vruntime_delta` divides by. -/
def nearestClass (weight : UInt32) : UInt32 := cltiWeightClass.getD (cltiWeightToClass weight) 0

/-- `c` is the class nearest to a weight, and the larger one of two equally near. -/
structure NearestClass (weight c : UInt32) : Prop where
  mem : c ∈ cltiWeightClass
  least : ∀ c' ∈ cltiWeightClass, Nat.dist weight.toNat c.toNat ≤ Nat.dist weight.toNat c'.toNat
  larger : ∀ c' ∈ cltiWeightClass, c < c' →
    Nat.dist weight.toNat c.toNat < Nat.dist weight.toNat c'.toNat

theorem NearestClass.unique {weight c c' : UInt32} (h : NearestClass weight c)
    (h' : NearestClass weight c') : c' = c := by
  by_contra hne
  rcases UInt32.lt_or_lt_of_ne hne with hlt | hlt
  · exact absurd (h.least c' h'.mem) (Nat.not_le.2 (h'.larger c h.mem hlt))
  · exact absurd (h'.least c h.mem) (Nat.not_le.2 (h.larger c' h'.mem hlt))

def searchDist (weight rep : UInt32) : UInt64 :=
  if weight > rep then (weight - rep).toUInt64 else (rep - weight).toUInt64

theorem toNat_searchDist (weight rep : UInt32) :
    (searchDist weight rep).toNat = Nat.dist weight.toNat rep.toNat := by
  unfold searchDist Nat.dist
  split_ifs with h
  · have hlt := UInt32.lt_iff_toNat_lt.1 h
    rw [UInt32.toNat_toUInt64, UInt32.toNat_sub_of_le _ _ (UInt32.le_iff_toNat_le.2 hlt.le)]
    omega
  · have hle := Nat.not_lt.1 (mt UInt32.lt_iff_toNat_lt.2 h)
    rw [UInt32.toNat_toUInt64, UInt32.toNat_sub_of_le _ _ (UInt32.le_iff_toNat_le.2 hle)]
    omega

theorem cltiWeightToClass_eq_scan {weight : UInt32} (h : weight ≠ 1024) :
    (scan (fun _ : UInt32 => True) (searchDist weight) cltiWeightClass).map Prod.fst =
      some (cltiWeightToClass weight) := by
  have hzip : cltiWeightClass.tail.zipIdx 1 =
      (List.range' 1 (CLTI_TABLE_SIZE - 1)).map fun i => (cltiWeightClass.getD i 0, i) := by decide
  have hscan : scan (fun _ : UInt32 => True) (searchDist weight) cltiWeightClass = _ :=
    scan_cons_of_all (fun _ => trivial) 65536 cltiWeightClass.tail
  rw [hzip, List.foldl_map] at hscan
  rw [cltiWeightToClass, if_neg h, hscan]
  rfl

theorem class_index_lt {i j : ℕ} {c c' : UInt32} (hc : cltiWeightClass[i]? = some c)
    (hc' : cltiWeightClass[j]? = some c') (h : c < c') : j < i := by
  have hdesc : cltiWeightClass.Pairwise (· ≥ ·) := by decide
  obtain ⟨hi, rfl⟩ := List.getElem?_eq_some_iff.1 hc
  obtain ⟨hj, rfl⟩ := List.getElem?_eq_some_iff.1 hc'
  by_contra hge
  rcases Nat.lt_or_eq_of_le (Nat.not_lt.1 hge) with hlt | heq
  · exact absurd h (UInt32.not_lt.2 (List.pairwise_iff_getElem.1 hdesc i j hi hj hlt))
  · subst heq
    exact absurd h (UInt32.lt_irrefl _)

theorem get_weightToClass (weight : UInt32) :
    cltiWeightClass[cltiWeightToClass weight]? = some (nearestClass weight) := by
  have hlt : cltiWeightToClass weight < cltiWeightClass.length := by
    by_cases h : weight = 1024
    · subst h
      decide
    · obtain ⟨c, hmin⟩ := (scan_index_iff _ _).1 (cltiWeightToClass_eq_scan h)
      exact (List.getElem?_eq_some_iff.1 hmin.get).1
  rw [nearestClass, List.getD_eq_getElem?_getD, List.getElem?_eq_getElem hlt]
  rfl

theorem nearestClass_spec (weight : UInt32) : NearestClass weight (nearestClass weight) := by
  by_cases h : weight = 1024
  · subst h
    refine ⟨by decide, List.all_iff_forall_prop.1 ?_, List.all_iff_forall_prop.1 ?_⟩
    · decide
    · decide
  · obtain ⟨c, hmin⟩ := (scan_index_iff _ _).1 (cltiWeightToClass_eq_scan h)
    obtain rfl := Option.some.inj ((get_weightToClass weight).symm.trans hmin.get)
    refine ⟨List.mem_of_getElem? hmin.get, fun c' hc' => ?_, fun c' hc' hlt => ?_⟩
    · obtain ⟨j, hj⟩ := List.mem_iff_getElem?.1 hc'
      have hle := UInt64.le_iff_toNat_le.1 (hmin.least j c' hj trivial)
      rwa [toNat_searchDist, toNat_searchDist] at hle
    · obtain ⟨j, hj⟩ := List.mem_iff_getElem?.1 hc'
      have hfirst := UInt64.lt_iff_toNat_lt.1
        (hmin.first j c' (class_index_lt hmin.get hj hlt) hj trivial)
      rwa [toNat_searchDist, toNat_searchDist] at hfirst

theorem nearestClass_mono {w w' : UInt32} (h : w ≤ w') : nearestClass w ≤ nearestClass w' := by
  obtain ⟨hmem, hleast, -⟩ := nearestClass_spec w
  obtain ⟨hmem', -, hlarger⟩ := nearestClass_spec w'
  by_contra hlt
  have hnear := hleast _ hmem'
  have hfar := hlarger _ hmem (UInt32.not_le.1 hlt)
  have hlt' := UInt32.lt_iff_toNat_lt.1 (UInt32.not_le.1 hlt)
  rw [UInt32.le_iff_toNat_le] at h
  unfold Nat.dist at hnear hfar
  omega

/-- Newton's step is exact at every class, and the inverse fits 32 bits. -/
theorem class_inverse : ∀ c ∈ cltiWeightClass, 16 ≤ c.toNat ∧ c.toNat * (2 ^ 32 / c.toNat) = 2 ^ 32 ∧
    (bsaNewtonReciprocal c 1).toNat = 2 ^ 32 / c.toNat :=
  List.all_iff_forall_prop.1 (by decide)

theorem nearestClass_nice0 : nearestClass NICE_0_LOAD = 1024 := by decide

theorem toNat_cltiDelta {d : UInt64} {w : UInt32} (hd : d.toNat < 2 ^ 54) (hw : 0 < w.toNat) :
    (cltiVruntimeDelta d w).toNat = scaled d.toNat (2 ^ 32 / (nearestClass w).toNat) := by
  by_cases hne : w = NICE_0_LOAD
  · rw [hne, nearestClass_nice0]
    simp only [cltiVruntimeDelta, if_true]
    exact (scaled_nice0 d.toNat).symm
  have h0 := Word.ne_zero_of_toNat_pos hw
  obtain ⟨h16, -, hinv⟩ := class_inverse _ (nearestClass_spec w).mem
  have hlt : 2 ^ 32 / (nearestClass w).toNat < 2 ^ 32 := Nat.div_lt_self (by norm_num) (by omega)
  simp only [cltiVruntimeDelta, if_neg hne, if_neg h0]
  change (exactMulU64U32Shr d (bsaNewtonReciprocal (nearestClass w) 1).toUInt32 _).toNat = _
  rw [toNat_scale hd (hinv ▸ hlt), hinv]

theorem scaled_of_mul {c inv : ℕ} (hc : 0 < c) (h : c * inv = 2 ^ 32) (d : ℕ) :
    scaled d inv = 1024 * d / c := by
  have hnum : c * (d * inv) = 2 ^ 22 * (1024 * d) := by
    rw [mul_left_comm, h]
    ring
  rw [scaled, ← Nat.mul_div_mul_left _ _ hc, hnum, mul_comm c, Nat.mul_div_mul_left _ _ (by norm_num)]

theorem cltiDelta_eq_div {d : UInt64} {w : UInt32} (hd : d.toNat < 2 ^ 54) (hw : 0 < w.toNat) :
    (cltiVruntimeDelta d w).toNat = 1024 * d.toNat / (nearestClass w).toNat := by
  obtain ⟨h16, hmul, -⟩ := class_inverse _ (nearestClass_spec w).mem
  rw [toNat_cltiDelta hd hw, scaled_of_mul (by omega) hmul]

theorem class_mul_inverse {c : UInt32} (hc : c ∈ cltiWeightClass) :
    c.toNat * (bsaNewtonReciprocal c 1).toUInt32.toNat = 2 ^ 32 := by
  obtain ⟨h16, hmul, hinv⟩ := class_inverse c hc
  have hlt : 2 ^ 32 / c.toNat < 2 ^ 32 := Nat.div_lt_self (by norm_num) (by omega)
  rw [UInt64.toNat_toUInt32, hinv, Nat.mod_eq_of_lt hlt, hmul]

/-- CLTI's scaling is exact division by the class: there is one nearest class to every
weight, its index is what the search returns, its inverse is exact, and the scaled delta is
the floor of `1024 * d` over it, at weight 1024 as everywhere else. -/
theorem clti_scaling_divides (w : UInt32) (d : UInt64) (hw : 1 ≤ w.toNat) (hd : d.toNat < 2 ^ 54) :
    ∃ c, NearestClass w c ∧ (∀ c', NearestClass w c' → c' = c) ∧
      cltiWeightClass[cltiWeightToClass w]? = some c ∧
      c.toNat * (bsaNewtonReciprocal c 1).toUInt32.toNat = 2 ^ 32 ∧
      (cltiVruntimeDelta d w).toNat = 1024 * d.toNat / c.toNat := by
  have hnear := nearestClass_spec w
  exact ⟨nearestClass w, hnear, fun c' hc' => hnear.unique hc', get_weightToClass w,
    class_mul_inverse hnear.mem, cltiDelta_eq_div hd hw⟩

/-- Weight 640 is as far from 256 as from 1024, and is charged as the larger class. -/
theorem clti_scaling_divides_640 :
    (cltiVruntimeDelta TICK_NS 640).toNat = 1024 * TICK_NS.toNat / (1024 : UInt32).toNat := by
  obtain ⟨c, -, -, hget, -, hscaled⟩ := clti_scaling_divides 640 TICK_NS (by decide) (by decide)
  obtain rfl : c = 1024 := Option.some.inj (hget.symm.trans (by decide))
  exact hscaled

def WithinError (num den : ℕ) (exact approx : UInt64) : Prop :=
  den * (exact.toNat - approx.toNat) ≤ num * exact.toNat ∧
    den * (approx.toNat - exact.toNat) ≤ num * exact.toNat

instance (num den : ℕ) (exact approx : UInt64) : Decidable (WithinError num den exact approx) :=
  inferInstanceAs (Decidable (_ ∧ _))

/-- Every class but those of 1024 and 1991 is more than 3% away from a table weight that it
stands for, whatever the truncations of the products. -/
theorem class_far : ∀ w ∈ niceToWeight, w ≠ 1024 → w ≠ 1991 →
    1000000 * (103 * (2 ^ 32 / w.toUInt32.toNat)) + 100 * 2 ^ 22 ≤
        1000000 * (100 * (2 ^ 32 / (nearestClass w.toUInt32).toNat)) ∨
      1000000 * (100 * (2 ^ 32 / (nearestClass w.toUInt32).toNat)) + 97 * 2 ^ 22 ≤
        1000000 * (97 * (2 ^ 32 / w.toUInt32.toNat)) :=
  forall_niceToWeight (by decide)

/-- Over the table and all deltas of a tick or more CLTI keeps its documented bound of 3%
at weights 1024 and 1991 only: no other weight is that near to a class. -/
theorem clti_scaling_within_iff (w d : UInt64) (hw : w ∈ niceToWeight) (hlo : TICK_NS ≤ d)
    (hhi : d ≤ UINT32_MAX) :
    WithinError 3 100 (exactCalcDeltaFair d w.toUInt32) (cltiVruntimeDelta d w.toUInt32) ↔
      w = 1024 ∨ w = 1991 := by
  obtain ⟨h2, -⟩ := table_range w hw
  obtain ⟨hd', hd⟩ := delta_range hlo hhi
  rw [WithinError, toNat_exactDelta hd h2, toNat_cltiDelta (hd.trans (by norm_num)) (by omega)]
  by_cases h1024 : w = 1024
  · subst h1024
    have hclass : 2 ^ 32 / (nearestClass (1024 : UInt64).toUInt32).toNat =
      2 ^ 32 / (1024 : UInt64).toUInt32.toNat := by decide
    rw [hclass, Nat.sub_self]
    exact iff_of_true ⟨Nat.zero_le _, Nat.zero_le _⟩ (Or.inl rfl)
  by_cases h1991 : w = 1991
  · subst h1991
    have hle : 2 ^ 32 / (nearestClass (1991 : UInt64).toUInt32).toNat ≤
      2 ^ 32 / (1991 : UInt64).toUInt32.toNat := by decide
    refine iff_of_true ⟨scaled_bound (by norm_num) hd' (by decide), ?_⟩ (Or.inr rfl)
    rw [Nat.sub_eq_zero_of_le (scaled_mono hle)]
    exact Nat.zero_le _
  · refine iff_of_false ?_ (not_or.2 ⟨h1024, h1991⟩)
    rintro ⟨hbelow, habove⟩
    rcases class_far w hw h1024 h1991 with h | h
    · have hfar := scaled_separated (by norm_num) hd' h
      omega
    · have hfar := scaled_separated (by norm_num) hd' h
      omega

theorem clti_scaling_within_iff_1991 :
    WithinError 3 100 (exactCalcDeltaFair TICK_NS (1991 : UInt64).toUInt32)
      (cltiVruntimeDelta TICK_NS (1991 : UInt64).toUInt32) :=
  (clti_scaling_within_iff 1991 TICK_NS (by decide) (by decide) (by decide)).2 (Or.inr rfl)

/-- One tick at weight 820, nice 1, is charged 1000000 instead of 1248780. -/
theorem clti_bound_exceeded :
    ¬∀ w d : UInt64, w ∈ niceToWeight → TICK_NS ≤ d → d ≤ UINT32_MAX →
      WithinError 3 100 (exactCalcDeltaFair d w.toUInt32) (cltiVruntimeDelta d w.toUInt32) := by
  intro h
  exact absurd (h 820 TICK_NS (by decide) (by decide) (by decide)) (by decide)

end ApexCfs
