import Mathlib.Algebra.BigOperators.Group.Finset.Basic
import Mathlib.Algebra.Order.BigOperators.Group.Finset
import Mathlib.Algebra.Order.Field.Basic
import Mathlib.Tactic

/-! Apportionment by clocks. Parties of given weights are served so that their
clocks, the services divided by the weights up to a factor, stay close together;
then the services are close to proportional to the weights. -/

namespace Apportion

variable {ι K : Type*} [Field K] [LinearOrder K] [IsStrictOrderedRing K]

/-- Clocks `v` within `D` of their base `m`, each a count of services `N` times a
stride between `lo / w` and `hi / w`. -/
structure Clocks (s : Finset ι) (w N v : ι → K) (lo hi m D : K) : Prop where
  base : ∀ i ∈ s, m ≤ v i
  spread : ∀ i ∈ s, v i ≤ m + D
  stride_ge : ∀ i ∈ s, N i * lo ≤ v i * w i
  stride_le : ∀ i ∈ s, v i * w i ≤ N i * hi

variable {s : Finset ι} {w N v : ι → K} {lo hi m D : K}

theorem Clocks.service_le (h : Clocks s w N v lo hi m D) (hw : ∀ i ∈ s, 0 < w i) (hlo : 0 < lo)
    {i : ι} (hi' : i ∈ s) : N i ≤ (m + D) * w i / lo := by
  rw [le_div_iff₀ hlo]
  exact (h.stride_ge i hi').trans (mul_le_mul_of_nonneg_right (h.spread i hi') (hw i hi').le)

theorem Clocks.le_service (h : Clocks s w N v lo hi m D) (hw : ∀ i ∈ s, 0 < w i) (hhi : 0 < hi)
    {i : ι} (hi' : i ∈ s) : m * w i / hi ≤ N i := by
  rw [div_le_iff₀ hhi]
  exact (mul_le_mul_of_nonneg_right (h.base i hi') (hw i hi').le).trans (h.stride_le i hi')

theorem Clocks.total_le (h : Clocks s w N v lo hi m D) (hw : ∀ i ∈ s, 0 < w i) (hlo : 0 < lo) :
    ∑ j ∈ s, N j ≤ (m + D) * (∑ j ∈ s, w j) / lo := by
  rw [Finset.mul_sum, Finset.sum_div]
  exact Finset.sum_le_sum fun j hj => h.service_le hw hlo hj

theorem Clocks.le_total (h : Clocks s w N v lo hi m D) (hw : ∀ i ∈ s, 0 < w i) (hhi : 0 < hi) :
    m * (∑ j ∈ s, w j) / hi ≤ ∑ j ∈ s, N j := by
  rw [Finset.mul_sum, Finset.sum_div]
  exact Finset.sum_le_sum fun j hj => h.le_service hw hhi hj

/-- A service is the weighted part of the total up to the slack of the strides on either
side, and up to what the spread of the clocks is worth to a party of its weight. -/
theorem Clocks.service_near (h : Clocks s w N v lo hi m D) (hw : ∀ i ∈ s, 0 < w i) (hlo : 0 < lo)
    (hhi : 0 < hi) {i : ι} (hi' : i ∈ s) :
    (∑ j ∈ s, N j) * (w i / ∑ j ∈ s, w j) * (lo / hi) - w i * D / hi ≤ N i ∧
      N i ≤ (∑ j ∈ s, N j) * (w i / ∑ j ∈ s, w j) * (hi / lo) + w i * D / lo := by
  have hW : 0 < ∑ j ∈ s, w j := Finset.sum_pos hw ⟨i, hi'⟩
  have hwi := hw i hi'
  refine ⟨?_, ?_⟩
  · have hm : (∑ j ∈ s, N j) * lo / (∑ j ∈ s, w j) ≤ m + D := by
      rw [div_le_iff₀ hW, ← le_div_iff₀ hlo]
      exact h.total_le hw hlo
    calc (∑ j ∈ s, N j) * (w i / ∑ j ∈ s, w j) * (lo / hi) - w i * D / hi
        = ((∑ j ∈ s, N j) * lo / (∑ j ∈ s, w j) - D) * w i / hi := by ring
      _ ≤ m * w i / hi := by
        gcongr
        linarith
      _ ≤ N i := h.le_service hw hhi hi'
  · have hm : m ≤ (∑ j ∈ s, N j) * hi / (∑ j ∈ s, w j) := by
      rw [le_div_iff₀ hW, ← div_le_iff₀ hhi]
      exact h.le_total hw hhi
    calc N i ≤ (m + D) * w i / lo := h.service_le hw hlo hi'
      _ ≤ ((∑ j ∈ s, N j) * hi / (∑ j ∈ s, w j) + D) * w i / lo := by gcongr
      _ = (∑ j ∈ s, N j) * (w i / ∑ j ∈ s, w j) * (hi / lo) + w i * D / lo := by ring

/-- As parts of the total, where the spread is one stride of the least weight. -/
theorem Clocks.share_near {wmin : K} (h : Clocks s w N v lo hi m (hi / wmin))
    (hw : ∀ i ∈ s, 0 < w i) (hlo : 0 < lo) (hhi : 0 < hi) (hmin : 0 < wmin)
    (hT : 0 < ∑ j ∈ s, N j) {i : ι} (hi' : i ∈ s) :
    (w i / ∑ j ∈ s, w j) * (lo / hi) - w i / (wmin * ∑ j ∈ s, N j) ≤ N i / ∑ j ∈ s, N j ∧
      N i / ∑ j ∈ s, N j ≤ hi / lo * (w i / ∑ j ∈ s, w j + w i / (wmin * ∑ j ∈ s, N j)) := by
  obtain ⟨hge, hle⟩ := h.service_near hw hlo hhi hi'
  generalize ∑ j ∈ s, N j = T at hge hle hT ⊢
  generalize w i / ∑ j ∈ s, w j = x at hge hle ⊢
  refine ⟨?_, ?_⟩
  · calc x * (lo / hi) - w i / (wmin * T) = (T * x * (lo / hi) - w i * (hi / wmin) / hi) / T := by
          field_simp
      _ ≤ N i / T := div_le_div_of_nonneg_right hge hT.le
  · calc N i / T ≤ (T * x * (hi / lo) + w i * (hi / wmin) / lo) / T :=
          div_le_div_of_nonneg_right hle hT.le
      _ = hi / lo * (x + w i / (wmin * T)) := by field_simp

end Apportion
