import ApexCfs.Spec.Metrics

/-! The recorded errors. The mean never exceeds the maximum, and a maximum of zero means
that no task with an exact load differs; a task whose exact load is zero is passed over,
whatever the approximate scheduler holds for it. -/

namespace ApexCfs

open Idealised

theorem loadError_nonneg (approxLoad exactLoad : UInt64) : 0 ≤ loadError approxLoad exactLoad := by
  unfold loadError
  positivity

theorem loadError_eq_zero_iff {approxLoad exactLoad : UInt64} (h : exactLoad > 0) :
    loadError approxLoad exactLoad = 0 ↔ approxLoad = exactLoad := by
  have hpos : (exactLoad.toNat : ℚ) ≠ 0 := by
    have hnat : 0 < exactLoad.toNat := UInt64.lt_iff_toNat_lt.1 h
    exact_mod_cast hnat.ne'
  rw [loadError, mul_eq_zero, div_eq_zero_iff, abs_eq_zero, sub_eq_zero, Nat.cast_inj,
    UInt64.toNat_inj]
  simp [hpos]

structure ErrorAcc.Sound (seen : List (CfsTask × CfsTask)) (acc : ErrorAcc) : Prop where
  nonneg : 0 ≤ acc.maxError
  sum_le : acc.sumError ≤ acc.count * acc.maxError
  zero_iff : acc.maxError = 0 ↔ ∀ p ∈ seen, p.2.loadAvg > 0 → p.1.loadAvg = p.2.loadAvg

theorem ErrorAcc.Sound.step {seen : List (CfsTask × CfsTask)} {acc : ErrorAcc} (h : acc.Sound seen)
    (p : CfsTask × CfsTask) : (acc.step p).Sound (seen ++ [p]) := by
  have hsplit : (∀ q ∈ seen ++ [p], q.2.loadAvg > 0 → q.1.loadAvg = q.2.loadAvg) ↔
      acc.maxError = 0 ∧ (p.2.loadAvg > 0 → p.1.loadAvg = p.2.loadAvg) := by
    rw [h.zero_iff]
    simp only [List.mem_append, List.mem_singleton, or_imp, forall_and, forall_eq]
  unfold ErrorAcc.step
  by_cases hload : p.2.loadAvg > 0
  · have herr := loadError_nonneg p.1.loadAvg p.2.loadAvg
    have hzero : loadError p.1.loadAvg p.2.loadAvg = 0 ↔ p.1.loadAvg = p.2.loadAvg :=
      loadError_eq_zero_iff hload
    have hcount : (0 : ℚ) ≤ acc.count := acc.count.cast_nonneg
    have hsum := h.sum_le
    have hmax := h.nonneg
    simp only [hload, if_true]
    generalize loadError p.1.loadAvg p.2.loadAvg = err at herr hzero ⊢
    split_ifs with hlt
    · refine ⟨herr, ?_, ?_⟩
      · push_cast
        nlinarith [mul_le_mul_of_nonneg_left hlt.le hcount]
      · rw [hsplit]
        refine ⟨fun h0 : err = 0 => ?_, fun h0 => hzero.2 (h0.2 hload)⟩
        rw [h0] at hlt
        exact absurd hmax (not_le.2 hlt)
    · refine ⟨hmax, ?_, ?_⟩
      · push_cast
        linarith
      · rw [hsplit]
        refine ⟨fun h0 : acc.maxError = 0 => ⟨h0, fun _ => hzero.1 ?_⟩, fun h0 => h0.1⟩
        rw [h0] at hlt
        exact le_antisymm (not_lt.1 hlt) herr
  · simp only [hload, if_false]
    refine ⟨h.nonneg, h.sum_le, ?_⟩
    rw [hsplit]
    exact ⟨fun h0 => ⟨h0, fun hp => absurd hp hload⟩, fun h0 => h0.1⟩

theorem errorAcc_sound (approxRq exactRq : CfsRq) :
    (errorAcc approxRq exactRq).Sound (approxRq.tasks.zip exactRq.tasks) := by
  unfold errorAcc
  induction approxRq.tasks.zip exactRq.tasks using List.reverseRecOn with
  | nil => exact ⟨le_rfl, by simp, by simp⟩
  | append_singleton seen p ih =>
    rw [List.foldl_append]
    exact ih.step p

theorem avg_le_max {seen : List (CfsTask × CfsTask)} {acc : ErrorAcc} (h : acc.Sound seen) :
    (if acc.count > 0 then acc.sumError / acc.count else 0) ≤ acc.maxError := by
  split_ifs with hcount
  · rw [div_le_iff₀ (by exact_mod_cast hcount), mul_comm]
    exact h.sum_le
  · exact h.nonneg

/-- The recorded mean error is at most the maximum, and the maximum is zero if and only if
every task with a nonzero exact load has the same load in both runqueues. -/
theorem recorded_error_zero_iff (entry : Metrics) (approxRq exactRq : CfsRq) :
    (metricsRecord entry (some approxRq) (some exactRq)).avgErrorPct ≤
        (metricsRecord entry (some approxRq) (some exactRq)).maxErrorPct ∧
      ((metricsRecord entry (some approxRq) (some exactRq)).maxErrorPct = 0 ↔
        ∀ (i : ℕ) (t u : CfsTask), approxRq.tasks[i]? = some t → exactRq.tasks[i]? = some u →
          u.loadAvg > 0 → t.loadAvg = u.loadAvg) := by
  have hsound := errorAcc_sound approxRq exactRq
  refine ⟨avg_le_max hsound, hsound.zero_iff.trans ⟨fun h i t u ht hu => ?_, fun h p hp => ?_⟩⟩
  · refine h (t, u) (List.mem_iff_getElem?.2 ⟨i, ?_⟩)
    rw [List.getElem?_zip_eq_some]
    exact ⟨ht, hu⟩
  · obtain ⟨i, hi⟩ := List.mem_iff_getElem?.1 hp
    obtain ⟨ht, hu⟩ := List.getElem?_zip_eq_some.1 hi
    exact h i p.1 p.2 ht hu

/-- A load of 57 that the approximate scheduler still holds for a task of exact load zero
is recorded as no error. -/
theorem zero_error_hides_load :
    ¬∀ (entry : Metrics) (approxRq exactRq : CfsRq),
      approxRq.tasks.length = exactRq.tasks.length →
        (metricsRecord entry (some approxRq) (some exactRq)).avgErrorPct ≤
            (metricsRecord entry (some approxRq) (some exactRq)).maxErrorPct ∧
          ((metricsRecord entry (some approxRq) (some exactRq)).maxErrorPct = 0 ↔
            ∀ (i : ℕ) (t u : CfsTask), approxRq.tasks[i]? = some t → exactRq.tasks[i]? = some u →
              t.loadAvg = u.loadAvg) := by
  intro h
  have hiff := (h ⟨0, 0, .fin 1, 0, 0, 0, 0⟩ (rqInit [{ taskCreate 0 (-20) with loadAvg := 57 }] 1)
    (rqInit [taskCreate 0 (-20)] 0) rfl).2
  exact absurd (hiff.1 (by decide) 0 { taskCreate 0 (-20) with loadAvg := 57 } (taskCreate 0 (-20))
    rfl rfl) (by decide)

end ApexCfs
