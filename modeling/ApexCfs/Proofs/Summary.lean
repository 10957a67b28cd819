import ApexCfs.Lib.Extremum
import ApexCfs.Lib.ListLoop
import ApexCfs.Proofs.Metrics
import ApexCfs.Proofs.Unblocked
import ApexCfs.Spec.Experiments

/-! The buffer of an experiment and the loops over it. The initial contents of the
buffer are overwritten before anything reads them, and the accumulators are sums
and extrema of the recorded columns. -/

namespace ApexCfs

open Idealised Extremum ListLoop

theorem foldl_summary (es : List Metrics) (acc : SummaryAcc) :
    es.foldl SummaryAcc.step acc =
      { avgJain := (es.map Metrics.jainIndex).foldl (· + ·) acc.avgJain
        minJain := (es.map Metrics.jainIndex).foldl (fun best j => if j < best then j else best)
          acc.minJain
        overallMaxError := runningMax acc.overallMaxError (es.map Metrics.maxErrorPct)
        overallAvgError := acc.overallAvgError + (es.map Metrics.avgErrorPct).sum
        totalOpsSaved := (es.map Metrics.opsSaved).foldl (· + ·) acc.totalOpsSaved } := by
  induction es generalizing acc with
  | nil => simp [runningMax]
  | cons e es ih =>
    rw [List.foldl_cons, ih]
    simp only [SummaryAcc.step, List.map_cons, List.foldl_cons, List.sum_cons, add_assoc, runningMax]

theorem foldl_add_fin (qs : List ℚ) (a : ℚ) :
    (qs.map Double.fin).foldl (· + ·) (.fin a) = .fin (a + qs.sum) := by
  induction qs generalizing a with
  | nil => simp
  | cons q qs ih =>
    rw [List.map_cons, List.foldl_cons, Double.fin_add_fin, ih, List.sum_cons, add_assoc]

theorem foldl_min_fin (qs : List ℚ) (a : ℚ) :
    (qs.map Double.fin).foldl (fun best j => if j < best then j else best) (.fin a) =
      .fin (runningMin a qs) := by
  induction qs generalizing a with
  | nil => rfl
  | cons q qs ih =>
    have hmin : (if Double.fin q < .fin a then Double.fin q else .fin a) = .fin (min q a) := by
      rw [min_def_lt]
      by_cases h : q < a
      · rw [if_pos h, if_pos ((Double.fin_lt_fin q a).mpr h)]
      · rw [if_neg h, if_neg (mt (Double.fin_lt_fin q a).mp h)]
    rw [List.map_cons, List.foldl_cons, hmin, ih, runningMin_cons]

theorem toNat_foldl_add (xs : List UInt64) (a : UInt64)
    (h : a.toNat + (xs.map UInt64.toNat).sum < 2 ^ 64) :
    (xs.foldl (· + ·) a).toNat = a.toNat + (xs.map UInt64.toNat).sum := by
  induction xs generalizing a with
  | nil => simp
  | cons x xs ih =>
    rw [List.map_cons, List.sum_cons] at h ⊢
    have hadd : (a + x).toNat = a.toNat + x.toNat := Word.toNat_add_of_lt (by omega)
    rw [List.foldl_cons, ih _ (by omega), hadd, Nat.add_assoc]

theorem length_foldl {α β : Type*} {f : List α → β → List α}
    (h : ∀ xs b, (f xs b).length = xs.length) (bs : List β) (xs : List α) :
    (bs.foldl f xs).length = xs.length := by
  induction bs generalizing xs with
  | nil => rfl
  | cons b bs ih => rw [List.foldl_cons, ih, h]

theorem metricsInit_length (buf : List Metrics) (n : ℤ) :
    (metricsInit buf n).length = buf.length := by
  unfold metricsInit
  split_ifs
  · rfl
  · rw [length_foldl fun _ _ => List.length_modify .., length_foldl fun _ _ => List.length_set ..]
  · rw [length_foldl fun _ _ => List.length_modify .., length_foldl fun _ _ => List.length_set ..]

def Pair.entry (p : Pair) : Metrics :=
  metricsRecord Metrics.zeroed (some p.approxRq) (some p.exactRq)

theorem Pair.record_eq (p : Pair) (mbuf : List Metrics) (i : ℕ) :
    p.record mbuf i = mbuf.modify i fun _ => p.entry := rfl

theorem summaryAcc_append {es rest : List Metrics} {n : ℕ} (h : es.length = n) :
    summaryAcc (es ++ rest) n = es.foldl SummaryAcc.step SummaryAcc.init := by
  rw [summaryAcc, List.take_left' h]

/-- The two runqueues of an experiment whose tasks never block, after `k` passes. -/
def pairRun (specs : List (ℤ × ℤ)) (logic : ℤ) (k : ℕ) : Pair :=
  { exactRq := tickRun .exact specs 0 k
    approxRq := tickRun (logicMode logic) specs logic k }

theorem pairRun_succ (specs : List (ℤ × ℤ)) (logic : ℤ) (k : ℕ) :
    pairRun specs logic (k + 1) = (pairRun specs logic k).tick logic := by
  rw [pairRun, tickRun_succ, tickRun_succ]
  rfl

/-- Every other logic runs the exact scheduler, under its label. -/
theorem logicMode_baseline {logic : ℤ} (h : logic ≠ 1 ∧ logic ≠ 2 ∧ logic ≠ 3) :
    logicMode logic = .exact := by
  rw [logicMode, if_neg h.1, if_neg h.2.1, if_neg h.2.2]

theorem freshRq_baseline {logic : ℤ} (h : logic ≠ 1 ∧ logic ≠ 2 ∧ logic ≠ 3)
    (specs : List (ℤ × ℤ)) : freshRq specs logic = freshRq specs 0 := by
  have hlabel : (if logic < 0 ∨ logic > 3 then 0 else logic) = 0 := by
    split_ifs with hrange
    · rfl
    · omega
  rw [freshRq, rqInit, hlabel]
  rfl

theorem foldl_pairTick (specs : List (ℤ × ℤ)) (logic : ℤ) (k : ℕ) :
    (List.range k).foldl (fun p _ => Pair.tick logic p) (Pair.init specs logic) =
      pairRun specs logic k := by
  induction k with
  | zero => rfl
  | succ k ih =>
    rw [List.range_succ, List.foldl_append, ih, List.foldl_cons, List.foldl_nil, pairRun_succ]

def stateVisits (specs : List (ℤ × ℤ)) (logic : ℤ) (ticks : ℕ) (state : ℤ) : ℕ :=
  (List.range ticks).countP fun i => (pairRun specs logic (i + 1)).approxRq.apafState = state

theorem stateVisits_succ (specs : List (ℤ × ℤ)) (logic : ℤ) (k : ℕ) (state : ℤ) :
    stateVisits specs logic (k + 1) state = stateVisits specs logic k state +
      if (pairRun specs logic (k + 1)).approxRq.apafState = state then 1 else 0 := by
  rw [stateVisits, countP_range_succ]
  rfl

theorem errorAcc_self {approxRq exactRq : CfsRq} (h : approxRq.tasks = exactRq.tasks) :
    (errorAcc approxRq exactRq).maxError = 0 ∧ (errorAcc approxRq exactRq).sumError = 0 := by
  have hloop : ∀ (tasks : List CfsTask) (acc : ErrorAcc), acc.maxError = 0 → acc.sumError = 0 →
      ((tasks.zip tasks).foldl ErrorAcc.step acc).maxError = 0 ∧
        ((tasks.zip tasks).foldl ErrorAcc.step acc).sumError = 0 := by
    intro tasks
    induction tasks with
    | nil => exact fun acc hmax hsum => ⟨hmax, hsum⟩
    | cons t tasks ih =>
      intro acc hmax hsum
      rw [List.zip_cons_cons, List.foldl_cons]
      have herr : loadError t.loadAvg t.loadAvg = 0 := by simp [loadError]
      refine ih _ ?_ ?_
      · unfold ErrorAcc.step
        simp only [herr, hmax, gt_iff_lt, lt_irrefl, if_false]
        split_ifs <;> first | rfl | exact hmax
      · unfold ErrorAcc.step
        simp only [herr, hsum, add_zero]
        split_ifs <;> first | rfl | exact hsum
  rw [errorAcc, h]
  exact hloop exactRq.tasks _ rfl rfl

theorem Pair.entry_self {p : Pair} (h : p.approxRq = p.exactRq) :
    p.entry.maxErrorPct = 0 ∧ p.entry.avgErrorPct = 0 := by
  obtain ⟨hmax, hsum⟩ := errorAcc_self (congrArg CfsRq.tasks h)
  refine ⟨hmax, ?_⟩
  change (if (errorAcc p.approxRq p.exactRq).count > 0 then _ else (0 : ℚ)) = 0
  rw [hsum, zero_div, ite_self]

end ApexCfs
