import ApexCfs.Proofs.EqualWeights
import ApexCfs.Proofs.MixedLoad
import ApexCfs.Proofs.Recorded

/-! The baseline and the operations saved. Under any logic but the three
approximate ones an experiment compares the exact scheduler with itself; under
those, experiment 1 counts operations by the states it passed through. -/

namespace ApexCfs

open Idealised Extremum ListLoop Machine

def exp2PairStep (logic : ℤ) (p : Pair) (i : ℕ) : Pair :=
  let p := (p.setRunnable INTERACTIVE
    (if i % (INTERACTIVE_ON + INTERACTIVE_OFF) < INTERACTIVE_ON then 1 else 0)).tick logic
  { exactRq := rqCountRunning p.exactRq, approxRq := rqCountRunning p.approxRq }

theorem exp2Wait_mbuf (s : Exp2State) : (exp2Wait s).mbuf = s.mbuf := by
  simp only [exp2Wait]
  split_ifs <;> rfl

theorem exp2Switch_mbuf (s : Exp2State) (i : ℕ) : (exp2Switch s i).mbuf = s.mbuf := by
  simp only [exp2Switch]
  split_ifs <;> rfl

def exp2Entries (logic : ℤ) (ticks : ℕ) : List Metrics :=
  (List.range ticks).map fun i => (mixedPair logic (i + 1)).entry

theorem exp2_sums (logic : ℤ) {ticks : ℕ} {mbuf : List Metrics} (hroom : ticks ≤ mbuf.length) :
    summaryAcc (exp2Loop logic ticks mbuf).mbuf ticks =
      (exp2Entries logic ticks).foldl SummaryAcc.step SummaryAcc.init := by
  have hst : ∀ (s : Exp2State) (i : ℕ), (exp2Step logic s i).pair = exp2PairStep logic s.pair i := by
    intro s i
    simp only [exp2Step, exp2Wait_pair, exp2Switch_pair]
    rfl
  have hbuf : ∀ (s : Exp2State) (i : ℕ), (exp2Step logic s i).mbuf = s.mbuf.modify i fun _ =>
      ((s.pair.setRunnable INTERACTIVE
        (if i % (INTERACTIVE_ON + INTERACTIVE_OFF) < INTERACTIVE_ON then 1 else 0)).tick logic).entry := by
    intro s i
    simp only [exp2Step, exp2Wait_pair, exp2Wait_mbuf, exp2Switch_pair, exp2Switch_mbuf,
      Pair.record_eq]
  have h := foldl_record (g := fun (p : Pair) i => ((p.setRunnable INTERACTIVE
      (if i % (INTERACTIVE_ON + INTERACTIVE_OFF) < INTERACTIVE_ON then 1 else 0)).tick logic).entry)
    hst hbuf (.init logic (metricsInit mbuf ticks)) (k := ticks)
    (by rw [Exp2State.init, metricsInit_length]; exact hroom)
  have hentries : (List.range ticks).map (fun i => (((List.range i).foldl (exp2PairStep logic)
      (Exp2State.init logic (metricsInit mbuf ticks)).pair).setRunnable INTERACTIVE
      (if i % (INTERACTIVE_ON + INTERACTIVE_OFF) < INTERACTIVE_ON then 1 else 0)).tick logic |>.entry) =
      exp2Entries logic ticks := by
    refine List.map_congr_left fun i _ => ?_
    rw [← foldl_project hst, mixedPair_succ]
    congr 3
    exact exp2Run_pair logic _ i
  rw [exp2Loop, h, hentries]
  exact summaryAcc_append (by simp [exp2Entries])

def Metrics.Clean (e : Metrics) : Prop := e.maxErrorPct = 0 ∧ e.avgErrorPct = 0 ∧ e.opsSaved = 0

theorem foldl_clean {es : List Metrics} (h : ∀ e ∈ es, e.Clean) {acc : SummaryAcc}
    (hacc : acc.overallMaxError = 0 ∧ acc.overallAvgError = 0 ∧ acc.totalOpsSaved = 0) :
    (es.foldl SummaryAcc.step acc).overallMaxError = 0 ∧
      (es.foldl SummaryAcc.step acc).overallAvgError = 0 ∧
      (es.foldl SummaryAcc.step acc).totalOpsSaved = 0 := by
  induction es generalizing acc with
  | nil => exact hacc
  | cons e es ih =>
    obtain ⟨hm, ha, ho⟩ := h e (List.mem_cons_self ..)
    refine ih (fun e he => h e (List.mem_cons_of_mem _ he)) ?_
    simp only [SummaryAcc.step, hm, ha, ho, hacc]
    exact ⟨if_neg (lt_irrefl _), add_zero 0, rfl⟩

theorem Pair.clean_entry {p : Pair} (h : p.approxRq = p.exactRq) (hlabel : p.approxRq.approxMode = 0) :
    p.entry.Clean := by
  obtain ⟨hmax, havg⟩ := p.entry_self h
  refine ⟨hmax, havg, ?_⟩
  change opsSaved p.approxRq = 0
  simp [opsSaved, hlabel]

section Baseline

variable {logic : ℤ} (hl : logic ≠ 1 ∧ logic ≠ 2 ∧ logic ≠ 3)

include hl

theorem pairRun_clean (specs : List (ℤ × ℤ)) (k : ℕ) : (pairRun specs logic k).entry.Clean := by
  have hsame : tickRun (logicMode logic) specs logic k = tickRun .exact specs 0 k := by
    rw [logicMode_baseline hl, tickRun, freshRq_baseline hl]
    rfl
  refine Pair.clean_entry hsame ?_
  change (tickRun (logicMode logic) specs logic k).approxMode = 0
  rw [hsame, tickRun, runOps_approxMode]
  rfl

theorem mixedPair_clean (k : ℕ) : (mixedPair logic k).entry.Clean := by
  have hsame : mixedRun (logicMode logic) logic k = mixedRun .exact 0 k := by
    rw [logicMode_baseline hl, mixedRun, freshRq_baseline hl]
    rfl
  refine Pair.clean_entry hsame ?_
  change (mixedRun (logicMode logic) logic k).approxMode = 0
  rw [hsame, mixedRun, runOps_approxMode]
  rfl

end Baseline

/-- Under a logic that is none of the approximate ones both experiments report no
error and no saved operation. Without a tick the mean error would be `0.0 / 0.0`. -/
theorem baseline_reports_nothing (logic : ℤ) (n ticks : ℕ) (mbuf : List Metrics)
    (hl : logic ≠ 1 ∧ logic ≠ 2 ∧ logic ≠ 3) (hticks : 0 < ticks)
    (hroom : ticks ≤ mbuf.length) :
    ((runExperiment n logic ticks mbuf).maxErrorPct = 0 ∧
      (runExperiment n logic ticks mbuf).avgErrorPct = .fin 0 ∧
      (runExperiment n logic ticks mbuf).totalOpsSaved = 0) ∧
    (runExp2 logic ticks mbuf).maxErrorPct = 0 ∧ (runExp2 logic ticks mbuf).avgErrorPct = .fin 0 ∧
      (runExp2 logic ticks mbuf).totalOpsSaved = 0 := by
  have hinit : SummaryAcc.init.overallMaxError = 0 ∧ SummaryAcc.init.overallAvgError = 0 ∧
      SummaryAcc.init.totalOpsSaved = 0 := ⟨rfl, rfl, rfl⟩
  have h1 : ∀ e ∈ exp1Entries n logic ticks, e.Clean := by
    intro e he
    obtain ⟨i, -, rfl⟩ := List.mem_map.mp he
    exact pairRun_clean hl _ _
  have h2 : ∀ e ∈ exp2Entries logic ticks, e.Clean := by
    intro e he
    obtain ⟨i, -, rfl⟩ := List.mem_map.mp he
    exact mixedPair_clean hl _
  obtain ⟨hm1, ha1, ho1⟩ := foldl_clean h1 hinit
  obtain ⟨hm2, ha2, ho2⟩ := foldl_clean h2 hinit
  rw [← exp1_sums n logic hroom] at hm1 ha1 ho1
  rw [← exp2_sums logic hroom] at hm2 ha2 ho2
  refine ⟨⟨hm1, ?_, ho1⟩, hm2, ?_, ho2⟩
  · change (Double.fin (summaryAcc (exp1Loop n logic ticks mbuf).2 ticks).overallAvgError).divNat
      ticks = _
    rw [ha1, Double.divNat_fin 0 hticks.ne', zero_div]
  · change (Double.fin (summaryAcc (exp2Loop logic ticks mbuf).mbuf ticks).overallAvgError).divNat
      ticks = _
    rw [ha2, Double.divNat_fin 0 hticks.ne', zero_div]

theorem baseline_reports_nothing_exact :
    ((runExperiment 10 0 5 (List.replicate 5 Metrics.zeroed)).maxErrorPct = 0 ∧
      (runExperiment 10 0 5 (List.replicate 5 Metrics.zeroed)).avgErrorPct = .fin 0 ∧
      (runExperiment 10 0 5 (List.replicate 5 Metrics.zeroed)).totalOpsSaved = 0) ∧
    (runExp2 0 5 (List.replicate 5 Metrics.zeroed)).maxErrorPct = 0 ∧
      (runExp2 0 5 (List.replicate 5 Metrics.zeroed)).avgErrorPct = .fin 0 ∧
      (runExp2 0 5 (List.replicate 5 Metrics.zeroed)).totalOpsSaved = 0 :=
  baseline_reports_nothing 0 10 5 _ (by decide) (by decide) (by decide)

theorem tickRun_nrRunning (m : Mode) {specs : List (ℤ × ℤ)} (mode : ℤ) (hn : 0 < specs.length)
    (k : ℕ) : (tickRun m specs mode (k + 1)).nrRunning = specs.length := by
  have hlen := tickRun_length m specs mode (k + 1)
  have hlen' := tickRun_length m specs mode k
  have hall := unblocked_tickRun m specs mode (k + 1)
  obtain ⟨i, hi⟩ : ∃ i, exactPickNextTask (tickRun m specs mode k) = some i :=
    Option.ne_none_iff_exists'.mp ((busy_tickRun m mode hn (k + 1) (List.replicate k (.tick m)) (.tick m) []
      (by rw [List.replicate_succ'])).2 rfl)
  have hcount : rqCountRunning (tickRun m specs mode (k + 1)) = tickRun m specs mode (k + 1) := by
    rw [tickRun_succ, rqCountRunning_of_pick m hi]
  rw [← hcount, rqCountRunning, if_neg (by rw [hlen]; exact hn.ne'), ← hlen]
  change countRunning _ = _
  rw [countRunning_eq, List.filter_eq_self.mpr fun t ht => decide_eq_true (hall t ht)]

/-- How many operations `metrics_record` credits a task with. -/
def opsFactor (logic state : ℤ) : ℕ :=
  if logic = 1 then 1
  else if logic = 2 then 4
  else if logic = 3 then if state = APAF_TIGHT then 2 else if state = APAF_MEDIUM then 3 else 4
  else 0

theorem toNat_opsSaved {rq : CfsRq} {n : ℕ} (hrun : rq.nrRunning = n) (hfit : 4 * n < 2 ^ 64) :
    (opsSaved rq).toNat = n * opsFactor rq.approxMode rq.apafState := by
  have hn : rq.nrRunningU64.toNat = n := by
    rw [CfsRq.nrRunningU64, hrun, UInt64.ofInt, UInt64.toNat_ofNat']
    omega
  have hmul : ∀ c : UInt64, c.toNat ≤ 4 → (rq.nrRunningU64 * c).toNat = n * c.toNat := by
    intro c hc
    rw [UInt64.toNat_mul, hn]
    exact Nat.mod_eq_of_lt (by nlinarith)
  simp only [opsSaved, opsFactor]
  split_ifs
  · rw [hn, mul_one]
  · exact hmul 4 (by decide)
  · exact hmul 2 (by decide)
  · exact hmul 3 (by decide)
  · exact hmul 4 (by decide)
  · rfl

theorem pairRun_opsSaved (n : ℕ) {logic : ℤ} (hlogic : logic = 1 ∨ logic = 2 ∨ logic = 3)
    (hn : 0 < n) (hfit : 4 * n < 2 ^ 64) (k : ℕ) :
    ((pairRun (equalTasks n) logic (k + 1)).entry).opsSaved.toNat =
      n * opsFactor logic (pairRun (equalTasks n) logic (k + 1)).approxRq.apafState := by
  have hlen : 0 < (equalTasks n).length := by rw [equalTasks_length]; exact hn
  have hrun := tickRun_nrRunning (logicMode logic) logic hlen k
  have hlabel : (pairRun (equalTasks n) logic (k + 1)).approxRq.approxMode = logic := by
    refine (runOps_approxMode _ _).trans ?_
    rcases hlogic with rfl | rfl | rfl <;> rfl
  rw [equalTasks_length] at hrun
  refine (toNat_opsSaved hrun hfit).trans ?_
  rw [show (tickRun (logicMode logic) (equalTasks n) logic (k + 1)).approxMode = logic from hlabel]
  rfl

theorem sum_opsFactor (n ticks : ℕ) :
    ((List.range ticks).map fun i =>
      opsFactor 3 (pairRun (equalTasks n) 3 (i + 1)).approxRq.apafState).sum =
      2 * stateVisits (equalTasks n) 3 ticks APAF_TIGHT +
        3 * stateVisits (equalTasks n) 3 ticks APAF_MEDIUM +
        4 * stateVisits (equalTasks n) 3 ticks APAF_LOOSE := by
  induction ticks with
  | zero => rfl
  | succ k ih =>
    rw [List.range_succ, List.map_append, List.sum_append, ih, stateVisits_succ, stateVisits_succ,
      stateVisits_succ]
    have hrange := tickRun_apafState_range (logicMode 3) (equalTasks n) 3 (k + 1)
    change 0 ≤ (pairRun (equalTasks n) 3 (k + 1)).approxRq.apafState ∧
      (pairRun (equalTasks n) 3 (k + 1)).approxRq.apafState ≤ 2 at hrange
    rcases (by omega : (pairRun (equalTasks n) 3 (k + 1)).approxRq.apafState = 0 ∨
      (pairRun (equalTasks n) 3 (k + 1)).approxRq.apafState = 1 ∨
      (pairRun (equalTasks n) 3 (k + 1)).approxRq.apafState = 2) with hs | hs | hs <;>
    · simp only [List.map_cons, List.map_nil, List.sum_singleton, hs, opsFactor, APAF_LOOSE,
        APAF_MEDIUM, APAF_TIGHT]
      norm_num
      omega

theorem opsFactor_le (logic state : ℤ) : opsFactor logic state ≤ 4 := by
  unfold opsFactor
  split_ifs <;> omega

/-- Experiment 1 credits the shift-based logic with one operation a task and tick,
the table-based one with four, and the adaptive one by the state each tick ends in. -/
theorem exp1_ops (n ticks : ℕ) (mbuf : List Metrics) (hn : 0 < n) (hroom : ticks ≤ mbuf.length)
    (hfit : 4 * (n * ticks) < 2 ^ 64) :
    (runExperiment n 1 ticks mbuf).totalOpsSaved.toNat = n * ticks ∧
    (runExperiment n 2 ticks mbuf).totalOpsSaved.toNat = 4 * (n * ticks) ∧
    (runExperiment n 3 ticks mbuf).totalOpsSaved.toNat =
      n * (2 * stateVisits (equalTasks n) 3 ticks APAF_TIGHT +
        3 * stateVisits (equalTasks n) 3 ticks APAF_MEDIUM +
        4 * stateVisits (equalTasks n) 3 ticks APAF_LOOSE) ∧
    stateVisits (equalTasks n) 3 ticks APAF_TIGHT + stateVisits (equalTasks n) 3 ticks APAF_MEDIUM +
      stateVisits (equalTasks n) 3 ticks APAF_LOOSE = ticks := by
  have htotal : ∀ logic : ℤ, logic = 1 ∨ logic = 2 ∨ logic = 3 →
      (runExperiment n logic ticks mbuf).totalOpsSaved.toNat = n * ((List.range ticks).map fun i =>
        opsFactor logic (pairRun (equalTasks n) logic (i + 1)).approxRq.apafState).sum := by
    intro logic hlogic
    have hsums := (exp1_sums n logic hroom).trans (foldl_summary _ _)
    have hcolumn : ((exp1Entries n logic ticks).map Metrics.opsSaved).map UInt64.toNat =
        (List.range ticks).map fun i => n *
          opsFactor logic (pairRun (equalTasks n) logic (i + 1)).approxRq.apafState := by
      rw [exp1Entries, List.map_map, List.map_map]
      refine List.map_congr_left fun i hi => pairRun_opsSaved n hlogic hn ?_ i
      have hpos : 1 ≤ ticks := by have := List.mem_range.mp hi; omega
      nlinarith
    have hle := List.sum_le_card_nsmul ((List.range ticks).map fun i => n *
        opsFactor logic (pairRun (equalTasks n) logic (i + 1)).approxRq.apafState) (n * 4)
      fun x hx => by
        obtain ⟨i, -, rfl⟩ := List.mem_map.mp hx
        exact Nat.mul_le_mul_left n (opsFactor_le _ _)
    rw [List.length_map, List.length_range, smul_eq_mul] at hle
    have hadd := toNat_foldl_add ((exp1Entries n logic ticks).map Metrics.opsSaved) 0 (by
      rw [hcolumn, UInt64.toNat_zero]
      nlinarith)
    rw [hcolumn, UInt64.toNat_zero, zero_add, List.sum_map_mul_left] at hadd
    exact (congrArg (fun acc => acc.totalOpsSaved.toNat) hsums).trans hadd
  refine ⟨?_, ?_, ?_, sum_stateVisits _ _ _⟩
  · rw [htotal 1 (by decide)]
    simp [opsFactor]
  · rw [htotal 2 (by decide)]
    simp [opsFactor]
    ring
  · rw [htotal 3 (by decide), sum_opsFactor]

theorem exp1_ops_ten :
    (runExperiment 10 1 5 (List.replicate 5 Metrics.zeroed)).totalOpsSaved.toNat = 10 * 5 ∧
    (runExperiment 10 2 5 (List.replicate 5 Metrics.zeroed)).totalOpsSaved.toNat = 4 * (10 * 5) ∧
    (runExperiment 10 3 5 (List.replicate 5 Metrics.zeroed)).totalOpsSaved.toNat =
      10 * (2 * stateVisits (equalTasks 10) 3 5 APAF_TIGHT +
        3 * stateVisits (equalTasks 10) 3 5 APAF_MEDIUM +
        4 * stateVisits (equalTasks 10) 3 5 APAF_LOOSE) ∧
    stateVisits (equalTasks 10) 3 5 APAF_TIGHT + stateVisits (equalTasks 10) 3 5 APAF_MEDIUM +
      stateVisits (equalTasks 10) 3 5 APAF_LOOSE = 5 :=
  exp1_ops 10 5 _ (by decide) (by decide) (by decide)

end ApexCfs
