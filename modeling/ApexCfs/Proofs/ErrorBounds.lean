import ApexCfs.Proofs.Decay
import ApexCfs.Proofs.Recorded

/-! Experiment 4, the error bounds. No run of any length and logic violates the
bound of its tick, although the error is that of the state before the tick and the
bound that of the state after it. -/

namespace ApexCfs

open Idealised Machine ListLoop Extremum

theorem exp4TickErr_eq (logic state : ℤ) : exp4TickErr logic state =
    |46718 - (((logicMode logic).decay state LOAD_AVG_MAX 1).toNat : ℚ)| / 46718 * 100 := by
  have hexact : exactDecayLoad LOAD_AVG_MAX 1 = 46718 := by decide
  have hbase : LOAD_AVG_MAX.toNat = 47742 := by decide
  have hchoice : (if logic = 1 then bsaDecayLoad LOAD_AVG_MAX 1
      else if logic = 2 then cltiDecayLoad LOAD_AVG_MAX 1
      else if logic = 3 then apafDecayLoad LOAD_AVG_MAX 1 state
      else exactDecayLoad LOAD_AVG_MAX 1) = (logicMode logic).decay state LOAD_AVG_MAX 1 := by
    unfold logicMode
    split_ifs <;> rfl
  have hnat : (46718 : UInt64).toNat = 46718 := by decide
  have hpos : (46718 : UInt64) > 0 := by decide
  simp only [exp4TickErr]
  rw [hchoice, hexact, if_pos hpos, hbase, hnat]
  generalize ((logicMode logic).decay state LOAD_AVG_MAX 1).toNat = d
  rw [← sub_div, abs_div, div_div_div_eq]
  norm_num
  ring

theorem apafPeriod_base :
    (Mode.apaf.period APAF_TIGHT 47742 = 46716 ∧ Mode.apaf.period APAF_MEDIUM 47742 = 46663) ∧
      Mode.apaf.period APAF_LOOSE 47742 = 46718 := by
  unfold Mode.period
  decide +kernel

theorem decay_base (logic : ℤ) {state : ℤ} (h0 : 0 ≤ state) (h2 : state ≤ 2) :
    ((logicMode logic).decay state LOAD_AVG_MAX 1).toNat =
      if logic = 1 then 46251
      else if logic = 2 then 46752
      else if logic = 3 then
        if state = APAF_TIGHT then 46716 else if state = APAF_MEDIUM then 46663 else 46718
      else 46718 := by
  have hbase : LOAD_AVG_MAX.toNat = 47742 := by decide
  rw [decay_one, hbase]
  unfold logicMode
  split_ifs with hb hc ha ht hm
  · exact (by decide : bsaPeriod 47742 = 46251)
  · exact (by decide : cltiPeriod 47742 = 46752)
  · exact ht ▸ apafPeriod_base.1.1
  · exact hm ▸ apafPeriod_base.1.2
  · have hl : state = APAF_LOOSE := by
      simp only [APAF_TIGHT, APAF_MEDIUM] at ht hm
      simp only [APAF_LOOSE]
      omega
    exact hl ▸ apafPeriod_base.2
  · exact (by decide : exactPeriod 47742 = 46718)

theorem exp4TickErr_base (logic : ℤ) {state : ℤ} (h0 : 0 ≤ state) (h2 : state ≤ 2) :
    exp4TickErr logic state =
      if logic = 1 then 23350 / 23359
      else if logic = 2 then 1700 / 23359
      else if logic = 3 then
        if state = APAF_TIGHT then 100 / 23359 else if state = APAF_MEDIUM then 2750 / 23359 else 0
      else 0 := by
  rw [exp4TickErr_eq, decay_base logic h0 h2]
  split_ifs <;> norm_num [abs_of_pos, abs_of_neg]

/-- The error of the state before a tick is below one percent and within the
bound of every state that the tick may end in. -/
theorem exp4TickErr_bounds (logic : ℤ) {state : ℤ} (h0 : 0 ≤ state) (h2 : state ≤ 2) :
    0 ≤ exp4TickErr logic state ∧ exp4TickErr logic state < 1 ∧
      (∀ state', exp4TickErr logic state ≤ exp4Bound logic state') ∧
      exp4TickErr logic state ≤ exp4TickErr logic APAF_MEDIUM := by
  have hmed : APAF_MEDIUM ≠ APAF_TIGHT := by decide
  rw [exp4TickErr_base logic h0 h2, exp4TickErr_base logic (by decide) (by decide), if_neg hmed,
    if_pos rfl]
  simp only [exp4Bound, EFF_BSA, EFF_CLTI, EFF_TIGHT, EFF_MEDIUM, EFF_LOOSE, BOUND_BSA_DECAY,
    BOUND_CLTI_DECAY, BOUND_APAF_TIGHT, BOUND_APAF_MEDIUM, BOUND_APAF_LOOSE, BOUND_TOLERANCE]
  refine ⟨?_, ?_, fun state' => ?_, ?_⟩
  · split_ifs <;> norm_num
  · split_ifs <;> norm_num
  · split_ifs <;> first | omega | norm_num
  · split_ifs <;> norm_num

def exp4ApafState (logic : ℤ) (k : ℕ) : ℤ := (pairRun exp4Tasks logic k).approxRq.apafState

theorem exp4ApafState_range (logic : ℤ) (k : ℕ) :
    0 ≤ exp4ApafState logic k ∧ exp4ApafState logic k ≤ 2 :=
  tickRun_apafState_range _ _ _ k

def exp4Errors (logic : ℤ) (ticks : ℕ) : List ℚ :=
  (List.range ticks).map fun i => exp4TickErr logic (exp4ApafState logic i)

theorem exp4Errors_succ (logic : ℤ) (k : ℕ) : exp4Errors logic (k + 1) =
    exp4Errors logic k ++ [exp4TickErr logic (exp4ApafState logic k)] := by
  rw [exp4Errors, List.range_succ, List.map_append]
  rfl

/-- What the loop has accumulated after `k` passes, from a log `g`. -/
structure Exp4Tally (logic : ℤ) (g : List Exp4Violation) (k : ℕ) (s : Exp4State) : Prop where
  pair : s.pair = pairRun exp4Tasks logic k
  clean : s.nViolations = 0 ∧ s.gViolations = g
  errors : s.maxErr = runningMax 0 (exp4Errors logic k) ∧ s.sumErr = (exp4Errors logic k).sum
  buckets : s.under1 = k ∧ s.b1to3 = 0 ∧ s.b3to5 = 0 ∧ s.over5 = 0
  visits : logic = 3 → s.tightCount = stateVisits exp4Tasks logic k APAF_TIGHT ∧
    s.medCount = stateVisits exp4Tasks logic k APAF_MEDIUM ∧ s.looseCount = stateVisits exp4Tasks logic k APAF_LOOSE

theorem exp4Step_eq {logic : ℤ} {s : Exp4State} {e : ℚ}
    (he : exp4TickErr logic s.pair.approxRq.apafState = e) (hsmall : e < 1)
    (hbound : ∀ state, e ≤ exp4Bound logic state) (i : ℕ) :
    exp4Step logic s i = Exp4State.countState
      { s with
        pair := s.pair.tick logic
        mbuf := (s.pair.tick logic).record s.mbuf i
        maxErr := if e > s.maxErr then e else s.maxErr
        sumErr := s.sumErr + e
        under1 := s.under1 + 1 } logic (s.pair.tick logic).approxRq.apafState := by
  simp only [exp4Step, Exp4State.check, Exp4State.addErr, he, gt_iff_lt, not_lt.mpr (hbound _),
    if_false, if_pos hsmall]

theorem Exp4State.countState_apaf (s : Exp4State) {state : ℤ} (h0 : 0 ≤ state) (h2 : state ≤ 2) :
    (s.countState 3 state).tightCount = s.tightCount + (if state = APAF_TIGHT then 1 else 0) ∧
      (s.countState 3 state).medCount = s.medCount + (if state = APAF_MEDIUM then 1 else 0) ∧
      (s.countState 3 state).looseCount = s.looseCount + (if state = APAF_LOOSE then 1 else 0) := by
  unfold Exp4State.countState
  rcases (by omega : state = 0 ∨ state = 1 ∨ state = 2) with rfl | rfl | rfl <;>
    exact ⟨rfl, rfl, rfl⟩

theorem Exp4Tally.step {logic : ℤ} {g : List Exp4Violation} {k : ℕ} {s : Exp4State}
    (h : Exp4Tally logic g k s) : Exp4Tally logic g (k + 1) (exp4Step logic s k) := by
  obtain ⟨hr0, hr2⟩ := exp4ApafState_range logic k
  obtain ⟨-, hsmall, hbound, -⟩ := exp4TickErr_bounds logic hr0 hr2
  have he : exp4TickErr logic s.pair.approxRq.apafState =
      exp4TickErr logic (exp4ApafState logic k) := by rw [h.pair]; rfl
  have hpair : s.pair.tick logic = pairRun exp4Tasks logic (k + 1) := by rw [h.pair, pairRun_succ]
  have hstate : (s.pair.tick logic).approxRq.apafState = exp4ApafState logic (k + 1) := by
    rw [hpair]
    rfl
  have hmax : (if exp4TickErr logic (exp4ApafState logic k) > s.maxErr then
      exp4TickErr logic (exp4ApafState logic k) else s.maxErr) =
      runningMax 0 (exp4Errors logic (k + 1)) := by
    rw [exp4Errors_succ, runningMax_append, ← h.errors.1]
    rfl
  have hsum : s.sumErr + exp4TickErr logic (exp4ApafState logic k) =
      (exp4Errors logic (k + 1)).sum := by
    rw [exp4Errors_succ, List.sum_append, List.sum_singleton, ← h.errors.2]
  rw [exp4Step_eq he hsmall hbound, hstate, hmax, hsum]
  refine ⟨?_, ?_, ?_, ?_, fun h3 => ?_⟩
  · unfold Exp4State.countState
    split_ifs <;> exact hpair
  · unfold Exp4State.countState
    split_ifs <;> exact h.clean
  · unfold Exp4State.countState
    split_ifs <;> exact ⟨rfl, rfl⟩
  · unfold Exp4State.countState
    split_ifs <;> exact ⟨congrArg (· + 1) h.buckets.1, h.buckets.2⟩
  · obtain ⟨ht, hm, hl⟩ := h.visits h3
    rw [stateVisits_succ, stateVisits_succ, stateVisits_succ, ← ht, ← hm, ← hl, h3]
    obtain ⟨hs0, hs2⟩ := exp4ApafState_range 3 (k + 1)
    exact Exp4State.countState_apaf _ hs0 hs2

theorem exp4Tally (logic : ℤ) (ticks : ℕ) (mbuf : List Metrics) (g : List Exp4Violation) :
    Exp4Tally logic g ticks (exp4Loop logic ticks mbuf g) := by
  induction ticks with
  | zero => exact ⟨rfl, ⟨rfl, rfl⟩, ⟨rfl, rfl⟩, ⟨rfl, rfl, rfl, rfl⟩, fun _ => ⟨rfl, rfl, rfl⟩⟩
  | succ k ih =>
    rw [exp4Loop, List.range_succ, List.foldl_append]
    exact ih.step

/-- No tick violates its bound and the log is left alone: every error is below one
percent and the largest is that of the first state. The errors and their mean are exact
rationals; in doubles the mean of equal errors may round above them. -/
theorem exp4_no_violation (logic : ℤ) (ticks : ℕ) (mbuf : List Metrics)
    (gViolations : List Exp4Violation) (hticks : 0 < ticks) :
    (exp4Loop logic ticks mbuf gViolations).gViolations = gViolations ∧
      (runExp4 logic ticks mbuf gViolations).nViolations = 0 ∧
      (runExp4 logic ticks mbuf gViolations).boundVerified = true ∧
      (runExp4 logic ticks mbuf gViolations).ticksUnder1pct = ticks ∧
      (runExp4 logic ticks mbuf gViolations).maxErrorEver = exp4TickErr logic APAF_MEDIUM ∧
      (∃ mean, (runExp4 logic ticks mbuf gViolations).avgErrorOverall = .fin mean ∧
        mean ≤ (runExp4 logic ticks mbuf gViolations).maxErrorEver) ∧
      (runExp4 logic ticks mbuf gViolations).maxErrorEver ≤
        (runExp4 logic ticks mbuf gViolations).theoreticalBound := by
  have h := exp4Tally logic ticks mbuf gViolations
  have hmem : ∀ e ∈ exp4Errors logic ticks, 0 ≤ e ∧ e ≤ exp4TickErr logic APAF_MEDIUM := by
    intro e he
    obtain ⟨i, -, rfl⟩ := List.mem_map.mp he
    obtain ⟨hr0, hr2⟩ := exp4ApafState_range logic i
    obtain ⟨hpos, -, -, hmed⟩ := exp4TickErr_bounds logic hr0 hr2
    exact ⟨hpos, hmed⟩
  have hpos : 0 ≤ exp4TickErr logic APAF_MEDIUM :=
    (exp4TickErr_bounds logic (by decide) (by decide)).1
  refine ⟨h.clean.2, h.clean.1, decide_eq_true h.clean.1, h.buckets.1, ?_, ?_, ?_⟩
  · refine h.errors.1.trans (runningMax_eq hpos (fun e he => (hmem e he).2) ?_)
    exact List.mem_map.mpr ⟨0, List.mem_range.mpr hticks, rfl⟩
  · have hlen : (exp4Errors logic ticks).length = ticks := by simp [exp4Errors]
    have hmean := mean_le_runningMax (exp4Errors logic ticks)
    rw [← h.errors.1, ← h.errors.2, hlen] at hmean
    exact ⟨_, Double.divNat_fin _ hticks.ne', hmean⟩
  · have hmax := runningMax_le hpos fun e he => (hmem e he).2
    rw [← h.errors.1, exp4TickErr_base logic (by decide) (by decide)] at hmax
    refine hmax.trans ?_
    simp only [runExp4, BOUND_BSA_DECAY, BOUND_CLTI_DECAY, BOUND_APAF_LOOSE]
    split_ifs <;> norm_num

theorem exp4_no_violation_thousand :
    (exp4Loop 3 EXP4_TICKS (List.replicate EXP4_TICKS Metrics.zeroed) []).gViolations = [] ∧
      (runExp4 3 EXP4_TICKS (List.replicate EXP4_TICKS Metrics.zeroed) []).nViolations = 0 ∧
      (runExp4 3 EXP4_TICKS (List.replicate EXP4_TICKS Metrics.zeroed) []).boundVerified = true ∧
      (runExp4 3 EXP4_TICKS (List.replicate EXP4_TICKS Metrics.zeroed) []).ticksUnder1pct =
        EXP4_TICKS ∧
      (runExp4 3 EXP4_TICKS (List.replicate EXP4_TICKS Metrics.zeroed) []).maxErrorEver =
        exp4TickErr 3 APAF_MEDIUM ∧
      (∃ mean, (runExp4 3 EXP4_TICKS (List.replicate EXP4_TICKS Metrics.zeroed) []).avgErrorOverall =
          .fin mean ∧
        mean ≤ (runExp4 3 EXP4_TICKS (List.replicate EXP4_TICKS Metrics.zeroed) []).maxErrorEver) ∧
      (runExp4 3 EXP4_TICKS (List.replicate EXP4_TICKS Metrics.zeroed) []).maxErrorEver ≤
        (runExp4 3 EXP4_TICKS (List.replicate EXP4_TICKS Metrics.zeroed) []).theoreticalBound :=
  exp4_no_violation 3 EXP4_TICKS _ [] (by decide)

theorem exp4Errors_sum (k : ℕ) :
    (exp4Errors 3 k).sum + exp4TickErr 3 (exp4ApafState 3 k) =
      exp4TickErr 3 APAF_MEDIUM + stateVisits exp4Tasks 3 k APAF_TIGHT * exp4TickErr 3 APAF_TIGHT +
        stateVisits exp4Tasks 3 k APAF_MEDIUM * exp4TickErr 3 APAF_MEDIUM +
        stateVisits exp4Tasks 3 k APAF_LOOSE * exp4TickErr 3 APAF_LOOSE := by
  induction k with
  | zero =>
    simp [exp4Errors, stateVisits]
    rfl
  | succ k ih =>
    have hstate : (pairRun exp4Tasks 3 (k + 1)).approxRq.apafState = exp4ApafState 3 (k + 1) := rfl
    rw [stateVisits_succ, stateVisits_succ, stateVisits_succ, exp4Errors_succ, List.sum_append,
      List.sum_singleton, ih, hstate]
    obtain ⟨hs0, hs2⟩ := exp4ApafState_range 3 (k + 1)
    -- the state after the tick is counted once, with its own error
    rcases (by omega : exp4ApafState 3 (k + 1) = 0 ∨ exp4ApafState 3 (k + 1) = 1 ∨
      exp4ApafState 3 (k + 1) = 2) with hs | hs | hs <;>
    · rw [hs]
      simp only [APAF_LOOSE, APAF_MEDIUM, APAF_TIGHT]
      norm_num
      ring

/-- The mean error of an APAF run is the distribution of its states, weighted by
their errors and shifted by the tick between the error and the state counted; the
errors and their sum are exact rationals. -/
theorem exp4_mean_error (ticks : ℕ) (mbuf : List Metrics) (gViolations : List Exp4Violation)
    (hticks : 0 < ticks) :
    let r := runExp4 3 ticks mbuf gViolations
    r.ticksInTight + r.ticksInMedium + r.ticksInLoose = ticks ∧
      ∃ mean, r.avgErrorOverall = .fin mean ∧
        mean * ticks + exp4TickErr 3 (exp4Loop 3 ticks mbuf gViolations).pair.approxRq.apafState =
          exp4TickErr 3 APAF_MEDIUM + r.ticksInTight * exp4TickErr 3 APAF_TIGHT +
            r.ticksInMedium * exp4TickErr 3 APAF_MEDIUM +
            r.ticksInLoose * exp4TickErr 3 APAF_LOOSE := by
  have h := exp4Tally 3 ticks mbuf gViolations
  obtain ⟨ht, hm, hl⟩ := h.visits rfl
  have hsum := exp4Errors_sum ticks
  have hcount := sum_stateVisits exp4Tasks 3 ticks
  rw [← ht, ← hm, ← hl] at hcount hsum
  refine ⟨hcount, _, Double.divNat_fin _ hticks.ne', ?_⟩
  rw [div_mul_cancel₀ _ (by exact_mod_cast hticks.ne'), h.errors.2, h.pair]
  exact hsum

/-- The thousand ticks of the experiment. -/
theorem exp4_mean_error_thousand :
    let r := runExp4 3 EXP4_TICKS (List.replicate EXP4_TICKS Metrics.zeroed) []
    r.ticksInTight + r.ticksInMedium + r.ticksInLoose = EXP4_TICKS ∧
      ∃ mean, r.avgErrorOverall = .fin mean ∧
        mean * EXP4_TICKS + exp4TickErr 3 (exp4Loop 3 EXP4_TICKS
            (List.replicate EXP4_TICKS Metrics.zeroed) []).pair.approxRq.apafState =
          exp4TickErr 3 APAF_MEDIUM + r.ticksInTight * exp4TickErr 3 APAF_TIGHT +
            r.ticksInMedium * exp4TickErr 3 APAF_MEDIUM +
            r.ticksInLoose * exp4TickErr 3 APAF_LOOSE :=
  exp4_mean_error EXP4_TICKS _ [] (by decide)

end ApexCfs
