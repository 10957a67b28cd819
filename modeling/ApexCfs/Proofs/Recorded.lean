import ApexCfs.Proofs.Controller
import ApexCfs.Proofs.Summary

/-! What `metrics_print_summary` makes of recorded entries: the figures bound one
another whatever runqueues were recorded, and the transitions it counts in an APAF
run are those of the controller. -/

namespace ApexCfs

open Idealised Extremum Machine Hysteresis

/-- The entry was written by `metrics_record`, over whatever was there. -/
def Metrics.Recorded (e : Metrics) : Prop :=
  ∃ (e₀ : Metrics) (approxRq exactRq : CfsRq), e = metricsRecord e₀ (some approxRq) (some exactRq)

theorem sumError_nonneg (approxRq exactRq : CfsRq) : 0 ≤ (errorAcc approxRq exactRq).sumError := by
  have hloop : ∀ (ps : List (CfsTask × CfsTask)) (acc : ErrorAcc), 0 ≤ acc.sumError →
      0 ≤ (ps.foldl ErrorAcc.step acc).sumError := by
    intro ps
    induction ps with
    | nil => exact fun _ h => h
    | cons p ps ih =>
      refine fun acc h => ih _ ?_
      simp only [ErrorAcc.step]
      split_ifs <;> first | exact add_nonneg h (loadError_nonneg _ _) | exact h
  exact hloop _ _ le_rfl

theorem Metrics.Recorded.errors {e : Metrics} (h : e.Recorded) :
    0 ≤ e.avgErrorPct ∧ e.avgErrorPct ≤ e.maxErrorPct := by
  obtain ⟨e₀, a, x, rfl⟩ := h
  refine ⟨?_, avg_le_max (errorAcc_sound a x)⟩
  simp only [metricsRecord]
  split_ifs
  · exact div_nonneg (sumError_nonneg a x) (Nat.cast_nonneg _)
  · exact le_rfl

theorem Metrics.Recorded.jain {e : Metrics} (h : e.Recorded) :
    e.jainIndex = .nan ∨ ∃ q, e.jainIndex = .fin q ∧ 0 ≤ q ∧ q ≤ 1 := by
  obtain ⟨e₀, a, x, rfl⟩ := h
  exact jainIndex_range a

theorem foldl_min_range {js : List Double}
    (h : ∀ j ∈ js, j = .nan ∨ ∃ q, j = .fin q ∧ 0 ≤ q ∧ q ≤ 1) {a : ℚ} (h0 : 0 ≤ a) (h1 : a ≤ 1) :
    ∃ q, js.foldl (fun best j => if j < best then j else best) (.fin a) = .fin q ∧ 0 ≤ q ∧ q ≤ 1 := by
  induction js generalizing a with
  | nil => exact ⟨a, rfl, h0, h1⟩
  | cons j js ih =>
    have ih' := fun {b : ℚ} => ih (fun j hj => h j (List.mem_cons_of_mem _ hj)) (a := b)
    rw [List.foldl_cons]
    rcases h j (List.mem_cons_self ..) with rfl | ⟨q, rfl, hq0, hq1⟩
    · rw [if_neg (by simp)]
      exact ih' h0 h1
    · split_ifs
      · exact ih' hq0 hq1
      · exact ih' h0 h1

/-- The least of a column of indices is between zero and their mean, and the mean is at
most one if it is a number. -/
theorem column_bounds {js : List Double} (hne : js ≠ [])
    (h : ∀ j ∈ js, j = .nan ∨ ∃ q, j = .fin q ∧ 0 ≤ q ∧ q ≤ 1) :
    ∃ q, js.foldl (fun best j => if j < best then j else best) (.fin 1) = .fin q ∧ 0 ≤ q ∧ q ≤ 1 ∧
      ∀ a, (js.foldl (· + ·) (Double.fin 0)).divNat js.length = .fin a → q ≤ a ∧ a ≤ 1 := by
  obtain ⟨q, hq, hq0, hq1⟩ := foldl_min_range h zero_le_one le_rfl
  refine ⟨q, hq, hq0, hq1, fun a ha => ?_⟩
  have hlen : js.length ≠ 0 := mt List.length_eq_zero_iff.mp hne
  -- a mean that is a number is one of numbers
  obtain ⟨s, hs, rfl⟩ := Double.divNat_eq_fin hlen ha
  obtain ⟨-, qs, rfl⟩ := Double.foldl_add_eq_fin hs
  have hrange : ∀ p ∈ qs, 0 ≤ p ∧ p ≤ 1 := by
    intro p hp
    rcases h (.fin p) (List.mem_map_of_mem hp) with hnan | ⟨r, hr, hr01⟩
    · cases hnan
    · cases hr
      exact hr01
  have hsum := (foldl_add_fin qs 0).symm.trans hs
  have hleast := (foldl_min_fin qs 1).symm.trans hq
  rw [zero_add] at hsum
  cases hsum
  cases hleast
  rw [List.length_map]
  refine ⟨le_mean ?_ fun p hp => runningMin_le hp, mean_le zero_le_one fun p hp => (hrange p hp).2⟩
  rintro rfl
  exact hne rfl

/-- The figures of the summary bound one another, whatever was recorded: the mean
error is between zero and the largest, and the least index between zero and the mean
one, which is at most one if it is a number. The sums and quotients are exact rationals;
a double sum may round a mean past its bound. -/
theorem summary_bounds (buf : List Metrics) (n : ℕ) (nTasks : ℤ) (hn : 0 < n)
    (hlen : n ≤ buf.length) (hrec : ∀ e ∈ buf.take n, e.Recorded) :
    ∃ s, metricsPrintSummary buf n nTasks = some s ∧ 0 ≤ s.avgError ∧ s.avgError ≤ s.maxError ∧
      ∃ q, s.minJain = .fin q ∧ 0 ≤ q ∧ q ≤ 1 ∧ ∀ a, s.avgJain = .fin a → q ≤ a ∧ a ≤ 1 := by
  obtain ⟨entry, hfirst⟩ : ∃ entry, buf[0]? = some entry :=
    ⟨_, List.getElem?_eq_getElem (hn.trans_le hlen)⟩
  have hsome : ¬ (n : ℤ) ≤ 0 := by omega
  have hsums : summaryAcc buf n = _ := foldl_summary (buf.take n) SummaryAcc.init
  rw [metricsPrintSummary, if_neg hsome, hfirst]
  simp only [Int.toNat_natCast, hsums]
  have hlength : (buf.take n).length = n := List.length_take_of_le hlen
  refine ⟨_, rfl, ?_, ?_, ?_⟩
  · refine div_nonneg (add_nonneg le_rfl (List.sum_nonneg fun q hq => ?_)) (Nat.cast_nonneg n)
    obtain ⟨e, he, rfl⟩ := List.mem_map.mp hq
    exact (hrec e he).errors.1
  · have hbelow : ∀ q ∈ (buf.take n).map Metrics.avgErrorPct,
        q ≤ runningMax 0 ((buf.take n).map Metrics.maxErrorPct) := by
      intro q hq
      obtain ⟨e, he, rfl⟩ := List.mem_map.mp hq
      exact (hrec e he).errors.2.trans (le_runningMax (List.mem_map_of_mem he))
    have hmean := mean_le (start_le_runningMax _ _) hbelow
    rw [List.length_map, hlength] at hmean
    simpa [SummaryAcc.init] using hmean
  · have hne : (buf.take n).map Metrics.jainIndex ≠ [] :=
      List.length_pos_iff.mp (by rw [List.length_map, hlength]; exact hn)
    have hcolumn := column_bounds hne fun j hj => by
      obtain ⟨e, he, rfl⟩ := List.mem_map.mp hj
      exact (hrec e he).jain
    rw [List.length_map, hlength] at hcolumn
    exact hcolumn

theorem summary_bounds_three : ∃ s,
    metricsPrintSummary ((List.range 3).map fun i => (pairRun threeTasks 1 (i + 1)).entry) 3 3 = some s ∧
      0 ≤ s.avgError ∧ s.avgError ≤ s.maxError ∧
      ∃ q, s.minJain = .fin q ∧ 0 ≤ q ∧ q ≤ 1 ∧ ∀ a, s.avgJain = .fin a → q ≤ a ∧ a ≤ 1 :=
  summary_bounds _ 3 3 (by decide) (by simp) fun e he => by
    obtain ⟨i, -, rfl⟩ := List.mem_map.mp (List.mem_of_mem_take he)
    exact ⟨Metrics.zeroed, _, _, rfl⟩

theorem tick_apafState_of_ne {m : Mode} (hm : m ≠ .apaf) (rq : CfsRq) :
    (m.tick rq).apafState = rq.apafState := by
  have hmirror : (mirrorTick m rq).apafState = rq.apafState := by
    rw [mirrorTick_apafState, if_neg fun h => hm h.1]
  rcases hp : exactPickNextTask rq with _ | i
  · by_cases he : m = .exact
    · rw [he] at hmirror ⊢
      exact hmirror
    · rw [tick_idle he hp, rqTick_apafState]
  · rw [tick_of_pick m hp, hmirror]

theorem tick_apafState_range (m : Mode) {rq : CfsRq} (h0 : 0 ≤ rq.apafState)
    (h2 : rq.apafState ≤ 2) : 0 ≤ (m.tick rq).apafState ∧ (m.tick rq).apafState ≤ 2 := by
  by_cases hm : m = .apaf
  · subst hm
    have hm : (Op.tick .apaf).isMode .apaf := rfl
    exact (apply_controller hm h0 h2).2.1
  · rw [tick_apafState_of_ne hm]
    exact ⟨h0, h2⟩

theorem tickRun_apafState_range (m : Mode) (specs : List (ℤ × ℤ)) (mode : ℤ) (k : ℕ) :
    0 ≤ (tickRun m specs mode k).apafState ∧ (tickRun m specs mode k).apafState ≤ 2 := by
  induction k with
  | zero => exact (by decide : 0 ≤ APAF_MEDIUM ∧ APAF_MEDIUM ≤ 2)
  | succ k ih =>
    rw [tickRun_succ]
    exact tick_apafState_range m ih.1 ih.2

theorem sum_stateVisits (specs : List (ℤ × ℤ)) (logic : ℤ) (ticks : ℕ) :
    stateVisits specs logic ticks APAF_TIGHT + stateVisits specs logic ticks APAF_MEDIUM +
      stateVisits specs logic ticks APAF_LOOSE = ticks := by
  induction ticks with
  | zero => rfl
  | succ k ih =>
    rw [stateVisits_succ, stateVisits_succ, stateVisits_succ]
    have hrange := tickRun_apafState_range (logicMode logic) specs logic (k + 1)
    change 0 ≤ (pairRun specs logic (k + 1)).approxRq.apafState ∧
      (pairRun specs logic (k + 1)).approxRq.apafState ≤ 2 at hrange
    rcases (by omega : (pairRun specs logic (k + 1)).approxRq.apafState = 0 ∨
      (pairRun specs logic (k + 1)).approxRq.apafState = 1 ∨
      (pairRun specs logic (k + 1)).approxRq.apafState = 2) with hs | hs | hs <;>
    · rw [hs]
      simp only [APAF_LOOSE, APAF_MEDIUM, APAF_TIGHT] at ih ⊢
      norm_num
      omega

theorem tick_approxMode (m : Mode) (rq : CfsRq) : (m.tick rq).approxMode = rq.approxMode := by
  have hcount : ∀ q : CfsRq, (rqCountRunning q).approxMode = q.approxMode := by
    intro q
    unfold rqCountRunning
    split_ifs <;> rfl
  have hstate : ∀ q : CfsRq, (apafUpdateState q).approxMode = q.approxMode := by
    intro q
    simp only [apafUpdateState]
    split_ifs <;> rfl
  have hjain : ∀ q : CfsRq, (updateJain q).approxMode = q.approxMode := fun _ => rfl
  have htick : (rqTick rq).approxMode = rq.approxMode := by
    cases rq
    rfl
  have hloaded : (loaded m rq).approxMode = rq.approxMode := by
    cases rq
    rfl
  have hmirror : (mirrorTick m rq).approxMode = rq.approxMode := by
    rw [mirrorTick_eq, hcount, hjain]
    split_ifs
    · rw [hstate, hloaded]
    · exact hloaded
  rcases tick_cases m rq with h | ⟨-, -, h⟩
  · rw [h, hmirror]
  · rw [h, htick]

theorem runOps_approxMode (rq : CfsRq) (ops : List Op) :
    (runOps rq ops).approxMode = rq.approxMode :=
  run_invariant (I := fun s => s.approxMode = rq.approxMode) rfl
    (fun s op _ h => by
      cases op with
      | tick m => exact (tick_approxMode m s).trans h
      | setRunnable i r => exact h) (along_true rq ops)

/-- What happens outside the ticks leaves the controller, the tick and the label alone. -/
def Outside (f : CfsRq → CfsRq) : Prop :=
  ∀ rq, (f rq).apafState = rq.apafState ∧ (f rq).tick = rq.tick ∧ (f rq).approxMode = rq.approxMode

theorem outside_runOps {ops : List Op} (h : ∀ op ∈ ops, op.isTick = false) :
    Outside fun rq => runOps rq ops := by
  induction ops with
  | nil => exact fun rq => ⟨rfl, rfl, rfl⟩
  | cons op ops ih =>
    have hop := h op (List.mem_cons_self ..)
    cases op with
    | tick m => cases hop
    | setRunnable i r => exact fun rq => ih (fun op hop => h op (List.mem_cons_of_mem _ hop)) _

/-- An APAF run recorded after every tick; before tick `k` comes `before k`. -/
def recordedRun (tasks : List CfsTask) (before : ℕ → CfsRq → CfsRq) : ℕ → CfsRq
  | 0 => rqInit tasks 3
  | k + 1 => apafTick (before k (recordedRun tasks before k))

section Transitions

variable {before : ℕ → CfsRq → CfsRq} (hbefore : ∀ k, Outside (before k))

include hbefore

theorem recordedRun_invariant (tasks : List CfsTask) (k : ℕ) :
    (recordedRun tasks before k).tick = UInt64.ofNat k ∧
      (recordedRun tasks before k).approxMode = 3 ∧
      0 ≤ (recordedRun tasks before k).apafState ∧ (recordedRun tasks before k).apafState ≤ 2 := by
  induction k with
  | zero => exact ⟨rfl, rfl, (by decide : 0 ≤ APAF_MEDIUM), (by decide : APAF_MEDIUM ≤ 2)⟩
  | succ k ih =>
    obtain ⟨htick, hmode, h0, h2⟩ := ih
    obtain ⟨hbs, hbt, hbm⟩ := hbefore k (recordedRun tasks before k)
    rw [← hbs] at h0 h2
    refine ⟨?_, ?_, tick_apafState_range .apaf h0 h2⟩
    · rw [UInt64.ofNat_add, ← htick, ← hbt]
      exact tick_tick .apaf _
    · exact (tick_approxMode .apaf _).trans (hbm.trans hmode)

/-- A tick is a step of the controller; it moves at every fourth tick only, and at an
index that is a number. -/
theorem recordedRun_step (tasks : List CfsTask) (k : ℕ) :
    Step apafLadder (recordedRun tasks before k).apafState
        (recordedRun tasks before (k + 1)).jainIndex.toRat
        (recordedRun tasks before (k + 1)).apafState ∧
      ((recordedRun tasks before (k + 1)).apafState ≠ (recordedRun tasks before k).apafState →
        (k + 1) % 4 = 0 ∧ ∃ q, (recordedRun tasks before (k + 1)).jainIndex = .fin q) := by
  obtain ⟨-, -, h0, h2⟩ := recordedRun_invariant hbefore tasks k
  obtain ⟨hbs, -, -⟩ := hbefore k (recordedRun tasks before k)
  rw [← hbs] at h0 h2 ⊢
  have hm : (Op.tick .apaf).isMode .apaf := rfl
  obtain ⟨hstep, -, hmove⟩ := apply_controller hm h0 h2
  refine ⟨hstep, fun h => ?_⟩
  obtain ⟨-, -, hmon, hq⟩ := hmove h
  refine ⟨?_, hq⟩
  have htick : (Op.apply (before k (recordedRun tasks before k)) (.tick .apaf)).tick =
      UInt64.ofNat (k + 1) := (recordedRun_invariant hbefore tasks (k + 1)).1
  rw [htick] at hmon
  have hnat := congrArg UInt64.toNat hmon
  rw [UInt64.toNat_mod, UInt64.toNat_ofNat'] at hnat
  have hfour : (4 : UInt64).toNat = 4 := by decide
  rw [hfour, UInt64.toNat_zero] at hnat
  omega

end Transitions

theorem countTransitions_eq (e : ℕ → Metrics) (n : ℕ) (rest : List Metrics) :
    countTransitions ((List.range n).map e ++ rest) n =
      ((Finset.range n).filter fun i => 0 < i ∧ (e i).apafState ≠ (e (i - 1)).apafState).card := by
  have hget : ∀ i < n, ((List.range n).map e ++ rest)[i]? = some (e i) := by
    intro i hi
    rw [List.getElem?_append_left (by simpa using hi), List.getElem?_map, List.getElem?_range hi]
    rfl
  have hloop : ∀ k ≤ n,
      (List.range k).foldl (transitionsStep ((List.range n).map e ++ rest)) 0 =
        ((Finset.range k).filter fun i => 0 < i ∧ (e i).apafState ≠ (e (i - 1)).apafState).card := by
    intro k hk
    induction k with
    | zero => rfl
    | succ k ih =>
      rw [List.range_succ, List.foldl_append, ih (by omega), List.foldl_cons, List.foldl_nil,
        transitionsStep, hget k (by omega), hget (k - 1) (by omega), Finset.range_add_one,
        Finset.filter_insert]
      by_cases hcount : 0 < k ∧ (e k).apafState ≠ (e (k - 1)).apafState
      · rw [if_pos hcount, if_pos hcount.1, Finset.card_insert_of_notMem (by simp)]
        exact if_pos hcount.2
      · rw [if_neg hcount]
        by_cases hpos : 0 < k
        · rw [if_pos hpos]
          exact if_neg fun hne => hcount ⟨hpos, hne⟩
        · exact if_neg hpos
  exact hloop n le_rfl

/-- Whatever blocks in between and whatever the exact side did, the summary of a
recorded APAF run counts the state changes after the first entry, of which there is
at most one every four ticks. -/
theorem summary_transitions (tasks : List CfsTask) (before : ℕ → CfsRq → CfsRq)
    (exactRq : ℕ → CfsRq) (n : ℕ) (nTasks : ℤ) (rest : List Metrics) (hn : 0 < n)
    (hbefore : ∀ k, Outside (before k)) :
    ∃ s t, metricsPrintSummary ((List.range n).map (fun i => metricsRecord Metrics.zeroed
        (some (recordedRun tasks before (i + 1))) (some (exactRq i))) ++ rest) n nTasks = some s ∧
      s.transitions = some t ∧
      t = ((Finset.range n).filter fun i => 0 < i ∧ (recordedRun tasks before (i + 1)).apafState ≠
        (recordedRun tasks before i).apafState).card ∧ 4 * t ≤ n := by
  generalize he : (fun i => metricsRecord Metrics.zeroed (some (recordedRun tasks before (i + 1)))
    (some (exactRq i))) = e
  have hstate : ∀ i, (e i).apafState = (recordedRun tasks before (i + 1)).apafState := by
    rw [← he]
    exact fun i => rfl
  have hmode : ((e 0).logicUsed : ℤ) = 3 := by
    rw [← he]
    exact (recordedRun_invariant hbefore tasks 1).2.1
  have hfirst : ((List.range n).map e ++ rest)[0]? = some (e 0) := by
    rw [List.getElem?_append_left (by simpa using hn), List.getElem?_map, List.getElem?_range hn]
    rfl
  have hcount : ((Finset.range n).filter fun i => 0 < i ∧ (e i).apafState ≠ (e (i - 1)).apafState) =
      (Finset.range n).filter fun i => 0 < i ∧ (recordedRun tasks before (i + 1)).apafState ≠
        (recordedRun tasks before i).apafState := by
    refine Finset.filter_congr fun i _ => and_congr_right fun hi => ?_
    rw [hstate, hstate, Nat.sub_add_cancel hi]
  have hbound : ∀ k, 4 * ((Finset.range k).filter fun i => 0 < i ∧
      (recordedRun tasks before (i + 1)).apafState ≠ (recordedRun tasks before i).apafState).card ≤
      k / 4 * 4 := by
    intro k
    induction k with
    | zero => simp
    | succ k ih =>
      rw [Finset.range_add_one, Finset.filter_insert]
      split_ifs with hk
      · have hfour := ((recordedRun_step hbefore tasks k).2 hk.2).1
        rw [Finset.card_insert_of_notMem (by simp)]
        omega
      · exact ih.trans (Nat.mul_le_mul_right 4 (Nat.div_le_div_right (Nat.le_succ k)))
  have hsome : ¬ (n : ℤ) ≤ 0 := by omega
  rw [metricsPrintSummary, if_neg hsome, hfirst]
  refine ⟨_, _, rfl, if_pos hmode, ?_, ?_⟩
  · rw [Int.toNat_natCast, countTransitions_eq, hcount]
  · rw [Int.toNat_natCast, countTransitions_eq, hcount]
    exact (hbound n).trans (Nat.div_mul_le_self n 4)

/-- Two tasks, the second of which blocks for a while. -/
theorem summary_transitions_two : ∃ s t, metricsPrintSummary ((List.range 8).map (fun i =>
      metricsRecord Metrics.zeroed
        (some (recordedRun [taskCreate 0 0, taskCreate 1 5]
          (fun k rq => runOps rq (if k = 2 then [.setRunnable 1 0] else [])) (i + 1)))
        (some (rqInit [] 0))) ++ []) 8 2 = some s ∧
    s.transitions = some t ∧
    t = ((Finset.range 8).filter fun i => 0 < i ∧
      (recordedRun [taskCreate 0 0, taskCreate 1 5]
        (fun k rq => runOps rq (if k = 2 then [.setRunnable 1 0] else [])) (i + 1)).apafState ≠
      (recordedRun [taskCreate 0 0, taskCreate 1 5]
        (fun k rq => runOps rq (if k = 2 then [.setRunnable 1 0] else [])) i).apafState).card ∧
    4 * t ≤ 8 :=
  summary_transitions _ _ (fun _ => rqInit [] 0) 8 2 [] (by decide) fun k =>
    outside_runOps fun op hop => by
      split_ifs at hop
      · rw [List.mem_singleton.mp hop]
        rfl
      · cases hop

end ApexCfs
