import ApexCfs.Lib.Jain
import ApexCfs.Proofs.IdealShare
import ApexCfs.Proofs.MixedLoad

/-! The CPU time of experiment 2. Every tick serves a task, and the batch tasks
are never two servings apart, so the reported shares and the fairness among the
batch tasks follow from the number of ticks that went to the interactive one. -/

namespace ApexCfs

open Machine ListLoop

section Run

variable (m : Mode) (mode : ℤ) (k : ℕ)

theorem countP_mixedOps : (mixedOps m k).countP Op.isTick = k := by
  induction k with
  | zero => rfl
  | succ k ih =>
    rw [mixedOps_succ, List.countP_append, ih]
    rfl

theorem along_mixedOps {P : CfsRq → Op → Prop}
    (hswitch : ∀ i, P (mixedRun m mode i) (switchOp i))
    (htick : ∀ i, P ((switchOp i).apply (mixedRun m mode i)) (.tick m)) :
    Along Op.apply P (freshRq mixedTasks mode) (mixedOps m k) := by
  induction k with
  | zero => exact along_nil _ _
  | succ k ih =>
    rw [mixedOps_succ, along_append, along_cons, along_cons]
    exact ⟨ih, hswitch k, htick k, along_nil _ _⟩

theorem busy_mixedOps : Along Op.apply (Busy N_TOTAL) (freshRq mixedTasks mode) (mixedOps m k) := by
  refine along_mixedOps m mode k (fun i => ?_) fun i => ?_
  · exact ⟨(batchReady m mode i).length, fun h => absurd h (by simp)⟩
  · have hready := (batchReady m mode i).switch i
    obtain ⟨j, hj⟩ := hready.exists_pick
    exact ⟨hready.length, fun _ => by simp [hj]⟩

theorem batch_runnableAtTicks {j : ℕ} (hj : j < N_TOTAL) (h0 : j ≠ INTERACTIVE) :
    RunnableAtTicks j (freshRq mixedTasks mode) (mixedOps m k) :=
  along_mixedOps m mode k (fun _ h => absurd h (by simp)) fun i _ =>
    ((batchReady m mode i).switch i).isRunnable hj h0

def mixedPick (i : ℕ) : Option ℕ := exactPickNextTask ((switchOp i).apply (mixedRun m mode i))

theorem picksOf_mixedOps (j : ℕ) : picksOf (freshRq mixedTasks mode) (mixedOps m k) j =
    (List.range k).countP fun i => mixedPick m mode i = some j := by
  induction k with
  | zero => rfl
  | succ k ih =>
    have hpass : countAlong Op.apply (Op.picks j) (mixedRun m mode k) [switchOp k, .tick m] =
        if mixedPick m mode k = some j then 1 else 0 := by
      have hswitch : ¬ (switchOp k).picks j (mixedRun m mode k) :=
        fun h => absurd (pick_of_picks h).1 (by simp)
      have htick : (Op.tick m).picks j ((switchOp k).apply (mixedRun m mode k)) ↔
          mixedPick m mode k = some j := picks_iff
      simp only [countAlong, if_neg hswitch, htick, Nat.zero_add, Nat.add_zero]
    rw [picksOf, mixedOps_succ, countAlong_append, countP_range_succ, ← ih, ← hpass]
    rfl

/-- The interactive task is served in its half of the cycle only. -/
theorem on_of_mixedPick {i : ℕ} (h : mixedPick m mode i = some INTERACTIVE) : i % 10 < 5 := by
  obtain ⟨t, ht, hrun⟩ := runnable_of_pick h
  have hflag := switch_runnable m mode i
  rw [ht, Option.map_some, hrun] at hflag
  by_contra hoff
  rw [if_neg hoff] at hflag
  exact absurd hflag (by decide)

theorem exists_mixedPick (i : ℕ) : ∃ j < N_TOTAL, mixedPick m mode i = some j := by
  have hready := (batchReady m mode i).switch i
  obtain ⟨j, hj⟩ := hready.exists_pick
  obtain ⟨t, ht, -⟩ := runnable_of_pick hj
  exact ⟨j, hready.length ▸ (List.getElem?_eq_some_iff.mp ht).1, hj⟩

theorem countP_on (k : ℕ) :
    ((List.range k).countP fun i => i % 10 < 5) = k / 10 * 5 + min (k % 10) 5 := by
  induction k with
  | zero => rfl
  | succ k ih =>
    rw [countP_range_succ, ih]
    split_ifs <;> omega

theorem interactive_le : picksOf (freshRq mixedTasks mode) (mixedOps m k) INTERACTIVE ≤
    k / 10 * 5 + min (k % 10) 5 := by
  rw [picksOf_mixedOps, ← countP_on]
  refine List.countP_mono_left fun i _ hi => ?_
  exact decide_eq_true (on_of_mixedPick m mode (of_decide_eq_true hi))

/-- The servings of the batch tasks. -/
def batchPicks : List ℕ :=
  (List.range N_BATCH).map fun j => picksOf (freshRq mixedTasks mode) (mixedOps m k) (j + 1)

theorem batchPicks_length : (batchPicks m mode k).length = N_BATCH := by simp [batchPicks]

theorem map_range_total {α : Type*} (f : ℕ → α) : (List.range N_TOTAL).map f =
    f INTERACTIVE :: (List.range N_BATCH).map fun j => f (j + 1) := by
  have hrange : List.range N_TOTAL = INTERACTIVE :: (List.range N_BATCH).map (· + 1) := by decide
  rw [hrange, List.map_cons, List.map_map]
  rfl

/-- Every pass serves one task. -/
theorem picks_add_batch : picksOf (freshRq mixedTasks mode) (mixedOps m k) INTERACTIVE +
    (batchPicks m mode k).sum = k := by
  have hsum := sum_picksOf (busy_mixedOps m mode k)
  rw [countP_mixedOps] at hsum
  have hlist := sum_map_eq_sum_range (picksOf (freshRq mixedTasks mode) (mixedOps m k)) _
    (List.range N_TOTAL) fun i a ha => by
      rw [← (List.getElem?_eq_some_iff.mp ha).2, List.getElem_range]
  rwa [List.length_range, hsum, map_range_total, List.sum_cons] at hlist

variable {k} (hk : k ≤ 2 ^ 36)

include hk

theorem mixed_noWrap : NoVruntimeWrap m (freshRq mixedTasks mode) (mixedOps m k) :=
  noVruntimeWrap_of_fresh (by
    rw [countP_mixedOps]
    exact hk)

theorem mixed_execRuntimeOf (j : ℕ) : (mixedRun m mode k).execRuntimeOf j =
    picksOf (freshRq mixedTasks mode) (mixedOps m k) j * TICK_NS.toNat := by
  have hwrap : NoExecRuntimeWrap j (freshRq mixedTasks mode) (mixedOps m k) :=
    noExecRuntimeWrap_of_short (by
      rw [countP_mixedOps]
      exact hk) j
  have h := execRuntimeOf_eq_picks (isMode_mixedOps m k) hwrap
  rwa [freshRq_execRuntimeOf, Nat.zero_add] at h

/-- In every mode the vruntime of a batch task is its runtime. -/
theorem batch_vruntimeOf {j : ℕ} (hj : j < N_TOTAL) (h0 : j ≠ INTERACTIVE) :
    (mixedRun m mode k).vruntimeOf j =
      picksOf (freshRq mixedTasks mode) (mixedOps m k) j * TICK_NS.toNat := by
  have hweight : (freshRq mixedTasks mode).weightOf j = 1024 := by
    have hall : ∀ j < N_TOTAL, j ≠ INTERACTIVE → (freshRq mixedTasks 0).weightOf j = 1024 := by
      decide
    exact hall j hj h0
  have h := run_counter (P := Op.picks j) (fun s : CfsRq => s.vruntimeOf j) TICK_NS.toNat
    (fun s op hs => by
      rw [vruntimeOf_apply hs.1.1 hs.1.2, hs.2, hweight, delta_unit])
    (((along_isMode (isMode_mixedOps m k) (freshRq mixedTasks mode)).and
      (mixed_noWrap m mode hk)).and (along_weightOf (isMode_mixedOps m k) _ j))
  rwa [freshRq_vruntimeOf, Nat.zero_add, smul_eq_mul] at h

/-- No batch task is two servings ahead of another. -/
theorem batch_level {i j : ℕ} (hi : i < N_TOTAL) (hj : j < N_TOTAL) (hi0 : i ≠ INTERACTIVE)
    (hj0 : j ≠ INTERACTIVE) : picksOf (freshRq mixedTasks mode) (mixedOps m k) i ≤
      picksOf (freshRq mixedTasks mode) (mixedOps m k) j + 1 := by
  have hinc : ∀ j < N_TOTAL, j ≠ INTERACTIVE →
      m.increment ((freshRq mixedTasks mode).weightOf j) = 1000000 := by
    have hall : ∀ m : Mode, ∀ j < N_TOTAL, j ≠ INTERACTIVE →
        m.increment ((freshRq mixedTasks 0).weightOf j) = 1000000 := by
      intro m
      cases m <;> decide
    exact hall m
  have hspread := spread_le (isMode_mixedOps m k) (batch_runnableAtTicks m mode k hi hi0)
    (batch_runnableAtTicks m mode k hj hj0) (mixed_noWrap m mode hk)
  have hvi := batch_vruntimeOf m mode hk hi hi0
  have hvj := batch_vruntimeOf m mode hk hj hj0
  rw [mixedRun] at hvi hvj
  rw [hvi, hvj, hinc i hi hi0, hinc j hj hj0, freshRq_vruntimeOf, freshRq_vruntimeOf, toNat_tick] at hspread
  simp only [sub_self, abs_zero, max_self] at hspread
  have hle := (abs_le.mp hspread).2
  omega

theorem batchPicks_level :
    ∀ x ∈ batchPicks m mode k, ∀ y ∈ batchPicks m mode k, x ≤ y + 1 := by
  intro x hx y hy
  obtain ⟨i, hi, rfl⟩ := List.mem_map.mp hx
  obtain ⟨j, hj, rfl⟩ := List.mem_map.mp hy
  exact batch_level m mode hk (Nat.succ_lt_succ (List.mem_range.mp hi))
    (Nat.succ_lt_succ (List.mem_range.mp hj)) (Nat.succ_ne_zero i) (Nat.succ_ne_zero j)

theorem mixed_runtimes : (mixedRun m mode k).tasks.map (fun t => t.execRuntime.toNat) =
    picksOf (freshRq mixedTasks mode) (mixedOps m k) INTERACTIVE * TICK_NS.toNat ::
      (batchPicks m mode k).map (· * TICK_NS.toNat) := by
  have hall : (mixedRun m mode k).tasks.map (fun t => t.execRuntime.toNat) =
      (List.range N_TOTAL).map fun j =>
        picksOf (freshRq mixedTasks mode) (mixedOps m k) j * TICK_NS.toNat := by
    have hlen := (batchReady m mode k).length
    refine List.ext_getElem (by simp [hlen]) fun j hj _ => ?_
    have hlt : j < (mixedRun m mode k).tasks.length := by simpa using hj
    have hexec := mixed_execRuntimeOf m mode hk j
    rw [CfsRq.execRuntimeOf, List.getElem?_eq_getElem hlt] at hexec
    simpa using hexec
  rw [hall, map_range_total, batchPicks, List.map_map]
  rfl

end Run

def batchRuntimes (tasks : List CfsTask) : List ℕ := (tasks.drop 1).map fun t => t.execRuntime.toNat

theorem batchSums_eq (tasks : List CfsTask) : batchSums tasks =
    (((batchRuntimes tasks).sum : ℚ), (Jain.sumSq (batchRuntimes tasks) : ℚ)) := by
  have hloop : ∀ (ts : List CfsTask) (acc : ℚ × ℚ), ts.foldl (fun acc t =>
      let rt : ℚ := t.execRuntime.toNat
      (acc.1 + rt, acc.2 + rt * rt)) acc =
        (acc.1 + ((ts.map fun t => t.execRuntime.toNat).sum : ℕ),
          acc.2 + (Jain.sumSq (ts.map fun t => t.execRuntime.toNat) : ℕ)) := by
    intro ts
    induction ts with
    | nil => intro acc; simp
    | cons t ts ih =>
      intro acc
      rw [List.foldl_cons, ih, List.map_cons, List.sum_cons, Jain.sumSq_cons]
      push_cast
      simp only [add_assoc, pow_two]
  rw [batchSums, hloop, zero_add, zero_add]
  rfl

theorem batchSums_mixedRun (m : Mode) (mode : ℤ) {k : ℕ} (hk : k ≤ 2 ^ 36) :
    batchSums (mixedRun m mode k).tasks =
      ((((batchPicks m mode k).sum * TICK_NS.toNat : ℕ) : ℚ),
        ((Jain.sumSq (batchPicks m mode k) * TICK_NS.toNat ^ 2 : ℕ) : ℚ)) := by
  have hbatch : batchRuntimes (mixedRun m mode k).tasks =
      (batchPicks m mode k).map (· * TICK_NS.toNat) := by
    rw [batchRuntimes, List.map_drop, mixed_runtimes m mode hk]
    rfl
  rw [batchSums_eq, hbatch, List.sum_map_mul_right, List.map_id', Jain.sumSq_scale]

theorem toNat_totalRt {tasks : List CfsTask}
    (h : (tasks.map fun t => t.execRuntime.toNat).sum < 2 ^ 64) :
    (totalRt tasks).toNat = (tasks.map fun t => t.execRuntime.toNat).sum := by
  have hmap : (tasks.map CfsTask.execRuntime).map UInt64.toNat =
      tasks.map fun t => t.execRuntime.toNat := List.map_map ..
  have hfold : totalRt tasks = (tasks.map CfsTask.execRuntime).foldl (· + ·) 0 := by
    rw [List.foldl_map]
    rfl
  have hsum := toNat_foldl_add (tasks.map CfsTask.execRuntime) 0
  rw [hmap, UInt64.toNat_zero, Nat.zero_add] at hsum
  rw [hfold, hsum h]

theorem totalRt_mixedRun (m : Mode) (mode : ℤ) {k : ℕ} (hk : k ≤ 2 ^ 36) :
    (totalRt (mixedRun m mode k).tasks).toNat = k * TICK_NS.toNat := by
  have hsum : ((mixedRun m mode k).tasks.map fun t => t.execRuntime.toNat).sum =
      k * TICK_NS.toNat := by
    rw [mixed_runtimes m mode hk, List.sum_cons, List.sum_map_mul_right, List.map_id',
      ← Nat.add_mul, picks_add_batch]
  rw [toNat_totalRt (by rw [hsum, toNat_tick]; omega), hsum]

theorem interactive_runtime (m : Mode) (mode : ℤ) {k : ℕ} (hk : k ≤ 2 ^ 36) :
    (((mixedRun m mode k).tasks[INTERACTIVE]?.map CfsTask.execRuntime).getD 0).toNat =
      picksOf (freshRq mixedTasks mode) (mixedOps m k) INTERACTIVE * TICK_NS.toNat := by
  rw [← mixed_execRuntimeOf m mode hk, CfsRq.execRuntimeOf]
  cases (mixedRun m mode k).tasks[INTERACTIVE]? <;> rfl

theorem batchIndex_of_level {counts : List ℕ} (hlen : counts.length = N_BATCH)
    (hnear : ∀ x ∈ counts, ∀ y ∈ counts, x ≤ y + 1) : Jain.index counts =
      (counts.sum : ℚ) ^ 2 / (counts.sum ^ 2 + (counts.sum % 10 * (10 - counts.sum % 10) : ℕ)) := by
  have hindex := Jain.length_mul_sumSq_of_level hnear
  have hcast : (counts.length : ℚ) * Jain.sumSq counts = (counts.sum : ℚ) ^ 2 +
      (counts.sum % counts.length * (counts.length - counts.sum % counts.length) : ℕ) := by
    exact_mod_cast hindex
  rw [Jain.index, hcast, hlen, N_BATCH]

theorem batchJain_eq {counts : List ℕ} {T : ℕ} (hlen : counts.length = N_BATCH) (hT : 0 < T) :
    (if ((Jain.sumSq counts * T ^ 2 : ℕ) : ℚ) > 0 then
        ((counts.sum * T : ℕ) : ℚ) * (counts.sum * T : ℕ) / (N_BATCH * (Jain.sumSq counts * T ^ 2 : ℕ))
      else 1) = if counts.sum = 0 then 1 else Jain.index counts := by
  have hle := Jain.sumSq_le_sq_sum counts
  have hge := Jain.sum_le_sumSq counts
  by_cases hzero : counts.sum = 0
  · rw [hzero, zero_pow two_ne_zero, Nat.le_zero] at hle
    rw [if_pos hzero, hle, Nat.zero_mul, Nat.cast_zero, if_neg (lt_irrefl 0)]
  · have hsq : 0 < Jain.sumSq counts := by omega
    have hpos : ((Jain.sumSq counts * T ^ 2 : ℕ) : ℚ) > 0 := by positivity
    rw [if_neg hzero, if_pos hpos, Jain.index, hlen, N_BATCH]
    push_cast
    field_simp

/-- The task that pass `i` of experiment 2 serves on the approximate runqueue: what the
pick finds once the interactive task is switched. -/
def exp2Pick (logic : ℤ) (mbuf : List Metrics) (i : ℕ) : Option ℕ :=
  exactPickNextTask (exp2Switch (exp2Run logic mbuf i) i).pair.approxRq

theorem exp2Pick_eq (logic : ℤ) (mbuf : List Metrics) (i : ℕ) :
    exp2Pick logic mbuf i = mixedPick (logicMode logic) logic i := by
  rw [exp2Pick, exp2Switch_pair, exp2Run_pair]
  rfl

/-- The columns of experiment 2 about CPU time, from the run of its mode. -/
theorem exp2_columns (logic : ℤ) {ticks : ℕ} (mbuf : List Metrics) (hticks : ticks ≤ 2 ^ 36) :
    (runExp2 logic ticks mbuf).interactiveExecRuntime.toNat =
        picksOf (freshRq mixedTasks logic) (mixedOps (logicMode logic) ticks) INTERACTIVE *
          TICK_NS.toNat ∧
      (0 < ticks → (runExp2 logic ticks mbuf).interactiveCpuShare =
        picksOf (freshRq mixedTasks logic) (mixedOps (logicMode logic) ticks) INTERACTIVE / ticks) ∧
      (runExp2 logic ticks mbuf).batchThroughput =
        (batchPicks (logicMode logic) logic ticks).sum * TICK_NS.toNat / N_BATCH ∧
      (runExp2 logic ticks mbuf).batchAvgJain =
        if (batchPicks (logicMode logic) logic ticks).sum = 0 then 1
        else Jain.index (batchPicks (logicMode logic) logic ticks) := by
  have hpair := exp2Run_pair logic (metricsInit mbuf ticks) ticks
  have htasks : (exp2Loop logic ticks mbuf).pair.approxRq.tasks =
      (mixedRun (logicMode logic) logic ticks).tasks := congrArg (fun p => p.approxRq.tasks) hpair
  have hexec := interactive_runtime (logicMode logic) logic hticks
  have htotal := totalRt_mixedRun (logicMode logic) logic hticks
  have hsums := batchSums_mixedRun (logicMode logic) logic hticks
  have hlen := batchPicks_length (logicMode logic) logic ticks
  have htick : 0 < TICK_NS.toNat := by
    rw [toNat_tick]
    norm_num
  rw [← htasks] at hexec htotal hsums
  refine ⟨hexec, fun hpos => ?_, ?_, ?_⟩
  · change (if totalRt (exp2Loop logic ticks mbuf).pair.approxRq.tasks > 0 then (_ : ℚ) / _ else 0) = _
    have hgt : totalRt (exp2Loop logic ticks mbuf).pair.approxRq.tasks > 0 :=
      UInt64.lt_iff_toNat_lt.mpr (htotal ▸ Nat.mul_pos hpos htick)
    have htickQ : ((TICK_NS.toNat : ℕ) : ℚ) ≠ 0 := by exact_mod_cast htick.ne'
    rw [if_pos hgt, htotal, hexec]
    push_cast
    rw [mul_div_mul_right _ _ htickQ]
  · change (batchSums (exp2Loop logic ticks mbuf).pair.approxRq.tasks).1 / (N_BATCH : ℚ) = _
    rw [hsums]
    push_cast
    rfl
  · have hcolumn : (runExp2 logic ticks mbuf).batchAvgJain =
        if (batchSums (exp2Loop logic ticks mbuf).pair.approxRq.tasks).2 > 0 then
          (batchSums (exp2Loop logic ticks mbuf).pair.approxRq.tasks).1 *
            (batchSums (exp2Loop logic ticks mbuf).pair.approxRq.tasks).1 /
              (N_BATCH * (batchSums (exp2Loop logic ticks mbuf).pair.approxRq.tasks).2)
        else 1 := rfl
    rw [hcolumn, hsums]
    dsimp only
    rw [batchJain_eq hlen htick]

/-- What experiment 2 reports about CPU time follows from how the ticks split between the
interactive task, which is served in its half of the cycle only, and the batch, which no
other split of its ticks would leave fairer. -/
theorem exp2_shares (logic : ℤ) (ticks : ℕ) (mbuf : List Metrics) (hticks : ticks ≤ 2 ^ 36) :
    ∃ served batch : ℕ, served + batch = ticks ∧
      served = (List.range ticks).countP (fun i =>
        exp2Pick logic (metricsInit mbuf ticks) i = some INTERACTIVE) ∧
      (∀ i < ticks, ∃ j < N_TOTAL, exp2Pick logic (metricsInit mbuf ticks) i = some j ∧
        (j = INTERACTIVE → i % (INTERACTIVE_ON + INTERACTIVE_OFF) < INTERACTIVE_ON)) ∧
      served ≤ ticks / 10 * 5 + min (ticks % 10) 5 ∧
      (runExp2 logic ticks mbuf).interactiveExecRuntime.toNat = served * TICK_NS.toNat ∧
      (0 < ticks → (runExp2 logic ticks mbuf).interactiveCpuShare = served / ticks) ∧
      (runExp2 logic ticks mbuf).batchThroughput = batch * TICK_NS.toNat / N_BATCH ∧
      ((runExp2 logic ticks mbuf).batchAvgJain =
        if batch = 0 then 1
        else (batch : ℚ) ^ 2 / (batch ^ 2 + (batch % 10 * (10 - batch % 10) : ℕ))) ∧
      ∀ xs : List ℕ, xs.length = N_BATCH → xs.sum = batch → 0 < batch →
        Jain.index xs ≤ (runExp2 logic ticks mbuf).batchAvgJain := by
  obtain ⟨hexec, hshare, hthroughput, hjain⟩ := exp2_columns logic mbuf hticks
  have hlen := batchPicks_length (logicMode logic) logic ticks
  have hnear := batchPicks_level (logicMode logic) logic hticks
  refine ⟨_, _, picks_add_batch (logicMode logic) logic ticks, ?_, fun i _ => ?_,
    interactive_le (logicMode logic) logic ticks, hexec, hshare, hthroughput, ?_, ?_⟩
  · simp only [exp2Pick_eq]
    exact picksOf_mixedOps (logicMode logic) logic ticks INTERACTIVE
  · rw [exp2Pick_eq]
    obtain ⟨j, hj, hpick⟩ := exists_mixedPick (logicMode logic) logic i
    exact ⟨j, hj, hpick, fun h => on_of_mixedPick (logicMode logic) logic (h ▸ hpick)⟩
  · rw [hjain, batchIndex_of_level hlen hnear]
  · intro xs hxs hxsum hpos
    rw [hjain, if_neg hpos.ne']
    exact Jain.index_le_of_level (hxs.trans hlen.symm) hxsum hnear

theorem exp2_shares_default : ∃ served batch : ℕ, served + batch = 2000 ∧
    served = (List.range 2000).countP (fun i =>
      exp2Pick 3 (metricsInit (List.replicate 2000 Metrics.zeroed) (2000 : ℕ)) i = some INTERACTIVE) ∧
    (∀ i < 2000, ∃ j < N_TOTAL,
      exp2Pick 3 (metricsInit (List.replicate 2000 Metrics.zeroed) (2000 : ℕ)) i = some j ∧
        (j = INTERACTIVE → i % (INTERACTIVE_ON + INTERACTIVE_OFF) < INTERACTIVE_ON)) ∧
    served ≤ 2000 / 10 * 5 + min (2000 % 10) 5 ∧
    (runExp2 3 2000 (List.replicate 2000 Metrics.zeroed)).interactiveExecRuntime.toNat =
      served * TICK_NS.toNat ∧
    (0 < 2000 → (runExp2 3 2000 (List.replicate 2000 Metrics.zeroed)).interactiveCpuShare =
      served / (2000 : ℕ)) ∧
    (runExp2 3 2000 (List.replicate 2000 Metrics.zeroed)).batchThroughput =
      batch * TICK_NS.toNat / N_BATCH ∧
    ((runExp2 3 2000 (List.replicate 2000 Metrics.zeroed)).batchAvgJain =
      if batch = 0 then 1
      else (batch : ℚ) ^ 2 / (batch ^ 2 + (batch % 10 * (10 - batch % 10) : ℕ))) ∧
    ∀ xs : List ℕ, xs.length = N_BATCH → xs.sum = batch → 0 < batch →
      Jain.index xs ≤ (runExp2 3 2000 (List.replicate 2000 Metrics.zeroed)).batchAvgJain :=
  exp2_shares 3 2000 _ (by norm_num)

end ApexCfs
