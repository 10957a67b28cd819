import ApexCfs.Proofs.Summary

/-! Experiment 2, mixed load. The interactive task is switched on for five ticks
and off for five; the batch tasks never block, so every tick picks a task and the
runqueue counts are in step with the flags. -/

namespace ApexCfs

open Machine ListLoop MinScan

def switchOp (i : ℕ) : Op :=
  .setRunnable INTERACTIVE (if i % (INTERACTIVE_ON + INTERACTIVE_OFF) < INTERACTIVE_ON then 1 else 0)

@[simp] theorem switchOp_isTick (i : ℕ) : (switchOp i).isTick = false := rfl

def mixedOps (m : Mode) (k : ℕ) : List Op := (List.range k).flatMap fun i => [switchOp i, .tick m]

def mixedRun (m : Mode) (mode : ℤ) (k : ℕ) : CfsRq := runOps (freshRq mixedTasks mode) (mixedOps m k)

theorem mixedOps_succ (m : Mode) (k : ℕ) : mixedOps m (k + 1) = mixedOps m k ++ [switchOp k, .tick m] := by
  simp [mixedOps, List.range_succ]

theorem mixedRun_succ (m : Mode) (mode : ℤ) (k : ℕ) :
    mixedRun m mode (k + 1) = m.tick ((switchOp k).apply (mixedRun m mode k)) := by
  rw [mixedRun, mixedOps_succ, runOps, run_append]
  rfl

theorem isMode_mixedOps (m : Mode) (k : ℕ) : ∀ op ∈ mixedOps m k, op.isMode m := by
  intro op hop
  obtain ⟨i, -, hi⟩ := List.mem_flatMap.mp hop
  rcases List.mem_pair.mp hi with rfl | rfl
  · trivial
  · rfl

structure BatchReady (rq : CfsRq) : Prop where
  length : rq.tasks.length = N_TOTAL
  runnable : ∀ (j : ℕ) (t : CfsTask), rq.tasks[j]? = some t → j ≠ INTERACTIVE → t.runnable = 1

theorem BatchReady.switch {rq : CfsRq} (h : BatchReady rq) (i : ℕ) :
    BatchReady ((switchOp i).apply rq) := by
  refine ⟨(apply_length _ rq).trans h.length, fun j t ht hj => ?_⟩
  have hsame : ((switchOp i).apply rq).tasks[j]? = rq.tasks[j]? := by
    simp only [switchOp, Op.apply, List.getElem?_modify, if_neg hj.symm]
    exact id_map _
  exact h.runnable j t (hsame ▸ ht) hj

theorem BatchReady.tick {rq : CfsRq} (h : BatchReady rq) (m : Mode) : BatchReady (m.tick rq) := by
  refine ⟨(tick_length m rq).trans h.length, fun j t' ht' hj => ?_⟩
  have hlt : j < rq.tasks.length := tick_length m rq ▸ (List.getElem?_eq_some_iff.mp ht').1
  have ht := List.getElem?_eq_getElem hlt
  obtain ⟨u, hu, hs⟩ := tick_task m ht
  obtain rfl := Option.some.inj (hu.symm.trans ht')
  have hold : rq.tasks[j].runnable = 1 := h.runnable j _ ht hj
  rw [(fields_of_sched hs).2.2.2]
  split_ifs <;> exact hold

theorem batchReady (m : Mode) (mode : ℤ) (k : ℕ) : BatchReady (mixedRun m mode k) := by
  induction k with
  | zero =>
    refine ⟨rfl, fun j t ht _ => ?_⟩
    exact unblocked_fresh mixedTasks mode t (List.mem_of_getElem? ht)
  | succ k ih => exact mixedRun_succ m mode k ▸ (ih.switch k).tick m

theorem BatchReady.isRunnable {rq : CfsRq} (h : BatchReady rq) {j : ℕ} (hj : j < N_TOTAL)
    (h0 : j ≠ INTERACTIVE) : rq.isRunnable j :=
  have ht := List.getElem?_eq_getElem (h.length.symm ▸ hj)
  ⟨_, ht, h.runnable j _ ht h0⟩

theorem BatchReady.exists_pick {rq : CfsRq} (h : BatchReady rq) :
    ∃ i, exactPickNextTask rq = some i := by
  rcases hp : exactPickNextTask rq with _ | i
  · obtain ⟨t, ht, hrun⟩ := h.isRunnable (j := 1) (by decide) (by decide)
    exact absurd hrun ((pick_eq_none_iff rq).mp hp t (List.mem_of_getElem? ht))
  · exact ⟨i, rfl⟩

/-- A tick that picks a task has counted the runnable ones already. -/
theorem rqCountRunning_of_pick (m : Mode) {rq : CfsRq} {i : ℕ} (h : exactPickNextTask rq = some i) :
    rqCountRunning (m.tick rq) = m.tick rq := by
  have hidem : ∀ q : CfsRq, rqCountRunning (rqCountRunning q) = rqCountRunning q := by
    intro q
    unfold rqCountRunning
    split_ifs <;> rfl
  rw [tick_of_pick m h, mirrorTick_eq, hidem]

def mixedPair (logic : ℤ) (k : ℕ) : Pair :=
  { exactRq := mixedRun .exact 0 k
    approxRq := mixedRun (logicMode logic) logic k }

theorem mixedPair_succ (logic : ℤ) (k : ℕ) : mixedPair logic (k + 1) =
    ((mixedPair logic k).setRunnable INTERACTIVE
      (if k % (INTERACTIVE_ON + INTERACTIVE_OFF) < INTERACTIVE_ON then 1 else 0)).tick logic := by
  rw [mixedPair, mixedRun_succ, mixedRun_succ]
  rfl

theorem rqCountRunning_mixedRun (m : Mode) (mode : ℤ) (k : ℕ) :
    rqCountRunning (mixedRun m mode (k + 1)) = mixedRun m mode (k + 1) := by
  obtain ⟨i, hi⟩ := ((batchReady m mode k).switch k).exists_pick
  rw [mixedRun_succ, rqCountRunning_of_pick m hi]

theorem exp2Switch_pair (s : Exp2State) (i : ℕ) : (exp2Switch s i).pair =
    s.pair.setRunnable INTERACTIVE
      (if i % (INTERACTIVE_ON + INTERACTIVE_OFF) < INTERACTIVE_ON then 1 else 0) := by
  simp only [exp2Switch]
  split_ifs <;> rfl

theorem exp2Wait_pair (s : Exp2State) : (exp2Wait s).pair = s.pair := by
  simp only [exp2Wait]
  split_ifs <;> rfl

theorem exp2Step_pair {logic : ℤ} {s : Exp2State} {k : ℕ} (h : s.pair = mixedPair logic k) :
    (exp2Step logic s k).pair = mixedPair logic (k + 1) := by
  have htick : (exp2Switch s k).pair.tick logic = mixedPair logic (k + 1) := by
    rw [exp2Switch_pair, h, ← mixedPair_succ]
  simp only [exp2Step, exp2Wait_pair, htick, mixedPair, rqCountRunning_mixedRun]

def exp2Run (logic : ℤ) (mbuf : List Metrics) (k : ℕ) : Exp2State :=
  (List.range k).foldl (exp2Step logic) (.init logic mbuf)

theorem exp2Run_succ (logic : ℤ) (mbuf : List Metrics) (k : ℕ) :
    exp2Run logic mbuf (k + 1) = exp2Step logic (exp2Run logic mbuf k) k := by
  rw [exp2Run, List.range_succ, List.foldl_append]
  rfl

theorem exp2Run_pair (logic : ℤ) (mbuf : List Metrics) (k : ℕ) :
    (exp2Run logic mbuf k).pair = mixedPair logic k := by
  induction k with
  | zero => rfl
  | succ k ih => rw [exp2Run_succ, exp2Step_pair ih]

/-- The scan that experiment 2 makes for itself finds the task that the scheduler
would pick, unless every runnable vruntime is the largest word. -/
theorem min_scan_is_pick (rq : CfsRq) :
    minVruntimeScan rq.tasks =
      if ∃ t ∈ rq.tasks, t.runnable = 1 ∧ t.vruntime < UINT64_MAX then exactPickNextTask rq
      else none := by
  have hscan : minVruntimeScan rq.tasks =
      (sentinelScan (fun t : CfsTask => t.runnable = 1) CfsTask.vruntime UINT64_MAX rq.tasks).2 := rfl
  rw [hscan]
  split_ifs with h
  · rw [sentinelScan_index h, pick_eq_scan]
  · exact sentinelScan_none h

/-- What the loop knows of the waits after `k` passes. -/
structure WaitColumns (k : ℕ) (s : Exp2State) : Prop where
  blocked : s.wasBlocked = decide (k % 10 = 0 ∨ 5 < k % 10)
  current : 1 ≤ k % 10 → k % 10 ≤ 5 → s.currentWait.toNat ≤ k % 10
  longest : s.maxWait.toNat ≤ 5
  events : s.waitEvents ≤ k
  sum : s.waitEvents ≤ s.sumWait.toNat ∧ s.sumWait.toNat ≤ 4 * s.waitEvents
  first : k ≤ 5 → s.currentWait.toNat = k
  reached : min k 5 ≤ s.maxWait.toNat

theorem switch_runnable (m : Mode) (mode : ℤ) (k : ℕ) :
    ((switchOp k).apply (mixedRun m mode k)).tasks[INTERACTIVE]?.map CfsTask.runnable =
      some (if k % 10 < 5 then 1 else 0) := by
  have hlt : INTERACTIVE < (mixedRun m mode k).tasks.length := by
    rw [(batchReady m mode k).length]
    decide
  obtain ⟨t, ht⟩ : ∃ t, (mixedRun m mode k).tasks[INTERACTIVE]? = some t :=
    ⟨_, List.getElem?_eq_getElem hlt⟩
  have hflag := taskSetRunnable_runnable t (if k % 10 < 5 then 1 else 0)
  have hget : ((switchOp k).apply (mixedRun m mode k)).tasks[INTERACTIVE]? =
      some (taskSetRunnable t (if k % 10 < 5 then 1 else 0)) := by
    simp only [switchOp, Op.apply, List.getElem?_modify, ht]
    rfl
  rw [hget, Option.map_some, hflag]
  split_ifs <;> first | rfl | contradiction

theorem interactive_runnable (m : Mode) (mode : ℤ) (k : ℕ) :
    (mixedRun m mode (k + 1)).tasks[INTERACTIVE]?.map CfsTask.runnable =
      some (if k % 10 < 5 then 1 else 0) := by
  obtain ⟨t, ht, hflag⟩ := Option.map_eq_some_iff.mp (switch_runnable m mode k)
  obtain ⟨u, hu, hs⟩ := tick_task m ht
  rw [mixedRun_succ, hu, Option.map_some, (fields_of_sched hs).2.2.2, ← hflag]
  split_ifs <;> rfl

/-- After each of the first five passes some batch task has a smaller vruntime. -/
theorem scan_first (logic : ℤ) {k : ℕ} (hk : k < 5) :
    minVruntimeScan (mixedRun (logicMode logic) logic (k + 1)).tasks ≠ some INTERACTIVE := by
  have hall : ∀ l ∈ [(0 : ℤ), 1, 2, 3], ∀ k ∈ List.range 5,
      minVruntimeScan (mixedRun (logicMode l) l (k + 1)).tasks ≠ some INTERACTIVE := by
    decide +kernel
  by_cases hl : logic ≠ 1 ∧ logic ≠ 2 ∧ logic ≠ 3
  · rw [mixedRun, freshRq_baseline hl, logicMode_baseline hl]
    exact hall 0 (by decide) k (List.mem_range.mpr hk)
  · refine hall logic ?_ k (List.mem_range.mpr hk)
    simp only [List.mem_cons, List.not_mem_nil]
    omega

def Exp2State.carried (s : Exp2State) : UInt64 := if s.wasBlocked then 0 else s.currentWait

theorem exp2Step_off {logic : ℤ} {s : Exp2State} {k : ℕ} (hpair : s.pair = mixedPair logic k)
    (hoff : ¬ k % 10 < 5) :
    (exp2Step logic s k).maxWait = s.maxWait ∧ (exp2Step logic s k).sumWait = s.sumWait ∧
      (exp2Step logic s k).waitEvents = s.waitEvents ∧ (exp2Step logic s k).wasBlocked = true := by
  have hflag := interactive_runnable (logicMode logic) logic k
  rw [if_neg hoff] at hflag
  have hcycle : ¬ k % (INTERACTIVE_ON + INTERACTIVE_OFF) < INTERACTIVE_ON := hoff
  have htick : (s.pair.setRunnable INTERACTIVE 0).tick logic = mixedPair logic (k + 1) := by
    rw [hpair, mixedPair_succ, if_neg hcycle]
  simp only [exp2Step, exp2Switch, if_neg hcycle, htick, exp2Wait, mixedPair, hflag]
  simp

theorem exp2Step_wait {logic : ℤ} {s : Exp2State} {k : ℕ} (hpair : s.pair = mixedPair logic k)
    (hon : k % 10 < 5) (hscan : minVruntimeScan (mixedRun (logicMode logic) logic (k + 1)).tasks ≠
      some INTERACTIVE) :
    (exp2Step logic s k).currentWait = s.carried + 1 ∧
      (exp2Step logic s k).maxWait =
        (if s.carried + 1 > s.maxWait then s.carried + 1 else s.maxWait) ∧
      (exp2Step logic s k).sumWait = s.sumWait ∧
      (exp2Step logic s k).waitEvents = s.waitEvents ∧ (exp2Step logic s k).wasBlocked = false := by
  have hflag := interactive_runnable (logicMode logic) logic k
  rw [if_pos hon] at hflag
  have hcycle : k % (INTERACTIVE_ON + INTERACTIVE_OFF) < INTERACTIVE_ON := hon
  have htick : (s.pair.setRunnable INTERACTIVE 1).tick logic = mixedPair logic (k + 1) := by
    rw [hpair, mixedPair_succ, if_pos hcycle]
  rcases hb : s.wasBlocked <;>
    simp [exp2Step, exp2Switch, hcycle, htick, hb, exp2Wait, mixedPair, hflag, hscan,
      Exp2State.carried]

theorem exp2Step_served {logic : ℤ} {s : Exp2State} {k : ℕ} (hpair : s.pair = mixedPair logic k)
    (hon : k % 10 < 5) (hscan : minVruntimeScan (mixedRun (logicMode logic) logic (k + 1)).tasks =
      some INTERACTIVE) :
    (exp2Step logic s k).currentWait = 0 ∧ (exp2Step logic s k).maxWait = s.maxWait ∧
      (exp2Step logic s k).sumWait =
        (if s.carried > 0 then s.sumWait + s.carried else s.sumWait) ∧
      (exp2Step logic s k).waitEvents =
        (if s.carried > 0 then s.waitEvents + 1 else s.waitEvents) ∧
      (exp2Step logic s k).wasBlocked = false := by
  have hflag := interactive_runnable (logicMode logic) logic k
  rw [if_pos hon] at hflag
  have hcycle : k % (INTERACTIVE_ON + INTERACTIVE_OFF) < INTERACTIVE_ON := hon
  have htick : (s.pair.setRunnable INTERACTIVE 1).tick logic = mixedPair logic (k + 1) := by
    rw [hpair, mixedPair_succ, if_pos hcycle]
  rcases hb : s.wasBlocked
  · by_cases hc : s.currentWait > 0 <;>
      simp [exp2Step, exp2Switch, hcycle, htick, hb, exp2Wait, mixedPair, hflag, hscan,
        Exp2State.carried, hc]
  · simp [exp2Step, exp2Switch, hcycle, htick, hb, exp2Wait, mixedPair, hflag, hscan,
      Exp2State.carried]

theorem WaitColumns.carried {k : ℕ} {s : Exp2State} (h : WaitColumns k s) (hon : k % 10 < 5) :
    s.carried.toNat ≤ k % 10 ∧ (k < 5 → s.carried.toNat = k) := by
  have hfirst := h.first
  by_cases h0 : k % 10 = 0
  · have hzero : s.carried.toNat = 0 := by
      rw [Exp2State.carried, h.blocked, if_pos (decide_eq_true (Or.inl h0))]
      rfl
    rw [hzero]
    omega
  · have hcarry : s.carried = s.currentWait := by
      rw [Exp2State.carried, h.blocked, if_neg]
      simp only [decide_eq_true_eq]
      omega
    have hcurrent := h.current (by omega) (by omega)
    rw [hcarry]
    exact ⟨hcurrent, fun hk => hfirst hk.le⟩

theorem WaitColumns.step {logic : ℤ} {s : Exp2State} {k : ℕ} (h : WaitColumns k s)
    (hpair : s.pair = mixedPair logic k) (hk : k < 2 ^ 61) :
    WaitColumns (k + 1) (exp2Step logic s k) := by
  have hlongest := h.longest
  have hevents := h.events
  have hsum := h.sum
  have hreached := h.reached
  by_cases hon : k % 10 < 5
  · obtain ⟨hcarried, hcount⟩ := h.carried hon
    by_cases hscan : minVruntimeScan (mixedRun (logicMode logic) logic (k + 1)).tasks =
      some INTERACTIVE
    · obtain ⟨hcur, hmax, hs, he, hb⟩ := exp2Step_served hpair hon hscan
      have hlate : 5 ≤ k := by
        by_contra hearly
        exact scan_first logic (not_le.mp hearly) hscan
      have hpos : s.carried > 0 ↔ 0 < s.carried.toNat := UInt64.lt_iff_toNat_lt
      have hsums : (exp2Step logic s k).waitEvents ≤ (exp2Step logic s k).sumWait.toNat ∧
          (exp2Step logic s k).sumWait.toNat ≤ 4 * (exp2Step logic s k).waitEvents ∧
          (exp2Step logic s k).waitEvents ≤ k + 1 := by
        rw [hs, he]
        split_ifs with hc
        · rw [hpos] at hc
          rw [Word.toNat_add_of_lt (by omega)]
          omega
        · omega
      refine ⟨?_, ?_, ?_, hsums.2.2, ⟨hsums.1, hsums.2.1⟩, ?_, ?_⟩
      · rw [hb, eq_comm, decide_eq_false_iff_not]
        omega
      · intro _ _
        rw [hcur]
        exact Nat.zero_le _
      · rwa [hmax]
      · omega
      · rw [hmax]
        omega
    · obtain ⟨hcur, hmax, hs, he, hb⟩ := exp2Step_wait hpair hon hscan
      have hinc : (s.carried + 1).toNat = s.carried.toNat + 1 :=
        Word.toNat_add_of_lt (by change _ + 1 < _; omega)
      have hmaxNat : (exp2Step logic s k).maxWait.toNat = max (s.carried.toNat + 1) s.maxWait.toNat := by
        rw [hmax, ← hinc]
        split_ifs with hlt
        · exact (max_eq_left (UInt64.lt_iff_toNat_lt.mp hlt).le).symm
        · exact (max_eq_right (UInt64.le_iff_toNat_le.mp (UInt64.not_lt.mp hlt))).symm
      refine ⟨?_, ?_, ?_, ?_, ?_, ?_, ?_⟩
      · rw [hb, eq_comm, decide_eq_false_iff_not]
        omega
      · rw [hcur, hinc]
        omega
      · rw [hmaxNat]
        omega
      · rw [he]
        omega
      · rwa [hs, he]
      · rw [hcur, hinc]
        omega
      · rw [hmaxNat]
        omega
  · obtain ⟨hmax, hs, he, hb⟩ := exp2Step_off hpair hon
    refine ⟨?_, ?_, ?_, ?_, ?_, ?_, ?_⟩
    · rw [hb, eq_comm, decide_eq_true_eq]
      omega
    · omega
    · rwa [hmax]
    · rw [he]
      omega
    · rwa [hs, he]
    · omega
    · rw [hmax]
      omega

end ApexCfs
