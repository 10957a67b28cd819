import ApexCfs.Lib.ListLoop
import ApexCfs.Lib.MinScan
import ApexCfs.Spec.Run

/-! What one tick does. `mirrorTick` is the body of `exact_tick` with the math of
a mode in place of the exact one; every tick that picks a task is its mode's
mirror tick, and a tick changes the scheduling view of the picked task only. -/

namespace ApexCfs

open Machine MinScan ListLoop

theorem pick_eq_scan (rq : CfsRq) :
    exactPickNextTask rq =
      (scan (fun t : CfsTask => t.runnable = 1) CfsTask.vruntime rq.tasks).map Prod.fst := by
  unfold exactPickNextTask scan
  congr 2
  funext acc e
  unfold MinScan.step
  rcases acc with _ | ⟨i, k⟩ <;> rfl

/-- The pick is the first runnable task of least vruntime. -/
theorem pick_eq_some_iff (rq : CfsRq) (i : ℕ) :
    exactPickNextTask rq = some i ↔
      ∃ t, FirstMin (fun t : CfsTask => t.runnable = 1) CfsTask.vruntime rq.tasks i t := by
  rw [pick_eq_scan, scan_index_iff]

theorem pick_eq_none_iff (rq : CfsRq) :
    exactPickNextTask rq = none ↔ ∀ t ∈ rq.tasks, t.runnable ≠ 1 := by
  rw [pick_eq_scan, Option.map_eq_none_iff, scan_eq_none_iff]

theorem pick_congr {rq rq' : CfsRq} (h : rq.tasks = rq'.tasks) :
    exactPickNextTask rq = exactPickNextTask rq' := by
  rw [pick_eq_scan, pick_eq_scan, h]

-- By cases: comparing `rqTick rq` with `rq` itself would unfold the addition.
@[simp] theorem rqTick_tasks (rq : CfsRq) : (rqTick rq).tasks = rq.tasks := by
  cases rq; rfl

@[simp] theorem rqTick_tick (rq : CfsRq) : (rqTick rq).tick = rq.tick + 1 := by
  cases rq; rfl

@[simp] theorem rqTick_clock (rq : CfsRq) : (rqTick rq).clock = rq.clock + TICK_NS := by
  cases rq; rfl

@[simp] theorem rqTick_apafState (rq : CfsRq) : (rqTick rq).apafState = rq.apafState := by
  cases rq; rfl

@[simp] theorem pick_rqTick (rq : CfsRq) : exactPickNextTask (rqTick rq) = exactPickNextTask rq :=
  pick_congr (rqTick_tasks rq)

theorem vruntime_le_of_pick {rq : CfsRq} {i j : ℕ} {t u : CfsTask}
    (h : exactPickNextTask rq = some i) (ht : rq.tasks[i]? = some t) (hu : rq.tasks[j]? = some u)
    (hrun : u.runnable = 1) : t.vruntime ≤ u.vruntime := by
  obtain ⟨t', hmin⟩ := (pick_eq_some_iff rq i).mp h
  rw [hmin.get] at ht
  obtain rfl := Option.some.inj ht
  exact hmin.least j u hu hrun

theorem runnable_of_pick {rq : CfsRq} {i : ℕ} (h : exactPickNextTask rq = some i) :
    rq.isRunnable i := by
  obtain ⟨t, hmin⟩ := (pick_eq_some_iff rq i).mp h
  exact ⟨t, hmin.get, hmin.cand⟩

theorem updateCurr_eq (delta : UInt64 → UInt32 → UInt64) {rq : CfsRq} {i : ℕ}
    (h : rq.isRunnable i) :
    updateCurr delta rq i = { rq with tasks := rq.tasks.modify i (CfsTask.charge delta) } := by
  obtain ⟨t, ht, hrun⟩ := h
  have hne : t.runnable ≠ 0 := by omega
  simp only [updateCurr, ht, if_neg hne, set_eq_modify ht]

theorem updateLoadAvg_eq (decay : UInt64 → ℕ → UInt64) (rq : CfsRq) (i : ℕ) :
    updateLoadAvg decay rq i = { rq with tasks := rq.tasks.modify i (CfsTask.updateLoad decay) } := by
  unfold updateLoadAvg
  rcases h : rq.tasks[i]? with _ | t
  · rw [modify_of_none h]
  · simp only [set_eq_modify h]

/-- The load loop updates every task once; the state it reads never changes. -/
theorem forTasks_updateLoadAvg (decay : ℤ → UInt64 → ℕ → UInt64) (rq : CfsRq) :
    forTasks (fun rq i => updateLoadAvg (decay rq.apafState) rq i) rq =
      { rq with tasks := rq.tasks.map (CfsTask.updateLoad (decay rq.apafState)) } := by
  have hloop : ∀ (is : List ℕ) (rq : CfsRq),
      is.foldl (fun rq i => updateLoadAvg (decay rq.apafState) rq i) rq =
        { rq with tasks :=
            is.foldl (fun l i => l.modify i (CfsTask.updateLoad (decay rq.apafState))) rq.tasks } := by
    intro is
    induction is with
    | nil => intro rq; rfl
    | cons i is ih => intro rq; rw [List.foldl_cons, ih, updateLoadAvg_eq, List.foldl_cons]
  rw [forTasks, hloop, foldl_modify_eq_map]

def charged (m : Mode) (rq : CfsRq) : List CfsTask :=
  match exactPickNextTask rq with
  | some next => rq.tasks.modify next (CfsTask.charge (m.delta rq.apafState))
  | none => rq.tasks

/-- The body of `exact_tick` with the math functions of mode `m`, and for APAF
with `apaf_update_state` after the load updates. -/
def mirrorTick (m : Mode) (rq : CfsRq) : CfsRq :=
  let rq := rqTick rq
  let rq := match exactPickNextTask rq with
    | some next => updateCurr (m.delta rq.apafState) rq next
    | none => rq
  let rq := forTasks (fun rq i => updateLoadAvg (m.decay rq.apafState) rq i) rq
  let rq := if m = .apaf then apafUpdateState rq else rq
  let rq := updateJain rq
  rqCountRunning rq

def loaded (m : Mode) (rq : CfsRq) : CfsRq :=
  { rqTick rq with tasks := (charged m rq).map (CfsTask.updateLoad (m.decay rq.apafState)) }

theorem mirrorTick_eq (m : Mode) (rq : CfsRq) :
    mirrorTick m rq =
      rqCountRunning (updateJain (if m = .apaf then apafUpdateState (loaded m rq) else loaded m rq)) := by
  unfold mirrorTick loaded charged
  simp only [pick_rqTick]
  rcases h : exactPickNextTask rq with _ | i
  · simp only [forTasks_updateLoadAvg, rqTick_tasks, rqTick_apafState]
  · have hrun : (rqTick rq).isRunnable i := by
      simpa only [CfsRq.isRunnable, rqTick_tasks] using runnable_of_pick h
    simp only [updateCurr_eq _ hrun, forTasks_updateLoadAvg, rqTick_tasks, rqTick_apafState]

theorem exactTick_eq (rq : CfsRq) : exactTick rq = mirrorTick .exact rq := rfl

theorem tick_of_pick (m : Mode) {rq : CfsRq} {i : ℕ} (h : exactPickNextTask rq = some i) :
    m.tick rq = mirrorTick m rq := by
  have hp : exactPickNextTask (rqTick rq) = some i := by rw [pick_rqTick, h]
  cases m with
  | exact => exact exactTick_eq rq
  | bsa =>
    simp only [Mode.tick, bsaTick, bsaPickNextTask, hp, mirrorTick, Mode.delta, Mode.decay,
      bsaUpdateCurr, bsaUpdateLoadAvg, reduceCtorEq, if_false]
  | clti =>
    simp only [Mode.tick, cltiTick, cltiPickNextTask, hp, mirrorTick, Mode.delta, Mode.decay,
      cltiUpdateCurr, cltiUpdateLoadAvg, reduceCtorEq, if_false]
  | apaf =>
    simp only [Mode.tick, apafTick, apafPickNextTask, hp, mirrorTick, Mode.delta, Mode.decay,
      apafUpdateCurr, if_true]
    rfl

theorem tick_idle {m : Mode} (hm : m ≠ .exact) {rq : CfsRq} (h : exactPickNextTask rq = none) :
    m.tick rq = rqTick rq := by
  have hp : exactPickNextTask (rqTick rq) = none := by rw [pick_rqTick, h]
  cases m with
  | exact => exact absurd rfl hm
  | bsa => simp only [Mode.tick, bsaTick, bsaPickNextTask, hp]
  | clti => simp only [Mode.tick, cltiTick, cltiPickNextTask, hp]
  | apaf => simp only [Mode.tick, apafTick, apafPickNextTask, hp]

theorem tick_cases (m : Mode) (rq : CfsRq) :
    m.tick rq = mirrorTick m rq ∨
      (m ≠ .exact ∧ exactPickNextTask rq = none ∧ m.tick rq = rqTick rq) := by
  rcases h : exactPickNextTask rq with _ | i
  · by_cases hm : m = .exact
    · subst hm
      exact Or.inl (exactTick_eq rq)
    · exact Or.inr ⟨hm, rfl, tick_idle hm h⟩
  · exact Or.inl (tick_of_pick m h)

@[simp] theorem rqCountRunning_tasks (rq : CfsRq) : (rqCountRunning rq).tasks = rq.tasks := by
  unfold rqCountRunning; split_ifs <;> rfl

@[simp] theorem rqCountRunning_tick (rq : CfsRq) : (rqCountRunning rq).tick = rq.tick := by
  unfold rqCountRunning; split_ifs <;> rfl

@[simp] theorem rqCountRunning_clock (rq : CfsRq) : (rqCountRunning rq).clock = rq.clock := by
  unfold rqCountRunning; split_ifs <;> rfl

@[simp] theorem rqCountRunning_apafState (rq : CfsRq) :
    (rqCountRunning rq).apafState = rq.apafState := by
  unfold rqCountRunning; split_ifs <;> rfl

@[simp] theorem rqCountRunning_jainIndex (rq : CfsRq) :
    (rqCountRunning rq).jainIndex = rq.jainIndex := by
  unfold rqCountRunning; split_ifs <;> rfl

@[simp] theorem updateJain_tasks (rq : CfsRq) : (updateJain rq).tasks = rq.tasks := rfl

@[simp] theorem apafUpdateState_tasks (rq : CfsRq) : (apafUpdateState rq).tasks = rq.tasks := by
  simp only [apafUpdateState]; split_ifs <;> rfl

@[simp] theorem apafUpdateState_tick (rq : CfsRq) : (apafUpdateState rq).tick = rq.tick := by
  simp only [apafUpdateState]; split_ifs <;> rfl

@[simp] theorem apafUpdateState_clock (rq : CfsRq) : (apafUpdateState rq).clock = rq.clock := by
  simp only [apafUpdateState]; split_ifs <;> rfl

theorem mirrorTick_tasks (m : Mode) (rq : CfsRq) :
    (mirrorTick m rq).tasks = (charged m rq).map (CfsTask.updateLoad (m.decay rq.apafState)) := by
  rw [mirrorTick_eq]
  split_ifs <;> simp [loaded]

theorem mirrorTick_tick (m : Mode) (rq : CfsRq) : (mirrorTick m rq).tick = rq.tick + 1 := by
  rw [mirrorTick_eq]
  split_ifs <;> simp [loaded, updateJain]

theorem mirrorTick_clock (m : Mode) (rq : CfsRq) : (mirrorTick m rq).clock = rq.clock + TICK_NS := by
  rw [mirrorTick_eq]
  split_ifs <;> simp [loaded, updateJain]

theorem jain_rqCountRunning (rq : CfsRq) :
    fairnessJainIndex (rqCountRunning rq) = fairnessJainIndex rq := by
  simp only [fairnessJainIndex, rqCountRunning_tasks]

theorem mirrorTick_jainIndex (m : Mode) (rq : CfsRq) :
    (mirrorTick m rq).jainIndex = fairnessJainIndex (mirrorTick m rq) := by
  have hclose : ∀ q : CfsRq, (rqCountRunning (updateJain q)).jainIndex =
      fairnessJainIndex (rqCountRunning (updateJain q)) := by
    intro q
    rw [rqCountRunning_jainIndex, jain_rqCountRunning]
    rfl
  rw [mirrorTick_eq, hclose]

theorem jain_congr {rq rq' : CfsRq} (h : rq.tasks = rq'.tasks) :
    fairnessJainIndex rq = fairnessJainIndex rq' := by
  simp only [fairnessJainIndex, h]

/-- The controller sees the index that the tick then records. -/
theorem mirrorTick_apafState (m : Mode) (rq : CfsRq) :
    (mirrorTick m rq).apafState =
      if m = .apaf ∧ (rq.tick + 1) % APAF_MONITOR_INTERVAL = 0 then
        fairnessApafNextState rq.apafState (mirrorTick m rq).jainIndex
      else rq.apafState := by
  have htick : (loaded m rq).tick = rq.tick + 1 := by cases rq; rfl
  have hstate : (loaded m rq).apafState = rq.apafState := by cases rq; rfl
  have hjain : (mirrorTick m rq).jainIndex = fairnessJainIndex (loaded m rq) := by
    rw [mirrorTick_jainIndex]
    refine jain_congr ?_
    rw [mirrorTick_tasks]
    rfl
  rw [hjain, mirrorTick_eq, rqCountRunning_apafState]
  change (if m = .apaf then apafUpdateState (loaded m rq) else loaded m rq).apafState = _
  by_cases hm : m = .apaf
  · by_cases hmon : (rq.tick + 1) % APAF_MONITOR_INTERVAL = 0
    · simp only [hm, hmon, and_self, if_true]
      rw [← hm]
      simp only [apafUpdateState, htick, hmon, hstate, ne_eq, not_true_eq_false, if_false]
      split_ifs with hnext
      · exact hnext.symm
      · rfl
    · simp only [hm, hmon, and_false, if_true, if_false]
      rw [← hm]
      simp only [apafUpdateState, htick, hmon, ne_eq, not_false_eq_true, if_true, hstate]
  · simp only [hm, false_and, if_false, hstate]

theorem tick_tick (m : Mode) (rq : CfsRq) : (m.tick rq).tick = rq.tick + 1 := by
  rcases tick_cases m rq with h | ⟨-, -, h⟩
  · rw [h, mirrorTick_tick]
  · rw [h, rqTick_tick]

theorem tick_clock (m : Mode) (rq : CfsRq) : (m.tick rq).clock = rq.clock + TICK_NS := by
  rcases tick_cases m rq with h | ⟨-, -, h⟩
  · rw [h, mirrorTick_clock]
  · rw [h, rqTick_clock]

/-- A task without its two load figures. -/
def CfsTask.sched (t : CfsTask) : CfsTask := { t with loadAvg := 0, loadSum := 0 }

theorem updateLoad_sched (decay : UInt64 → ℕ → UInt64) (t : CfsTask) :
    (t.updateLoad decay).sched = t.sched := by
  simp only [CfsTask.updateLoad, CfsTask.sched]
  split_ifs <;> rfl

theorem fields_of_sched {t u : CfsTask} (h : t.sched = u.sched) :
    t.weight = u.weight ∧ t.vruntime = u.vruntime ∧ t.execRuntime = u.execRuntime ∧
      t.runnable = u.runnable := by
  simp only [CfsTask.sched, CfsTask.mk.injEq] at h
  obtain ⟨-, -, hw, hv, -, -, he, hr⟩ := h
  exact ⟨hw, hv, he, hr⟩

/-- Seen without loads, a tick charges the picked task and does nothing else. -/
theorem tick_sched (m : Mode) (rq : CfsRq) :
    (m.tick rq).tasks.map CfsTask.sched = (charged m rq).map CfsTask.sched := by
  rcases tick_cases m rq with h | ⟨-, hp, h⟩
  · rw [h, mirrorTick_tasks, List.map_map]
    congr 1
    funext t
    exact updateLoad_sched _ t
  · rw [h, rqTick_tasks, charged, hp]

theorem tick_length (m : Mode) (rq : CfsRq) : (m.tick rq).tasks.length = rq.tasks.length := by
  have h := congrArg List.length (tick_sched m rq)
  simp only [List.length_map] at h
  rw [h, charged]
  split <;> simp

theorem tick_task (m : Mode) {rq : CfsRq} {k : ℕ} {t : CfsTask} (ht : rq.tasks[k]? = some t) :
    ∃ t', (m.tick rq).tasks[k]? = some t' ∧
      t'.sched = (if exactPickNextTask rq = some k then t.charge (m.delta rq.apafState) else t).sched := by
  have h := congrArg (fun l : List CfsTask => l[k]?) (tick_sched m rq)
  simp only [List.getElem?_map] at h
  have hc : (charged m rq)[k]? =
      some (if exactPickNextTask rq = some k then t.charge (m.delta rq.apafState) else t) := by
    unfold charged
    rcases hp : exactPickNextTask rq with _ | i
    · simp [ht]
    · by_cases hik : i = k
      · simp [ht, hik]
      · simp [ht, hik]
  rw [hc, Option.map_some] at h
  obtain ⟨t', ht', hs⟩ := Option.map_eq_some_iff.mp h
  exact ⟨t', ht', hs⟩

theorem tick_picked (m : Mode) {rq : CfsRq} {k : ℕ} {t : CfsTask} (ht : rq.tasks[k]? = some t)
    (hp : exactPickNextTask rq = some k) :
    ∃ t', (m.tick rq).tasks[k]? = some t' ∧ t'.weight = t.weight ∧ t'.runnable = t.runnable ∧
      t'.vruntime = t.vruntime + m.delta rq.apafState TICK_NS t.weight.toUInt32 ∧
      t'.execRuntime = t.execRuntime + TICK_NS := by
  obtain ⟨t', ht', hs⟩ := tick_task m ht
  rw [if_pos hp] at hs
  obtain ⟨hw, hv, he, hr⟩ := fields_of_sched hs
  exact ⟨t', ht', hw, hr, hv, he⟩

theorem tick_other (m : Mode) {rq : CfsRq} {k : ℕ} {t : CfsTask} (ht : rq.tasks[k]? = some t)
    (hp : exactPickNextTask rq ≠ some k) :
    ∃ t', (m.tick rq).tasks[k]? = some t' ∧ t'.weight = t.weight ∧ t'.runnable = t.runnable ∧
      t'.vruntime = t.vruntime ∧ t'.execRuntime = t.execRuntime := by
  obtain ⟨t', ht', hs⟩ := tick_task m ht
  rw [if_neg hp] at hs
  obtain ⟨hw, hv, he, hr⟩ := fields_of_sched hs
  exact ⟨t', ht', hw, hr, hv, he⟩

/-- No mode scales the runtime of a task of weight 1024. -/
theorem delta_unit (m : Mode) (state : ℤ) (deltaExec : UInt64) :
    m.delta state deltaExec (1024 : UInt64).toUInt32 = deltaExec := by
  have h : (1024 : UInt64).toUInt32 = NICE_0_LOAD := by decide
  rw [h]
  cases m <;>
    simp only [Mode.delta, exactCalcDeltaFair, bsaVruntimeDelta, cltiVruntimeDelta,
      apafVruntimeDelta, if_true]

theorem taskSetRunnable_runnable (t : CfsTask) (r : ℤ) :
    (taskSetRunnable t r).runnable = if r = 1 then 1 else 0 := by
  unfold taskSetRunnable
  split_ifs <;> simp_all

theorem picks_iff {op : Op} {rq : CfsRq} {k : ℕ} : op.picks k rq ↔ op.pick rq = some k := by
  simp [Op.picks]

/-- Only a tick picks, and it picks what `exact_pick_next_task` returns. -/
theorem pick_of_picks {op : Op} {rq : CfsRq} {k : ℕ} (h : op.picks k rq) :
    op.isTick ∧ exactPickNextTask rq = some k := by
  rw [picks_iff] at h
  cases op with
  | tick m => exact ⟨rfl, h⟩
  | setRunnable i r => simp [Op.pick] at h

theorem exists_of_picks {op : Op} {rq : CfsRq} {k : ℕ} (h : op.picks k rq) : rq.isRunnable k :=
  runnable_of_pick (pick_of_picks h).2

theorem picks_unique {op : Op} {rq : CfsRq} {i j : ℕ} (hi : op.picks i rq) (hj : op.picks j rq) :
    i = j := by
  rw [picks_iff] at hi hj
  rw [hi] at hj
  exact Option.some.inj hj

/-- What one event does to task `k`, loads and runnable flag aside: a tick of
mode `m` that picks it adds one tick of runtime and its vruntime increment. -/
theorem apply_task {m : Mode} {op : Op} (hm : op.isMode m) {rq : CfsRq} {k : ℕ} {t : CfsTask}
    (ht : rq.tasks[k]? = some t) :
    ∃ t', (op.apply rq).tasks[k]? = some t' ∧ t'.weight = t.weight ∧
      t'.vruntime = (if op.picks k rq then
        t.vruntime + m.delta rq.apafState TICK_NS t.weight.toUInt32 else t.vruntime) ∧
      t'.execRuntime = (if op.picks k rq then t.execRuntime + TICK_NS else t.execRuntime) := by
  cases op with
  | tick m' =>
    obtain rfl : m' = m := hm
    have hpk : (Op.tick m').picks k rq ↔ exactPickNextTask rq = some k := picks_iff
    by_cases hp : exactPickNextTask rq = some k
    · obtain ⟨t', ht', hw, -, hv, he⟩ := tick_picked m' ht hp
      rw [if_pos (hpk.mpr hp), if_pos (hpk.mpr hp)]
      exact ⟨t', ht', hw, hv, he⟩
    · obtain ⟨t', ht', hw, -, hv, he⟩ := tick_other m' ht hp
      rw [if_neg (mt hpk.mp hp), if_neg (mt hpk.mp hp)]
      exact ⟨t', ht', hw, hv, he⟩
  | setRunnable i r =>
    refine ⟨if i = k then taskSetRunnable t r else t, ?_, ?_⟩
    · simp only [Op.apply, List.getElem?_modify, ht]
      rfl
    · simp only [Op.picks, Op.pick, reduceCtorEq, decide_false, Bool.false_eq_true, if_false, taskSetRunnable]
      split_ifs <;> exact ⟨rfl, rfl, rfl⟩

end ApexCfs
