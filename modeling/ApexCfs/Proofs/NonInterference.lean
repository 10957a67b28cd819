import ApexCfs.Proofs.Spread

/-! Loads never influence scheduling. Every function of a tick, the controller
included, reads only the view of a runqueue without loads; with all weights
1024 the four ticks moreover act alike on that view, the state aside. -/

namespace ApexCfs

open Machine MinScan

/-- A runqueue without the loads of its tasks. -/
def CfsRq.sched (rq : CfsRq) : CfsRq := { rq with tasks := rq.tasks.map CfsTask.sched }

@[simp] theorem sched_tasks (rq : CfsRq) : rq.sched.tasks = rq.tasks.map CfsTask.sched := rfl

@[simp] theorem sched_apafState (rq : CfsRq) : rq.sched.apafState = rq.apafState := rfl

@[simp] theorem sched_sched (rq : CfsRq) : rq.sched.sched = rq.sched := by
  unfold CfsRq.sched
  simp only [List.map_map]
  rfl

theorem pick_sched (rq : CfsRq) : exactPickNextTask rq.sched = exactPickNextTask rq := by
  rw [pick_eq_scan, pick_eq_scan, sched_tasks]
  exact congrArg _ (scan_map CfsTask.sched (fun _ => Iff.rfl) (fun _ => rfl) rq.tasks)

theorem jainSums_sched (tasks : List CfsTask) :
    jainSums (tasks.map CfsTask.sched) = jainSums tasks := by
  rw [jainSums, List.foldl_map]
  rfl

theorem jainIndex_sched (rq : CfsRq) : fairnessJainIndex rq.sched = fairnessJainIndex rq := by
  simp only [fairnessJainIndex, sched_tasks, List.length_map, jainSums_sched]

theorem countRunning_sched (tasks : List CfsTask) :
    countRunning (tasks.map CfsTask.sched) = countRunning tasks := by
  rw [countRunning, List.foldl_map]
  rfl

theorem rqTick_sched (rq : CfsRq) : rqTick rq.sched = (rqTick rq).sched := by
  cases rq; rfl

theorem updateJain_sched (rq : CfsRq) : updateJain rq.sched = (updateJain rq).sched := by
  rw [updateJain, jainIndex_sched]
  rfl

theorem rqCountRunning_sched (rq : CfsRq) :
    rqCountRunning rq.sched = (rqCountRunning rq).sched := by
  simp only [rqCountRunning, sched_tasks, List.length_map, countRunning_sched]
  split_ifs <;> rfl

theorem apafUpdateState_sched (rq : CfsRq) :
    apafUpdateState rq.sched = (apafUpdateState rq).sched := by
  simp only [apafUpdateState, jainIndex_sched, sched_apafState]
  have htick : rq.sched.tick = rq.tick := rfl
  rw [htick]
  split_ifs <;> rfl

theorem charge_sched (delta : UInt64 → UInt32 → UInt64) (t : CfsTask) :
    t.sched.charge delta = (t.charge delta).sched := by
  cases t; rfl

theorem charged_sched (m : Mode) (rq : CfsRq) :
    charged m rq.sched = (charged m rq).map CfsTask.sched := by
  unfold charged
  rw [pick_sched]
  rcases exactPickNextTask rq with _ | i
  · rfl
  · refine List.ext_getElem? fun k => ?_
    simp only [sched_tasks, sched_apafState, List.getElem?_modify, List.getElem?_map]
    rcases rq.tasks[k]? with _ | t
    · rfl
    · by_cases hik : i = k
      · simp [hik, charge_sched]
      · simp [hik]

theorem loaded_sched (m : Mode) (rq : CfsRq) :
    (loaded m rq.sched).sched = (loaded m rq).sched := by
  have htasks : ∀ ts : List CfsTask, ∀ decay,
      (ts.map (CfsTask.updateLoad decay)).map CfsTask.sched = ts.map CfsTask.sched := by
    intro ts decay
    rw [List.map_map]
    exact List.map_congr_left fun t _ => updateLoad_sched decay t
  have hidem : ∀ ts : List CfsTask, (ts.map CfsTask.sched).map CfsTask.sched = ts.map CfsTask.sched := by
    intro ts
    rw [List.map_map]
    rfl
  rw [loaded, loaded, rqTick_sched, charged_sched]
  unfold CfsRq.sched
  simp only [htasks, hidem]

theorem tick_reads_sched (m : Mode) (rq : CfsRq) : (m.tick rq.sched).sched = (m.tick rq).sched := by
  have hmirror : (mirrorTick m rq.sched).sched = (mirrorTick m rq).sched := by
    rw [mirrorTick_eq, mirrorTick_eq]
    split_ifs <;>
      simp only [← rqCountRunning_sched, ← updateJain_sched, ← apafUpdateState_sched, loaded_sched]
  rcases hp : exactPickNextTask rq with _ | i
  · have hp' : exactPickNextTask rq.sched = none := by rw [pick_sched, hp]
    by_cases hm : m = .exact
    · subst hm
      simpa only [Mode.tick, exactTick_eq] using hmirror
    · rw [tick_idle hm hp, tick_idle hm hp', rqTick_sched, sched_sched]
  · have hp' : exactPickNextTask rq.sched = some i := by rw [pick_sched, hp]
    rw [tick_of_pick m hp, tick_of_pick m hp', hmirror]

theorem setRunnable_sched (t : CfsTask) (r : ℤ) :
    (taskSetRunnable t.sched r).sched = (taskSetRunnable t r).sched := by
  unfold taskSetRunnable
  split_ifs <;> rfl

theorem apply_reads_sched (op : Op) (rq : CfsRq) :
    (op.apply rq.sched).sched = (op.apply rq).sched := by
  cases op with
  | tick m => exact tick_reads_sched m rq
  | setRunnable i r =>
    have htasks : ((rq.tasks.map CfsTask.sched).modify i (taskSetRunnable · r)).map CfsTask.sched =
        (rq.tasks.modify i (taskSetRunnable · r)).map CfsTask.sched := by
      refine List.ext_getElem? fun k => ?_
      simp only [List.getElem?_map, List.getElem?_modify]
      rcases rq.tasks[k]? with _ | t
      · rfl
      · by_cases hik : i = k
        · simp [hik, setRunnable_sched]
        · simp only [hik, if_false]
          rfl
    simp only [Op.apply, CfsRq.sched, htasks]

theorem apply_sched_congr {rq rq' : CfsRq} (h : rq.sched = rq'.sched) (op : Op) :
    (op.apply rq).sched = (op.apply rq').sched := by
  rw [← apply_reads_sched, h, apply_reads_sched]

theorem opPick_congr {rq rq' : CfsRq} (h : rq.tasks.map CfsTask.sched = rq'.tasks.map CfsTask.sched) :
    exactPickNextTask rq = exactPickNextTask rq' := by
  rw [← pick_sched rq, ← pick_sched rq']
  exact pick_congr h

/-- The events of two histories that differ in the mode of their ticks only. -/
def Op.sameEvent : Op → Op → Prop
  | .tick _, .tick _ => True
  | .setRunnable i r, .setRunnable j s => i = j ∧ r = s
  | _, _ => False

/-- Two runqueues that agree on their tasks, loads aside, and on both clocks. -/
structure SameView (rq rq' : CfsRq) : Prop where
  tasks : rq.tasks.map CfsTask.sched = rq'.tasks.map CfsTask.sched
  tick : rq.tick = rq'.tick
  clock : rq.clock = rq'.clock

theorem SameView.of_sched {rq rq' : CfsRq} (h : rq.sched = rq'.sched) : SameView rq rq' :=
  have htick : rq.sched.tick = rq'.sched.tick := congrArg CfsRq.tick h
  have hclock : rq.sched.clock = rq'.sched.clock := congrArg CfsRq.clock h
  ⟨congrArg CfsRq.tasks h, htick, hclock⟩

def CfsRq.unitWeights (rq : CfsRq) : Prop := ∀ t ∈ rq.tasks, t.weight = 1024

theorem charge_unit (m m' : Mode) (state state' : ℤ) {t : CfsTask} (ht : t.weight = 1024) :
    t.charge (m.delta state) = t.charge (m'.delta state') := by
  unfold CfsTask.charge
  simp only [ht, delta_unit]

theorem unitWeights_apply (op : Op) {rq : CfsRq} (h : rq.unitWeights) :
    (op.apply rq).unitWeights :=
  weights_apply (p := (· = 1024)) op h

/-- Ticks of any two modes charge the same runtime at weight 1024. -/
theorem tick_unit (m m' : Mode) {rq rq' : CfsRq} (h : SameView rq rq') (hw : rq.unitWeights) :
    SameView (m.tick rq) (m'.tick rq') := by
  refine ⟨?_, ?_, ?_⟩
  · rw [tick_sched, tick_sched, ← charged_sched, ← charged_sched]
    unfold charged
    rw [pick_sched, pick_sched, opPick_congr h.tasks, sched_tasks, sched_tasks, h.tasks]
    rcases exactPickNextTask rq' with _ | i
    -- no task is picked: both sides are the tasks as they were
    · simp only
    · refine List.ext_getElem? fun k => ?_
      simp only [List.getElem?_modify]
      rcases ht : (rq'.tasks.map CfsTask.sched)[k]? with _ | t
      · simp only [Option.map_eq_map, Option.map_none]
      · have hmem : t ∈ rq.tasks.map CfsTask.sched := by
          rw [h.tasks]
          exact List.mem_of_getElem? ht
        obtain ⟨u, hu, rfl⟩ := List.mem_map.mp hmem
        have hc := charge_unit m m' rq.sched.apafState rq'.sched.apafState (t := u.sched) (hw u hu)
        simp only [Option.map_eq_map, Option.map_some, hc]
  · rw [tick_tick, tick_tick, h.tick]
  · rw [tick_clock, tick_clock, h.clock]

theorem apply_unit {op op' : Op} (hop : op.sameEvent op') {rq rq' : CfsRq} (h : SameView rq rq')
    (hw : rq.unitWeights) : SameView (op.apply rq) (op'.apply rq') := by
  cases op with
  | tick m =>
    cases op' with
    | tick m' => exact tick_unit m m' h hw
    | setRunnable j s => exact hop.elim
  | setRunnable i r =>
    cases op' with
    | tick m' => exact hop.elim
    | setRunnable j s =>
      obtain ⟨rfl, rfl⟩ := hop
      refine ⟨?_, h.tick, h.clock⟩
      have hs : ∀ q : CfsRq, ((Op.setRunnable i r).apply q).tasks.map CfsTask.sched =
          ((q.tasks.map CfsTask.sched).modify i (taskSetRunnable · r)).map CfsTask.sched := by
        intro q
        exact (congrArg CfsRq.tasks (apply_reads_sched (.setRunnable i r) q)).symm
      rw [hs, hs, h.tasks]

theorem pick_of_sameEvent {op op' : Op} (hop : op.sameEvent op') {rq rq' : CfsRq}
    (h : SameView rq rq') : op.pick rq = op'.pick rq' := by
  cases op with
  | tick m =>
    cases op' with
    | tick m' => exact opPick_congr h.tasks
    | setRunnable j s => exact hop.elim
  | setRunnable i r =>
    cases op' with
    | tick m' => exact hop.elim
    | setRunnable j s => rfl

/-- Runqueues that differ in loads only stay so under any history, and so does
their schedule; at weight 1024 the two histories may even tick in different
modes. -/
theorem loads_never_schedule :
    (∀ (rq rq' : CfsRq) (ops : List Op), rq.sched = rq'.sched → ∀ n : ℕ,
      SameView (runOps rq (ops.take n)) (runOps rq' (ops.take n)) ∧
        ∀ op ∈ ops[n]?,
          op.pick (runOps rq (ops.take n)) = op.pick (runOps rq' (ops.take n))) ∧
    (∀ (rq rq' : CfsRq) (ops ops' : List Op), rq.sched = rq'.sched → rq.unitWeights →
      List.Forall₂ Op.sameEvent ops ops' → ∀ n : ℕ,
      SameView (runOps rq (ops.take n)) (runOps rq' (ops'.take n)) ∧
        ∀ op ∈ ops[n]?, ∀ op' ∈ ops'[n]?,
          op.pick (runOps rq (ops.take n)) = op'.pick (runOps rq' (ops'.take n))) := by
  refine ⟨?_, ?_⟩
  · intro rq rq' ops h n
    have hrun : (runOps rq (ops.take n)).sched = (runOps rq' (ops.take n)).sched := by
      refine run_simulation (R := fun s t : CfsRq => s.sched = t.sched) (A := Eq) ?_ h
        (List.forall₂_refl _)
      rintro s t a b hst rfl
      exact apply_sched_congr hst a
    refine ⟨SameView.of_sched hrun, fun op _ => ?_⟩
    cases op with
    | tick m => exact opPick_congr (congrArg CfsRq.tasks hrun)
    | setRunnable i r => rfl
  · intro rq rq' ops ops' h hw hops n
    have hrun : SameView (runOps rq (ops.take n)) (runOps rq' (ops'.take n)) ∧
        (runOps rq (ops.take n)).unitWeights := by
      refine run_simulation (R := fun s t => SameView s t ∧ s.unitWeights) (A := Op.sameEvent) ?_
        ⟨SameView.of_sched h, hw⟩ (List.forall₂_take n hops)
      rintro s t a b ⟨hst, hs⟩ hab
      exact ⟨apply_unit hab hst hs, unitWeights_apply a hs⟩
    refine ⟨hrun.1, fun op hop op' hop' => ?_⟩
    have hsame : op.sameEvent op' := by
      obtain ⟨hlen, hrel⟩ := List.forall₂_iff_get.mp hops
      obtain ⟨hn, rfl⟩ := List.getElem?_eq_some_iff.mp hop
      obtain ⟨hn', rfl⟩ := List.getElem?_eq_some_iff.mp hop'
      exact hrel n hn hn'
    exact pick_of_sameEvent hsame hrun.1

def twoTasks : CfsRq := freshRq [(0, 0), (1, 0)] 3

def twoLoadedTasks : CfsRq :=
  { twoTasks with tasks := twoTasks.tasks.map fun t => { t with loadSum := 5000, loadAvg := 107 } }

def apafHistory : List Op := [.tick .apaf, .setRunnable 0 0, .tick .apaf, .setRunnable 0 1]

def mixedHistory : List Op := [.tick .clti, .setRunnable 0 0, .tick .exact, .setRunnable 0 1]

theorem loads_never_schedule_two :
    (SameView (runOps twoTasks (apafHistory.take 2)) (runOps twoLoadedTasks (apafHistory.take 2)) ∧
      ∀ op ∈ apafHistory[2]?, op.pick (runOps twoTasks (apafHistory.take 2)) =
        op.pick (runOps twoLoadedTasks (apafHistory.take 2))) ∧
    (SameView (runOps twoTasks (apafHistory.take 2)) (runOps twoLoadedTasks (mixedHistory.take 2)) ∧
      ∀ op ∈ apafHistory[2]?, ∀ op' ∈ mixedHistory[2]?,
        op.pick (runOps twoTasks (apafHistory.take 2)) =
          op'.pick (runOps twoLoadedTasks (mixedHistory.take 2))) :=
  ⟨loads_never_schedule.1 twoTasks twoLoadedTasks apafHistory (by decide) 2,
    loads_never_schedule.2 twoTasks twoLoadedTasks apafHistory mixedHistory (by decide)
      (by unfold CfsRq.unitWeights; decide)
      (.cons trivial (.cons ⟨rfl, rfl⟩ (.cons trivial (.cons ⟨rfl, rfl⟩ .nil)))) 2⟩

end ApexCfs
