import ApexCfs.Proofs.Decay
import ApexCfs.Proofs.Tick

/-! How far the approximate ticks mirror the exact one. They return before the
updates when nothing is picked, so on an idle runqueue they agree with the
mirror tick only where that one has nothing to update. -/

namespace ApexCfs

open Idealised

/-- A tick of mode `m` on `rq` is the mirror tick, and leaves decayed loads, the
index of the new state and the number of its runnable tasks. -/
structure MirrorsExact (m : Mode) (rq : CfsRq) : Prop where
  mirror : m.tick rq = mirrorTick m rq
  decayed : ∀ (k : ℕ) (t : CfsTask), rq.tasks[k]? = some t →
    ∃ t', (m.tick rq).tasks[k]? = some t' ∧
      t'.loadSum = m.decay rq.apafState t.loadSum 1 + if t.runnable = 1 then t.weight else 0
  jain : (m.tick rq).jainIndex = fairnessJainIndex (m.tick rq)
  running : (m.tick rq).nrRunning = countRunning (m.tick rq).tasks

/-- The loads that one period of a mode leaves as they are. -/
def Mode.loadFixed : Mode → UInt64 → Prop
  | .exact, load => load = 0
  | .bsa, load => load < 32
  | .clti, load => load ≤ 36
  | .apaf, load => load = 0

/-- An idle runqueue whose loads, index, count and state are all at rest. -/
structure AtRest (m : Mode) (rq : CfsRq) : Prop where
  loads : ∀ t ∈ rq.tasks, m.loadFixed t.loadSum ∧ t.loadAvg = clampedLoadAvg t.weight t.loadSum
  jain : rq.jainIndex = .fin 1
  running : rq.nrRunning = 0
  settled : m = .apaf → (rq.tick + 1) % APAF_MONITOR_INTERVAL = 0 →
    rq.apafState ≠ APAF_TIGHT ∧ rq.apafState ≠ APAF_MEDIUM

theorem charged_loads (m : Mode) {rq : CfsRq} {k : ℕ} {t : CfsTask} (ht : rq.tasks[k]? = some t) :
    ∃ t', (charged m rq)[k]? = some t' ∧ t'.loadSum = t.loadSum ∧ t'.runnable = t.runnable ∧
      t'.weight = t.weight := by
  unfold charged
  rcases exactPickNextTask rq with _ | i
  · exact ⟨t, ht, rfl, rfl, rfl⟩
  · by_cases hik : i = k
    · exact ⟨t.charge (m.delta rq.apafState), by simp [ht, hik], rfl, rfl, rfl⟩
    · exact ⟨t, by simp [ht, hik], rfl, rfl, rfl⟩

theorem mirrorTick_loadSum (m : Mode) {rq : CfsRq} {k : ℕ} {t : CfsTask}
    (ht : rq.tasks[k]? = some t) :
    ∃ t', (mirrorTick m rq).tasks[k]? = some t' ∧
      t'.loadSum = m.decay rq.apafState t.loadSum 1 + if t.runnable = 1 then t.weight else 0 := by
  obtain ⟨u, hu, hs, hr, hw⟩ := charged_loads m ht
  refine ⟨u.updateLoad (m.decay rq.apafState), ?_, ?_⟩
  · rw [mirrorTick_tasks, List.getElem?_map, hu, Option.map_some]
  · rw [updateLoad_eq]
    simp only [CfsTask.nextLoadSum, hs, hr, hw]

theorem apafUpdateState_nrRunning (rq : CfsRq) : (apafUpdateState rq).nrRunning = rq.nrRunning := by
  simp only [apafUpdateState]; split_ifs <;> rfl

theorem apafUpdateState_approxMode (rq : CfsRq) :
    (apafUpdateState rq).approxMode = rq.approxMode := by
  simp only [apafUpdateState]; split_ifs <;> rfl

theorem rqTick_rest (rq : CfsRq) : (rqTick rq).nrRunning = rq.nrRunning ∧
    (rqTick rq).approxMode = rq.approxMode ∧ (rqTick rq).jainIndex = rq.jainIndex := by
  cases rq; exact ⟨rfl, rfl, rfl⟩

theorem rqCountRunning_approxMode (rq : CfsRq) :
    (rqCountRunning rq).approxMode = rq.approxMode := by
  unfold rqCountRunning; split_ifs <;> rfl

theorem mirrorTick_approxMode (m : Mode) (rq : CfsRq) :
    (mirrorTick m rq).approxMode = rq.approxMode := by
  have hl : (loaded m rq).approxMode = rq.approxMode := by cases rq; rfl
  have hclose : ∀ q : CfsRq, (rqCountRunning (updateJain q)).approxMode = q.approxMode := by
    intro q
    rw [rqCountRunning_approxMode]
    rfl
  rw [mirrorTick_eq, hclose]
  split_ifs
  · rw [apafUpdateState_approxMode, hl]
  · exact hl

theorem mirrorTick_length (m : Mode) (rq : CfsRq) :
    (mirrorTick m rq).tasks.length = rq.tasks.length := by
  rw [mirrorTick_tasks, List.length_map, charged]
  split <;> simp

theorem mirrorTick_nrRunning (m : Mode) (rq : CfsRq) :
    (mirrorTick m rq).nrRunning =
      if rq.tasks.length = 0 then rq.nrRunning else countRunning (mirrorTick m rq).tasks := by
  have hclose : ∀ q : CfsRq, (rqCountRunning (updateJain q)).nrRunning =
      if (rqCountRunning (updateJain q)).tasks.length = 0 then q.nrRunning
      else countRunning (rqCountRunning (updateJain q)).tasks := by
    intro q
    rw [rqCountRunning_tasks]
    unfold rqCountRunning
    split_ifs <;> rfl
  have hl : (loaded m rq).nrRunning = rq.nrRunning := by cases rq; rfl
  have hq : (if m = .apaf then apafUpdateState (loaded m rq) else loaded m rq).nrRunning =
      rq.nrRunning := by
    split_ifs
    · rw [apafUpdateState_nrRunning, hl]
    · exact hl
  rw [← mirrorTick_length m rq, mirrorTick_eq, hclose, hq]

theorem jainSums_idle {tasks : List CfsTask} (h : ∀ t ∈ tasks, t.runnable ≠ 1) :
    (jainSums tasks).n = 0 := by
  have hloop : ∀ (acc : JainSums) (ts : List CfsTask), (∀ t ∈ ts, t.runnable ≠ 1) →
      ts.foldl JainSums.step acc = acc := by
    intro acc ts
    induction ts with
    | nil => intro _; rfl
    | cons t ts ih =>
      intro hts
      have ht : t.runnable ≠ 1 := hts t (List.mem_cons_self ..)
      rw [List.foldl_cons, JainSums.step, if_neg ht]
      exact ih fun u hu => hts u (List.mem_cons_of_mem _ hu)
  rw [jainSums, hloop _ _ h]

theorem jainIndex_idle {rq : CfsRq} (h : ∀ t ∈ rq.tasks, t.runnable ≠ 1) :
    fairnessJainIndex rq = .fin 1 := by
  simp only [fairnessJainIndex, jainSums_idle h, JAIN_MIN_TASKS]
  split_ifs <;> first | rfl | omega

theorem countRunning_idle {tasks : List CfsTask} (h : ∀ t ∈ tasks, t.runnable ≠ 1) :
    countRunning tasks = 0 := by
  have hnil : tasks.filter (fun t => t.runnable = 1) = [] :=
    List.filter_eq_nil_iff.mpr fun t ht => by simpa using h t ht
  rw [countRunning_eq, hnil]
  rfl

theorem decay_fixed_iff {m : Mode} (hm : m ≠ .exact) (state : ℤ) (load : UInt64) :
    m.decay state load 1 = load ↔ m.loadFixed load := by
  cases m with
  | exact => exact absurd rfl hm
  | bsa => exact bsaDecayLoad_fixed_iff load
  | clti => exact cltiDecayLoad_fixed_iff load
  | apaf => exact apafDecayLoad_fixed_iff load state

theorem updateLoad_fixed_iff {m : Mode} (hm : m ≠ .exact) (state : ℤ) {t : CfsTask}
    (ht : t.runnable ≠ 1) :
    t.updateLoad (m.decay state) = t ↔
      m.loadFixed t.loadSum ∧ t.loadAvg = clampedLoadAvg t.weight t.loadSum := by
  have hnext : t.nextLoadSum (m.decay state) = m.decay state t.loadSum 1 := by
    rw [CfsTask.nextLoadSum, if_neg ht, UInt64.add_zero]
  rw [updateLoad_eq, hnext, ← decay_fixed_iff hm state]
  refine ⟨?_, ?_⟩
  · intro h
    have hs : m.decay state t.loadSum 1 = t.loadSum := congrArg CfsTask.loadSum h
    have ha : clampedLoadAvg t.weight (m.decay state t.loadSum 1) = t.loadAvg :=
      congrArg CfsTask.loadAvg h
    rw [hs] at ha
    exact ⟨hs, ha.symm⟩
  · rintro ⟨hs, ha⟩
    rw [hs, ← ha]

theorem nextState_one_eq_iff (state : ℤ) :
    fairnessApafNextState state (.fin 1) = state ↔ state ≠ APAF_TIGHT ∧ state ≠ APAF_MEDIUM := by
  have hclamp : (Double.fin 1).clampUnit = .fin 1 := Double.clampUnit_fin zero_le_one le_rfl
  have hup : JAIN_TIGHT_TO_MEDIUM < Double.fin 1 ∧ JAIN_MEDIUM_TO_LOOSE < Double.fin 1 := by
    simp only [JAIN_TIGHT_TO_MEDIUM, JAIN_MEDIUM_TO_LOOSE, Double.fin_lt_fin]
    norm_num
  have hdown : ¬ Double.fin 1 < JAIN_LOOSE_TO_MEDIUM ∧ ¬ Double.fin 1 < JAIN_MEDIUM_TO_TIGHT := by
    simp only [JAIN_LOOSE_TO_MEDIUM, JAIN_MEDIUM_TO_TIGHT, Double.fin_lt_fin]
    norm_num
  simp only [fairnessApafNextState, hclamp, hup, hdown, if_true, if_false]
  simp only [APAF_LOOSE, APAF_MEDIUM, APAF_TIGHT]
  split_ifs <;> omega

theorem charged_idle (m : Mode) {rq : CfsRq} (hp : exactPickNextTask rq = none) :
    charged m rq = rq.tasks := by
  rw [charged, hp]

theorem mirrorTick_idle_tasks_iff {m : Mode} (hm : m ≠ .exact) {rq : CfsRq}
    (h : ∀ t ∈ rq.tasks, t.runnable ≠ 1) :
    (mirrorTick m rq).tasks = rq.tasks ↔
      ∀ t ∈ rq.tasks, m.loadFixed t.loadSum ∧ t.loadAvg = clampedLoadAvg t.weight t.loadSum := by
  rw [mirrorTick_tasks, charged_idle m ((pick_eq_none_iff rq).mpr h)]
  refine ⟨?_, ?_⟩
  · intro he t ht
    have hfix : ∀ u ∈ rq.tasks, u.updateLoad (m.decay rq.apafState) = id u :=
      List.map_eq_map_iff.mp (he.trans rq.tasks.map_id.symm)
    exact (updateLoad_fixed_iff hm _ (h t ht)).mp (hfix t ht)
  · intro hfix
    calc rq.tasks.map (CfsTask.updateLoad (m.decay rq.apafState)) = rq.tasks.map id :=
          List.map_congr_left fun t ht => (updateLoad_fixed_iff hm _ (h t ht)).mpr (hfix t ht)
      _ = rq.tasks := rq.tasks.map_id

theorem mirrorTick_idle (m : Mode) {rq : CfsRq} (h : ∀ t ∈ rq.tasks, t.runnable ≠ 1)
    (hempty : rq.tasks ≠ [] ∨ rq.nrRunning = 0) :
    (mirrorTick m rq).jainIndex = .fin 1 ∧
      (mirrorTick m rq).apafState =
        (if m = .apaf ∧ (rq.tick + 1) % APAF_MONITOR_INTERVAL = 0 then
          fairnessApafNextState rq.apafState (.fin 1)
        else rq.apafState) ∧
      (mirrorTick m rq).nrRunning = 0 := by
  have hidle : ∀ t ∈ (mirrorTick m rq).tasks, t.runnable ≠ 1 := by
    intro t ht
    rw [mirrorTick_tasks, charged_idle m ((pick_eq_none_iff rq).mpr h)] at ht
    obtain ⟨u, hu, rfl⟩ := List.mem_map.mp ht
    rw [updateLoad_eq]
    exact h u hu
  have hjain : (mirrorTick m rq).jainIndex = .fin 1 := by
    rw [mirrorTick_jainIndex, jainIndex_idle hidle]
  refine ⟨hjain, ?_, ?_⟩
  · rw [mirrorTick_apafState, hjain]
  · rw [mirrorTick_nrRunning, countRunning_idle hidle]
    rcases hempty with hne | h0
    · exact if_neg fun hl => hne (List.length_eq_zero_iff.mp hl)
    · rw [h0, ite_self]

/-- On an idle runqueue the mirror tick only advances the clock exactly when
everything is at rest. -/
theorem mirrorTick_idle_iff {m : Mode} (hm : m ≠ .exact) {rq : CfsRq}
    (h : ∀ t ∈ rq.tasks, t.runnable ≠ 1) (hempty : rq.tasks ≠ [] ∨ rq.nrRunning = 0) :
    rqTick rq = mirrorTick m rq ↔ AtRest m rq := by
  obtain ⟨hnr, hmode, hj⟩ := rqTick_rest rq
  obtain ⟨hjain, hstate, hrun⟩ := mirrorTick_idle m h hempty
  refine ⟨?_, ?_⟩
  · intro he
    have htasks := congrArg CfsRq.tasks he
    have hjs := congrArg CfsRq.jainIndex he
    have hrs := congrArg CfsRq.nrRunning he
    have hst := congrArg CfsRq.apafState he
    rw [rqTick_tasks] at htasks
    rw [hj, hjain] at hjs
    rw [hnr, hrun] at hrs
    rw [rqTick_apafState, hstate] at hst
    refine ⟨(mirrorTick_idle_tasks_iff hm h).mp htasks.symm, hjs, hrs, fun ha hmon => ?_⟩
    rw [if_pos ⟨ha, hmon⟩] at hst
    exact (nextState_one_eq_iff _).mp hst.symm
  · rintro ⟨hloads, hjs, hrs, hset⟩
    refine CfsRq.ext ?_ ?_ ?_ ?_ ?_ ?_ ?_
    · rw [rqTick_tasks, (mirrorTick_idle_tasks_iff hm h).mpr hloads]
    · rw [hnr, hrun, hrs]
    · rw [rqTick_clock, mirrorTick_clock]
    · rw [rqTick_tick, mirrorTick_tick]
    · rw [hmode, mirrorTick_approxMode]
    · rw [rqTick_apafState, hstate]
      split_ifs with hmon
      · exact ((nextState_one_eq_iff _).mpr (hset hmon.1 hmon.2)).symm
      · rfl
    · rw [hj, hjain, hjs]

theorem mirrorTick_tasks_nil (m : Mode) {rq : CfsRq} (h : rq.tasks.length = 0) :
    (mirrorTick m rq).tasks = [] := by
  rw [← List.length_eq_zero_iff, mirrorTick_length, h]

theorem mirrorsExact_of_eq {m : Mode} {rq : CfsRq} (he : m.tick rq = mirrorTick m rq)
    (hempty : rq.tasks ≠ [] ∨ rq.nrRunning = 0) : MirrorsExact m rq := by
  refine ⟨he, fun k t ht => by rw [he]; exact mirrorTick_loadSum m ht, ?_, ?_⟩
  · rw [he]
    exact mirrorTick_jainIndex m rq
  · rw [he, mirrorTick_nrRunning]
    split_ifs with hl
    · rw [mirrorTick_tasks_nil m hl]
      exact hempty.resolve_left fun hne => hne (List.length_eq_zero_iff.mp hl)
    · rfl

theorem MirrorsExact.empty_count {m : Mode} {rq : CfsRq} (h : MirrorsExact m rq) :
    rq.tasks ≠ [] ∨ rq.nrRunning = 0 := by
  by_cases hl : rq.tasks.length = 0
  · have hrun := h.running
    rw [h.mirror, mirrorTick_nrRunning, if_pos hl, mirrorTick_tasks_nil m hl] at hrun
    exact Or.inr hrun
  · exact Or.inl fun hnil => hl (List.length_eq_zero_iff.mpr hnil)

/-- A tick mirrors the exact one exactly if it is exact, something is runnable,
or the idle runqueue is at rest; an empty task array has to report no task. -/
theorem tick_mirrors_iff (m : Mode) (rq : CfsRq) :
    MirrorsExact m rq ↔
      (m = .exact ∨ (∃ k, rq.isRunnable k) ∨ AtRest m rq) ∧ (rq.tasks ≠ [] ∨ rq.nrRunning = 0) := by
  by_cases hready : m = .exact ∨ ∃ k, rq.isRunnable k
  · have he : m.tick rq = mirrorTick m rq := by
      rcases hready with rfl | ⟨k, t, ht, hrun⟩
      · exact exactTick_eq rq
      · rcases tick_cases m rq with he | ⟨-, hp, -⟩
        · exact he
        · exact absurd hrun ((pick_eq_none_iff rq).mp hp t (List.mem_of_getElem? ht))
    exact ⟨fun hm => ⟨hready.imp_right Or.inl, hm.empty_count⟩, fun h => mirrorsExact_of_eq he h.2⟩
  · obtain ⟨hm, hnone⟩ := not_or.mp hready
    have hidle : ∀ t ∈ rq.tasks, t.runnable ≠ 1 := by
      intro t ht hrun
      obtain ⟨k, hk⟩ := List.mem_iff_getElem?.mp ht
      exact hnone ⟨k, t, hk, hrun⟩
    have he : m.tick rq = rqTick rq := tick_idle hm ((pick_eq_none_iff rq).mpr hidle)
    refine ⟨?_, ?_⟩
    · intro h
      have hmirror := h.mirror
      rw [he] at hmirror
      have hrest := (mirrorTick_idle_iff hm hidle h.empty_count).mp hmirror
      exact ⟨Or.inr (Or.inr hrest), h.empty_count⟩
    · rintro ⟨hrest, hempty⟩
      have hr : AtRest m rq := (hrest.resolve_left hm).resolve_left hnone
      exact mirrorsExact_of_eq (he.trans ((mirrorTick_idle_iff hm hidle hempty).mpr hr)) hempty

def blockedAfterTick (m : Mode) : CfsRq := runOps (freshRq [(0, 0)] 1) [.tick m, .setRunnable 0 0]

/-- With its only task blocked a runqueue keeps its load, its count of one and
its index in every approximate mode. -/
theorem idle_tick_stale : ¬ ∀ (m : Mode) (rq : CfsRq), MirrorsExact m rq := by
  intro h
  have hrun := (h .bsa (blockedAfterTick .bsa)).running
  revert hrun
  decide

end ApexCfs
