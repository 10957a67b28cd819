import ApexCfs.Lib.Race
import ApexCfs.Proofs.Tick

/-! The vruntimes of two tasks that stay runnable race each other: the pick
moves only the one that is not ahead. So their spread is bounded over runs of
any length, whatever the other tasks do. -/

namespace ApexCfs

open Machine

theorem apply_length (op : Op) (rq : CfsRq) : (op.apply rq).tasks.length = rq.tasks.length := by
  cases op with
  | tick m => exact tick_length m rq
  | setRunnable i r => exact List.length_modify ..

theorem Op.exists_isMode (op : Op) : ∃ m, op.isMode m := by
  cases op with
  | tick m => exact ⟨m, rfl⟩
  | setRunnable i r => exact ⟨.exact, trivial⟩

theorem apply_none (op : Op) {rq : CfsRq} {k : ℕ} (h : rq.tasks[k]? = none) :
    (op.apply rq).tasks[k]? = none := by
  rw [List.getElem?_eq_none_iff] at h ⊢
  rwa [apply_length]

theorem weights_apply {p : UInt64 → Prop} (op : Op) {rq : CfsRq} (h : ∀ t ∈ rq.tasks, p t.weight) :
    ∀ t ∈ (op.apply rq).tasks, p t.weight := by
  intro t' ht'
  obtain ⟨k, hk⟩ := List.mem_iff_getElem?.mp ht'
  obtain ⟨m, hm⟩ := op.exists_isMode
  rcases ht : rq.tasks[k]? with _ | t
  · rw [apply_none op ht] at hk
    exact absurd hk (by simp)
  · obtain ⟨u, hu, hw, -⟩ := apply_task hm ht
    obtain rfl := Option.some.inj (hu.symm.trans hk)
    rw [hw]
    exact h t (List.mem_of_getElem? ht)

theorem weightOf_apply {m : Mode} {op : Op} (hm : op.isMode m) (rq : CfsRq) (k : ℕ) :
    (op.apply rq).weightOf k = rq.weightOf k := by
  unfold CfsRq.weightOf
  rcases h : rq.tasks[k]? with _ | t
  · rw [apply_none op h]
  · obtain ⟨t', ht', hw, -, -⟩ := apply_task hm h
    rw [ht']
    exact hw

theorem vruntimeOf_apply_of_not_picks {m : Mode} {op : Op} (hm : op.isMode m) {rq : CfsRq} {k : ℕ}
    (hp : ¬ op.picks k rq) : (op.apply rq).vruntimeOf k = rq.vruntimeOf k := by
  unfold CfsRq.vruntimeOf
  rcases h : rq.tasks[k]? with _ | t
  · rw [apply_none op h]
  · obtain ⟨t', ht', -, hv, -⟩ := apply_task hm h
    rw [if_neg hp] at hv
    rw [ht', Option.map_some, Option.map_some, hv]

theorem vruntimeOf_apply_of_picks {m : Mode} {op : Op} (hm : op.isMode m) {rq : CfsRq} {k : ℕ}
    (hp : op.picks k rq)
    (hwrap : rq.vruntimeOf k +
      (m.delta rq.apafState TICK_NS (rq.weightOf k).toUInt32).toNat < 2 ^ 64) :
    (op.apply rq).vruntimeOf k =
      rq.vruntimeOf k + (m.delta rq.apafState TICK_NS (rq.weightOf k).toUInt32).toNat := by
  obtain ⟨t, ht, -⟩ := exists_of_picks hp
  obtain ⟨t', ht', -, hv, -⟩ := apply_task hm ht
  rw [if_pos hp] at hv
  simp only [CfsRq.vruntimeOf, CfsRq.weightOf, ht, ht', Option.map_some, Option.getD_some] at hwrap ⊢
  rw [hv, Word.toNat_add_of_lt hwrap]

theorem execRuntimeOf_apply_of_not_picks {m : Mode} {op : Op} (hm : op.isMode m) {rq : CfsRq}
    {k : ℕ} (hp : ¬ op.picks k rq) : (op.apply rq).execRuntimeOf k = rq.execRuntimeOf k := by
  unfold CfsRq.execRuntimeOf
  rcases h : rq.tasks[k]? with _ | t
  · rw [apply_none op h]
  · obtain ⟨t', ht', -, -, he⟩ := apply_task hm h
    rw [if_neg hp] at he
    rw [ht', Option.map_some, Option.map_some, he]

theorem execRuntimeOf_apply_of_picks {m : Mode} {op : Op} (hm : op.isMode m) {rq : CfsRq} {k : ℕ}
    (hp : op.picks k rq) (hwrap : rq.execRuntimeOf k + TICK_NS.toNat < 2 ^ 64) :
    (op.apply rq).execRuntimeOf k = rq.execRuntimeOf k + TICK_NS.toNat := by
  obtain ⟨t, ht, -⟩ := exists_of_picks hp
  obtain ⟨t', ht', -, -, he⟩ := apply_task hm ht
  rw [if_pos hp] at he
  simp only [CfsRq.execRuntimeOf, ht, ht', Option.map_some, Option.getD_some] at hwrap ⊢
  rw [he, Word.toNat_add_of_lt hwrap]

/-- A wrap only makes a runtime smaller. -/
theorem execRuntimeOf_apply_le {m : Mode} {op : Op} (hm : op.isMode m) (rq : CfsRq) (k : ℕ) :
    (op.apply rq).execRuntimeOf k ≤
      rq.execRuntimeOf k + if op.picks k rq then TICK_NS.toNat else 0 := by
  by_cases hp : op.picks k rq
  · obtain ⟨t, ht, -⟩ := exists_of_picks hp
    obtain ⟨t', ht', -, -, he⟩ := apply_task hm ht
    rw [if_pos hp] at he ⊢
    simp only [CfsRq.execRuntimeOf, ht, ht', Option.map_some, Option.getD_some]
    rw [he]
    exact Word.toNat_add_le _ _
  · rw [execRuntimeOf_apply_of_not_picks hm hp]
    exact Nat.le_add_right _ _

theorem delta_le_increment (m : Mode) (state : ℤ) (weight : UInt64) :
    (m.delta state TICK_NS weight.toUInt32).toNat ≤ m.increment weight := by
  cases m with
  | exact => exact le_max_left _ _
  | bsa => exact le_max_left _ _
  | clti => exact le_max_left _ _
  | apaf =>
    simp only [Mode.delta]
    rw [← apafVruntimeDelta_level]
    rcases apafLevel_cases state with h | h | h <;> rw [h]
    · exact le_max_left _ _
    · exact (le_max_left _ _).trans (le_max_right _ _)
    · exact (le_max_right _ _).trans (le_max_right _ _)

theorem increment_eq {m : Mode} (hm : m ≠ .apaf) (state : ℤ) (weight : UInt64) :
    m.increment weight = (m.delta state TICK_NS weight.toUInt32).toNat := by
  cases m with
  | apaf => exact absurd rfl hm
  | exact => simp [Mode.increment, Mode.delta]
  | bsa => simp [Mode.increment, Mode.delta]
  | clti => simp [Mode.increment, Mode.delta]

theorem vruntimeOf_le_of_picks {op : Op} {rq : CfsRq} {i j : ℕ} (hp : op.picks i rq)
    (hj : rq.isRunnable j) : rq.vruntimeOf i ≤ rq.vruntimeOf j := by
  obtain ⟨t, ht, -⟩ := exists_of_picks hp
  obtain ⟨u, hu, hrun⟩ := hj
  have hle := vruntime_le_of_pick (pick_of_picks hp).2 ht hu hrun
  simpa [CfsRq.vruntimeOf, ht, hu] using UInt64.le_iff_toNat_le.mp hle

def clocks (i j : ℕ) (rq : CfsRq) : ℤ × ℤ := (rq.vruntimeOf i, rq.vruntimeOf j)

theorem race_step {m : Mode} {op : Op} (hm : op.isMode m) {rq : CfsRq} {i j : ℕ} (hij : i ≠ j)
    (hi : op.isTick → rq.isRunnable i) (hj : op.isTick → rq.isRunnable j)
    (hwrap : ∀ k ∈ op.pick rq, rq.vruntimeOf k +
      (m.delta rq.apafState TICK_NS (rq.weightOf k).toUInt32).toNat < 2 ^ 64) :
    Race.Step (m.increment (rq.weightOf i) : ℤ) (m.increment (rq.weightOf j))
      (clocks i j rq) (clocks i j (op.apply rq)) := by
  unfold clocks
  by_cases hpi : op.picks i rq
  · have hpj : ¬ op.picks j rq := fun hpj => hij (picks_unique hpi hpj)
    rw [vruntimeOf_apply_of_picks hm hpi (hwrap i (picks_iff.mp hpi)),
      vruntimeOf_apply_of_not_picks hm hpj]
    push_cast
    exact .left (by exact_mod_cast vruntimeOf_le_of_picks hpi (hj (pick_of_picks hpi).1)) (Int.natCast_nonneg _)
      (by exact_mod_cast delta_le_increment m _ _)
  · by_cases hpj : op.picks j rq
    · rw [vruntimeOf_apply_of_picks hm hpj (hwrap j (picks_iff.mp hpj)),
        vruntimeOf_apply_of_not_picks hm hpi]
      push_cast
      exact .right (by exact_mod_cast vruntimeOf_le_of_picks hpj (hi (pick_of_picks hpj).1)) (Int.natCast_nonneg _)
        (by exact_mod_cast delta_le_increment m _ _)
    · rw [vruntimeOf_apply_of_not_picks hm hpi, vruntimeOf_apply_of_not_picks hm hpj]
      exact .rest _

theorem along_isMode {m : Mode} {ops : List Op} (h : ∀ op ∈ ops, op.isMode m) (rq : CfsRq) :
    Along Op.apply (fun _ op => op.isMode m) rq ops := by
  intro pre op post he
  exact h op (by rw [he]; simp)

theorem weightOf_runOps {m : Mode} {ops : List Op} (hm : ∀ op ∈ ops, op.isMode m) (rq : CfsRq)
    (k : ℕ) : (runOps rq ops).weightOf k = rq.weightOf k :=
  run_invariant (I := fun s => s.weightOf k = rq.weightOf k) rfl
    (fun s _ ha hs => (weightOf_apply ha s k).trans hs) (along_isMode hm rq)

theorem along_weightOf {m : Mode} {ops : List Op} (h : ∀ op ∈ ops, op.isMode m) (rq : CfsRq)
    (k : ℕ) : Along Op.apply (fun s _ => s.weightOf k = rq.weightOf k) rq ops := by
  intro pre op post he
  exact weightOf_runOps (fun op hop => h op (by rw [he]; simp [hop])) rq k

/-- Two tasks that are runnable at every tick of a history stay within the
larger of their starting spread and their increments. -/
theorem spread_le {m : Mode} {rq : CfsRq} {ops : List Op} {i j : ℕ}
    (hm : ∀ op ∈ ops, op.isMode m) (hi : RunnableAtTicks i rq ops) (hj : RunnableAtTicks j rq ops)
    (hwrap : NoVruntimeWrap m rq ops) :
    |((runOps rq ops).vruntimeOf i : ℤ) - (runOps rq ops).vruntimeOf j| ≤
      max |(rq.vruntimeOf i : ℤ) - rq.vruntimeOf j|
        (max (m.increment (rq.weightOf i)) (m.increment (rq.weightOf j))) := by
  by_cases hij : i = j
  · subst hij
    simp
  · have hrun : Relation.ReflTransGen
        (Race.Step (m.increment (rq.weightOf i) : ℤ) (m.increment (rq.weightOf j)))
        (clocks i j rq) (clocks i j (run Op.apply rq ops)) := by
      refine run_refines (clocks i j) ?_ (((along_isMode hm rq).and (along_weightOf hm rq i)).and
        (((along_weightOf hm rq j).and hwrap).and (hi.and hj)))
      rintro s op ⟨⟨hop, hwi⟩, ⟨hwj, hno⟩, hri, hrj⟩
      rw [← hwi, ← hwj]
      exact race_step hop hij hri hrj hno
    exact Race.gap_race hrun

theorem picks_step {m : Mode} (hne : m ≠ .apaf) {rq0 : CfsRq} {k : ℕ} (s : CfsRq) (op : Op)
    (h : (op.isMode m ∧ s.weightOf k = rq0.weightOf k) ∧ ∀ k ∈ op.pick s, s.vruntimeOf k +
      (m.delta s.apafState TICK_NS (s.weightOf k).toUInt32).toNat < 2 ^ 64) :
    (op.apply s).vruntimeOf k =
      s.vruntimeOf k + if op.picks k s then m.increment (rq0.weightOf k) else 0 := by
  obtain ⟨⟨hm, hw⟩, hwrap⟩ := h
  by_cases hp : op.picks k s
  · rw [if_pos hp, vruntimeOf_apply_of_picks hm hp (hwrap k (picks_iff.mp hp)), ← hw,
      increment_eq hne s.apafState]
  · rw [if_neg hp, vruntimeOf_apply_of_not_picks hm hp, Nat.add_zero]

/-- Outside APAF a vruntime counts the picks. -/
theorem vruntimeOf_eq_picks {m : Mode} (hne : m ≠ .apaf) {rq : CfsRq} {ops : List Op}
    (hm : ∀ op ∈ ops, op.isMode m) (hwrap : NoVruntimeWrap m rq ops) (k : ℕ) :
    (runOps rq ops).vruntimeOf k =
      rq.vruntimeOf k + picksOf rq ops k * m.increment (rq.weightOf k) :=
  run_counter (fun s => s.vruntimeOf k) _ (picks_step hne)
    (((along_isMode hm rq).and (along_weightOf hm rq k)).and hwrap)

theorem freshRq_task {specs : List (ℤ × ℤ)} {mode : ℤ} {k : ℕ} {t : CfsTask}
    (h : (freshRq specs mode).tasks[k]? = some t) :
    t.weight ∈ niceToWeight ∧ t.vruntime = 0 ∧ t.execRuntime = 0 := by
  simp only [freshRq, rqInit, List.getElem?_map, Option.map_eq_some_iff] at h
  obtain ⟨s, -, rfl⟩ := h
  exact ⟨taskCreate_weight_mem _ _, rfl, rfl⟩

theorem freshRq_vruntimeOf (specs : List (ℤ × ℤ)) (mode : ℤ) (k : ℕ) :
    (freshRq specs mode).vruntimeOf k = 0 := by
  unfold CfsRq.vruntimeOf
  rcases h : (freshRq specs mode).tasks[k]? with _ | t
  · rfl
  · simp [(freshRq_task h).2.1]

theorem fresh_spread_le {m : Mode} (hne : m ≠ .apaf) {specs : List (ℤ × ℤ)} {mode : ℤ}
    {ops : List Op} {i j : ℕ} (hm : ∀ op ∈ ops, op.isMode m)
    (hi : RunnableAtTicks i (freshRq specs mode) ops)
    (hj : RunnableAtTicks j (freshRq specs mode) ops)
    (hwrap : NoVruntimeWrap m (freshRq specs mode) ops) :
    |((picksOf (freshRq specs mode) ops i * m.increment ((freshRq specs mode).weightOf i) : ℕ) : ℤ) -
        (picksOf (freshRq specs mode) ops j * m.increment ((freshRq specs mode).weightOf j) : ℕ)| ≤
      max (m.increment ((freshRq specs mode).weightOf i))
        (m.increment ((freshRq specs mode).weightOf j)) := by
  have h := spread_le hm hi hj hwrap
  rw [vruntimeOf_eq_picks hne hm hwrap, vruntimeOf_eq_picks hne hm hwrap, freshRq_vruntimeOf,
    freshRq_vruntimeOf, Nat.zero_add, Nat.zero_add, sub_self, abs_zero] at h
  rw [Nat.cast_max]
  exact h.trans (max_le (le_max_of_le_left (Int.natCast_nonneg _)) le_rfl)

/-- Over any interval of a run, two tasks that are runnable at its ticks stay
within the larger of the spread at its start and their increments; from a fresh
start the same holds of the picks weighted by the increments. -/
theorem vruntime_spread :
    (∀ (m : Mode) (rq : CfsRq) (pre ops : List Op) (i j : ℕ), (∀ op ∈ pre ++ ops, op.isMode m) →
      RunnableAtTicks i (runOps rq pre) ops → RunnableAtTicks j (runOps rq pre) ops →
      NoVruntimeWrap m (runOps rq pre) ops → ∀ n : ℕ,
      |((runOps rq (pre ++ ops.take n)).vruntimeOf i : ℤ) -
          (runOps rq (pre ++ ops.take n)).vruntimeOf j| ≤
        max |((runOps rq pre).vruntimeOf i : ℤ) - (runOps rq pre).vruntimeOf j|
          (max (m.increment (rq.weightOf i)) (m.increment (rq.weightOf j)))) ∧
    (∀ (m : Mode) (specs : List (ℤ × ℤ)) (mode : ℤ) (ops : List Op) (i j : ℕ), m ≠ .apaf →
      (∀ op ∈ ops, op.isMode m) → RunnableAtTicks i (freshRq specs mode) ops →
      RunnableAtTicks j (freshRq specs mode) ops → NoVruntimeWrap m (freshRq specs mode) ops →
      |((picksOf (freshRq specs mode) ops i * m.increment ((freshRq specs mode).weightOf i) : ℕ) : ℤ) -
          (picksOf (freshRq specs mode) ops j * m.increment ((freshRq specs mode).weightOf j) : ℕ)| ≤
        max (m.increment ((freshRq specs mode).weightOf i))
          (m.increment ((freshRq specs mode).weightOf j))) := by
  refine ⟨fun m rq pre ops i j hm hi hj hwrap n => ?_,
    fun m specs mode ops i j hne hm hi hj hwrap => fresh_spread_le hne hm hi hj hwrap⟩
  have hpre : ∀ op ∈ pre, op.isMode m := fun op hop => hm op (List.mem_append_left _ hop)
  have htake : ∀ op ∈ ops.take n, op.isMode m := fun op hop =>
    hm op (List.mem_append_right _ (List.mem_of_mem_take hop))
  have h := spread_le htake (along_take n hi) (along_take n hj) (along_take n hwrap)
  rw [weightOf_runOps hpre, weightOf_runOps hpre] at h
  have happ : runOps rq (pre ++ ops.take n) = runOps (runOps rq pre) (ops.take n) :=
    run_append rq pre (ops.take n)
  rw [happ]
  exact h

def threeTasks : List (ℤ × ℤ) := [(0, 0), (1, 5), (2, -3)]

/-- Three BSA ticks with the third task blocking after the first one. -/
def blockingHistory : List Op := [.tick .bsa, .setRunnable 2 0, .tick .bsa, .tick .bsa]

theorem vruntime_spread_blocking :
    |((runOps (freshRq threeTasks 1) ([] ++ blockingHistory.take 4)).vruntimeOf 0 : ℤ) -
        (runOps (freshRq threeTasks 1) ([] ++ blockingHistory.take 4)).vruntimeOf 1| ≤
      max |((runOps (freshRq threeTasks 1) []).vruntimeOf 0 : ℤ) -
          (runOps (freshRq threeTasks 1) []).vruntimeOf 1|
        (max (Mode.increment .bsa ((freshRq threeTasks 1).weightOf 0))
          (Mode.increment .bsa ((freshRq threeTasks 1).weightOf 1))) ∧
    |((picksOf (freshRq threeTasks 1) blockingHistory 0 *
          Mode.increment .bsa ((freshRq threeTasks 1).weightOf 0) : ℕ) : ℤ) -
        (picksOf (freshRq threeTasks 1) blockingHistory 1 *
          Mode.increment .bsa ((freshRq threeTasks 1).weightOf 1) : ℕ)| ≤
      max (Mode.increment .bsa ((freshRq threeTasks 1).weightOf 0))
        (Mode.increment .bsa ((freshRq threeTasks 1).weightOf 1)) :=
  ⟨vruntime_spread.1 .bsa (freshRq threeTasks 1) [] blockingHistory 0 1 (by decide)
      (by decide) (by decide) (by decide) 4,
    vruntime_spread.2 .bsa threeTasks 1 blockingHistory 0 1 (by decide) (by decide)
      (by decide) (by decide) (by decide)⟩

end ApexCfs
