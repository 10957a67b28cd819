import ApexCfs.Lib.Waiting
import ApexCfs.Proofs.ShortRuns

/-! No runnable task starves. While a task waits, every tick lets another one
before it that is not ahead in vruntime; each of the others can be let before
only as often as its vruntime still fits below that of the waiting one. -/

namespace ApexCfs

open Machine Waiting

/-- The least vruntime that a task of the given weight gains in one tick, over
the three states. -/
def Mode.minIncrement (m : Mode) (weight : UInt64) : ℕ :=
  min (m.delta APAF_TIGHT TICK_NS weight.toUInt32).toNat
    (min (m.delta APAF_MEDIUM TICK_NS weight.toUInt32).toNat
      (m.delta APAF_LOOSE TICK_NS weight.toUInt32).toNat)

theorem minIncrement_le_delta (m : Mode) (state : ℤ) (weight : UInt64) :
    m.minIncrement weight ≤ (m.delta state TICK_NS weight.toUInt32).toNat := by
  cases m with
  | exact => exact min_le_left _ _
  | bsa => exact min_le_left _ _
  | clti => exact min_le_left _ _
  | apaf =>
    simp only [Mode.delta]
    rw [← apafVruntimeDelta_level _ _ state]
    rcases apafLevel_cases state with h | h | h <;> rw [h]
    · exact min_le_left _ _
    · exact (min_le_right _ _).trans (min_le_left _ _)
    · exact (min_le_right _ _).trans (min_le_right _ _)

theorem minIncrement_pos (m : Mode) : ∀ w ∈ niceToWeight, 0 < m.minIncrement w := by
  cases m with
  | exact => exact forall_niceToWeight (by decide)
  | bsa => exact forall_niceToWeight (by decide)
  | clti => exact forall_niceToWeight (by decide)
  | apaf => exact forall_niceToWeight (by decide)

def strides (m : Mode) (rq : CfsRq) (i : ℕ) : ℕ := m.minIncrement (rq.weightOf i)

def othersOf (rq : CfsRq) (k : ℕ) : Finset ℕ := (Finset.range rq.tasks.length).erase k

structure Waits (rq0 : CfsRq) (k : ℕ) (rq : CfsRq) : Prop where
  weights : TableWeights rq
  weightOf : ∀ i, rq.weightOf i = rq0.weightOf i
  length : rq.tasks.length = rq0.tasks.length
  vruntime : rq.vruntimeOf k = rq0.vruntimeOf k

theorem Waits.apply {m : Mode} {op : Op} (hm : op.isMode m) {rq0 rq : CfsRq} {k : ℕ}
    (hp : ¬ op.picks k rq) (h : Waits rq0 k rq) : Waits rq0 k (op.apply rq) :=
  ⟨tableWeights_apply h.weights op, fun i => (weightOf_apply hm rq i).trans (h.weightOf i),
    (apply_length op rq).trans h.length, (vruntimeOf_apply_of_not_picks hm hp).trans h.vruntime⟩

theorem exists_move {m : Mode} {op : Op} (hm : op.isMode m) (htick : op.isTick) {rq0 rq : CfsRq}
    {k : ℕ} (h : Waits rq0 k rq) (hrun : rq.isRunnable k) (hp : ¬ op.picks k rq)
    (hwrap : ∀ i ∈ op.pick rq, rq.vruntimeOf i +
      (m.delta rq.apafState TICK_NS (rq.weightOf i).toUInt32).toNat < 2 ^ 64) :
    ∃ i ∈ othersOf rq0 k, 0 < strides m rq0 i ∧
      Move (strides m rq0) (rq0.vruntimeOf k) i rq.vruntimeOf (op.apply rq).vruntimeOf := by
  obtain ⟨u, hu, hru⟩ := hrun
  have hpick : ∃ i, op.pick rq = some i := by
    cases op with
    | setRunnable i r => simp [Op.isTick] at htick
    | tick m' =>
      rcases hnone : exactPickNextTask rq with _ | i
      · exact absurd hru ((pick_eq_none_iff rq).mp hnone u (List.mem_of_getElem? hu))
      · exact ⟨i, hnone⟩
  obtain ⟨i, hi⟩ := hpick
  have hpi : op.picks i rq := picks_iff.mpr hi
  have hik : i ≠ k := fun he => hp (he ▸ hpi)
  obtain ⟨t, ht, -⟩ := exists_of_picks hpi
  have hmem := h.weights.weightOf_mem ht
  have hlt : i < rq0.tasks.length := h.length ▸ (List.getElem?_eq_some_iff.mp ht).1
  refine ⟨i, Finset.mem_erase.mpr ⟨hik, Finset.mem_range.mpr hlt⟩, ?_, ?_, ?_, ?_⟩
  · rw [strides, ← h.weightOf i]
    exact minIncrement_pos m _ hmem
  · rw [← h.vruntime]
    exact vruntimeOf_le_of_picks hpi ⟨u, hu, hru⟩
  · rw [vruntimeOf_apply_of_picks hm hpi (hwrap i hi), strides, ← h.weightOf i]
    exact Nat.add_le_add_left (minIncrement_le_delta m _ _) _
  · exact fun j hj => vruntimeOf_apply_of_not_picks hm fun hpj => hj (picks_unique hpj hpi)

theorem wait_step {m : Mode} {rq0 : CfsRq} {k : ℕ} (rq : CfsRq) (op : Op)
    (h : (((op.isMode m ∧ (op.isTick → rq.isRunnable k)) ∧ ∀ i ∈ op.pick rq, rq.vruntimeOf i +
      (m.delta rq.apafState TICK_NS (rq.weightOf i).toUInt32).toNat < 2 ^ 64) ∧
        op.picks k rq = false) ∧ Waits rq0 k rq) :
    budget (strides m rq0) (rq0.vruntimeOf k) (othersOf rq0 k) (op.apply rq).vruntimeOf +
        (if op.isTick then 1 else 0) ≤
      budget (strides m rq0) (rq0.vruntimeOf k) (othersOf rq0 k) rq.vruntimeOf := by
  obtain ⟨⟨⟨⟨hm, hrun⟩, hwrap⟩, hp⟩, hwait⟩ := h
  by_cases htick : op.isTick
  · obtain ⟨i, hi, hpos, hmove⟩ := exists_move hm htick hwait (hrun htick) (by simp [hp]) hwrap
    rw [if_pos htick]
    exact budget_move hi hpos hmove
  · rw [if_neg htick, Nat.add_zero, budget_congr]
    exact fun j _ => vruntimeOf_apply_of_not_picks hm fun hpj => htick (pick_of_picks hpj).1

/-- From any runqueue of table weights, whatever the other tasks do: a task that
stays runnable and is not picked sees each other task at most once more than its
vruntime fits below its own. -/
theorem wait_bounded (m : Mode) (rq : CfsRq) (ops : List Op) (k : ℕ) (hw : TableWeights rq)
    (hm : ∀ op ∈ ops, op.isMode m) (hrun : RunnableAtTicks k rq ops) (hwrap : NoVruntimeWrap m rq ops)
    (hwait : picksOf rq ops k = 0) :
    ops.countP Op.isTick ≤ ∑ i ∈ (Finset.range rq.tasks.length).erase k,
      (rq.vruntimeOf k + m.minIncrement (rq.weightOf i) - rq.vruntimeOf i) /
        m.minIncrement (rq.weightOf i) := by
  have hsteps := (((along_isMode hm rq).and hrun).and hwrap).and (along_of_countAlong_eq_zero hwait)
  have hall := hsteps.and_invariant (I := Waits rq k) ⟨hw, fun _ => rfl, rfl, rfl⟩
    fun s op hs h => h.apply hs.1.1.1 (by simp [hs.2])
  have hbudget := run_budget (P := fun _ op => op.isTick)
    (fun s => budget (strides m rq) (rq.vruntimeOf k) (othersOf rq k) s.vruntimeOf)
    (fun s op hs => wait_step s op hs) hall
  rw [countAlong_const] at hbudget
  exact (Nat.le_add_left _ _).trans hbudget

/-- The third of three tasks waits for two ticks. -/
theorem wait_bounded_third :
    [Op.tick .bsa, Op.tick .bsa].countP Op.isTick ≤
      ∑ i ∈ (Finset.range (freshRq threeTasks 1).tasks.length).erase 2,
        ((freshRq threeTasks 1).vruntimeOf 2 +
            Mode.minIncrement .bsa ((freshRq threeTasks 1).weightOf i) -
            (freshRq threeTasks 1).vruntimeOf i) /
          Mode.minIncrement .bsa ((freshRq threeTasks 1).weightOf i) :=
  wait_bounded .bsa (freshRq threeTasks 1) [.tick .bsa, .tick .bsa] 2
    (tableWeights_fresh threeTasks 1) (by decide) (by decide) (by decide) (by decide)

/-- When no task of a short run ever blocks, a wait is bounded by the strides
alone, however long the run has been going. -/
theorem wait_bounded_by_strides (m : Mode) (specs : List (ℤ × ℤ)) (mode : ℤ) (pre ops : List Op)
    (k : ℕ) (hk : k < specs.length) (hm : ∀ op ∈ pre ++ ops, op.isMode m)
    (hrun : ∀ i < specs.length, RunnableAtTicks i (freshRq specs mode) (pre ++ ops))
    (hshort : (pre ++ ops).countP Op.isTick ≤ 2 ^ 36)
    (hwait : picksOf (runOps (freshRq specs mode) pre) ops k = 0) :
    ops.countP Op.isTick ≤ ∑ i ∈ (Finset.range specs.length).erase k,
      (max (m.increment ((freshRq specs mode).weightOf k))
          (m.increment ((freshRq specs mode).weightOf i)) +
          m.minIncrement ((freshRq specs mode).weightOf i)) /
        m.minIncrement ((freshRq specs mode).weightOf i) := by
  have hpre : ∀ op ∈ pre, op.isMode m := fun op hop => hm op (List.mem_append_left _ hop)
  have hlen : (runOps (freshRq specs mode) pre).tasks.length = specs.length :=
    (runOps_length _ pre).trans (freshRq_length specs mode)
  have hweights := tableWeights_runOps specs mode pre
  have hshortPre : ([] ++ pre).countP Op.isTick ≤ 2 ^ 36 := by
    rw [List.countP_append] at hshort
    rw [List.nil_append]
    omega
  have hsplit : ∀ i < specs.length, RunnableAtTicks i (freshRq specs mode) pre ∧
      RunnableAtTicks i (runOps (freshRq specs mode) pre) ops := fun i hi =>
    along_append.mp (hrun i hi)
  have hbound := wait_bounded m _ ops k hweights (fun op hop => hm op (List.mem_append_right _ hop))
    (hsplit k hk).2 (noVruntimeWrap_of_short hshort) hwait
  rw [hlen] at hbound
  refine hbound.trans (Finset.sum_le_sum fun i hi => ?_)
  have hi' : i < specs.length := Finset.mem_range.mp (Finset.mem_of_mem_erase hi)
  have hspread := spread_le hpre (hsplit k hk).1 (hsplit i hi').1
    (noVruntimeWrap_of_short (m := m) hshortPre)
  rw [freshRq_vruntimeOf, freshRq_vruntimeOf, sub_self, abs_zero,
    max_eq_right (by positivity), abs_le] at hspread
  rw [weightOf_runOps hpre]
  refine Nat.div_le_div_right ?_
  have hgap := hspread.2
  rw [← Nat.cast_max] at hgap
  omega

/-- The third of three tasks waits for one tick after the first. -/
theorem wait_bounded_by_strides_third :
    [Op.tick .bsa].countP Op.isTick ≤ ∑ i ∈ (Finset.range threeTasks.length).erase 2,
      (max (Mode.increment .bsa ((freshRq threeTasks 1).weightOf 2))
          (Mode.increment .bsa ((freshRq threeTasks 1).weightOf i)) +
          Mode.minIncrement .bsa ((freshRq threeTasks 1).weightOf i)) /
        Mode.minIncrement .bsa ((freshRq threeTasks 1).weightOf i) :=
  wait_bounded_by_strides .bsa threeTasks 1 [.tick .bsa] [.tick .bsa] 2 (by decide) (by decide)
    (by decide) (by decide) (by decide)

end ApexCfs
