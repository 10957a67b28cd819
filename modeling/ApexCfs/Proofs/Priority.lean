import ApexCfs.Proofs.RoundRobin
import ApexCfs.Proofs.Spread

/-! Priority in CPU time. In the three modes without a state a heavier task has
the smaller vruntime increment, so the bounded spread of the vruntimes bounds
how far a lighter task can get ahead in runtime. -/

namespace ApexCfs

open Machine Turns

theorem execRuntimeOf_eq_picks {m : Mode} {rq : CfsRq} {ops : List Op}
    (hm : ∀ op ∈ ops, op.isMode m) {k : ℕ} (hwrap : NoExecRuntimeWrap k rq ops) :
    (runOps rq ops).execRuntimeOf k =
      rq.execRuntimeOf k + picksOf rq ops k * TICK_NS.toNat := by
  refine run_counter (P := Op.picks k) (fun s => s.execRuntimeOf k) _ (fun s op h => ?_)
    ((along_isMode hm rq).and hwrap)
  by_cases hp : op.picks k s
  · rw [if_pos hp, execRuntimeOf_apply_of_picks h.1 hp (h.2 hp)]
  · rw [if_neg hp, execRuntimeOf_apply_of_not_picks h.1 hp, Nat.add_zero]

theorem execRuntimeOf_le_picks {m : Mode} {rq : CfsRq} {ops : List Op}
    (hm : ∀ op ∈ ops, op.isMode m) (k : ℕ) :
    (runOps rq ops).execRuntimeOf k ≤ rq.execRuntimeOf k + picksOf rq ops k * TICK_NS.toNat :=
  run_counter_le (P := Op.picks k) (fun s => s.execRuntimeOf k) _
    (fun s _ h => execRuntimeOf_apply_le h s k) (along_isMode hm rq)

theorem freshRq_execRuntimeOf (specs : List (ℤ × ℤ)) (mode : ℤ) (k : ℕ) :
    (freshRq specs mode).execRuntimeOf k = 0 := by
  unfold CfsRq.execRuntimeOf
  rcases h : (freshRq specs mode).tasks[k]? with _ | t
  · rfl
  · simp [(freshRq_task h).2.2]

/-- None of the three scalings inverts two weights of the nice table. -/
theorem increment_antitone {m : Mode} (hne : m ≠ .apaf) :
    ∀ w ∈ niceToWeight, ∀ w' ∈ niceToWeight, w ≤ w' →
      m.increment w' ≤ m.increment w ∧ 0 < m.increment w' := by
  cases m with
  | apaf => exact absurd rfl hne
  | exact => exact forall_pair_niceToWeight (by decide)
  | bsa => exact forall_pair_niceToWeight (by decide)
  | clti => exact forall_pair_niceToWeight (by decide)

theorem picksOf_le {m : Mode} (hne : m ≠ .apaf) {specs : List (ℤ × ℤ)} {mode : ℤ} {ops : List Op}
    {i j : ℕ} (hi : i < specs.length) (hj : j < specs.length) (hm : ∀ op ∈ ops, op.isMode m)
    (hri : RunnableAtTicks i (freshRq specs mode) ops)
    (hrj : RunnableAtTicks j (freshRq specs mode) ops)
    (hwrap : NoVruntimeWrap m (freshRq specs mode) ops)
    (hw : (freshRq specs mode).weightOf j ≤ (freshRq specs mode).weightOf i) :
    picksOf (freshRq specs mode) ops j ≤ picksOf (freshRq specs mode) ops i + 1 := by
  have hmem : ∀ k < specs.length, (freshRq specs mode).weightOf k ∈ niceToWeight := by
    intro k hk
    have hlen : k < (freshRq specs mode).tasks.length := by simpa [freshRq, rqInit] using hk
    have hget := List.getElem?_eq_getElem hlen
    rw [CfsRq.weightOf, hget]
    exact (freshRq_task hget).1
  have hspread := fresh_spread_le hne hm hri hrj hwrap
  obtain ⟨hanti, hpos⟩ := increment_antitone hne _ (hmem j hj) _ (hmem i hi) hw
  have hdj : 0 < Mode.increment m ((freshRq specs mode).weightOf j) := hpos.trans_le hanti
  generalize Mode.increment m ((freshRq specs mode).weightOf i) = di at *
  generalize Mode.increment m ((freshRq specs mode).weightOf j) = dj at *
  generalize picksOf (freshRq specs mode) ops i = ki at *
  generalize picksOf (freshRq specs mode) ops j = kj at *
  rw [max_eq_right (by exact_mod_cast hanti), abs_le] at hspread
  have hle : kj * dj ≤ ki * di + dj := by
    have h := hspread.1
    omega
  have hmul : kj * dj ≤ (ki + 1) * dj := by
    calc kj * dj ≤ ki * di + dj := hle
      _ ≤ ki * dj + dj := Nat.add_le_add_right (Nat.mul_le_mul_left ki hanti) dj
      _ = (ki + 1) * dj := by ring
  exact Nat.le_of_mul_le_mul_right hmul hdj

theorem runtime_le {m : Mode} (hne : m ≠ .apaf) {specs : List (ℤ × ℤ)} {mode : ℤ} {ops : List Op}
    {i j : ℕ} (hi : i < specs.length) (hj : j < specs.length) (hm : ∀ op ∈ ops, op.isMode m)
    (hri : RunnableAtTicks i (freshRq specs mode) ops)
    (hrj : RunnableAtTicks j (freshRq specs mode) ops)
    (hv : NoVruntimeWrap m (freshRq specs mode) ops)
    (he : NoExecRuntimeWrap i (freshRq specs mode) ops)
    (hw : (freshRq specs mode).weightOf j ≤ (freshRq specs mode).weightOf i) :
    (runOps (freshRq specs mode) ops).execRuntimeOf j ≤
      (runOps (freshRq specs mode) ops).execRuntimeOf i + TICK_NS.toNat := by
  have hpicks := picksOf_le hne hi hj hm hri hrj hv hw
  have hi' := execRuntimeOf_eq_picks hm he
  have hj' : (runOps (freshRq specs mode) ops).execRuntimeOf j ≤ _ := execRuntimeOf_le_picks hm j
  rw [freshRq_execRuntimeOf, Nat.zero_add] at hi' hj'
  rw [hi']
  calc (runOps (freshRq specs mode) ops).execRuntimeOf j
      ≤ picksOf (freshRq specs mode) ops j * TICK_NS.toNat := hj'
    _ ≤ (picksOf (freshRq specs mode) ops i + 1) * TICK_NS.toNat := Nat.mul_le_mul_right _ hpicks
    _ = picksOf (freshRq specs mode) ops i * TICK_NS.toNat + TICK_NS.toNat := by ring

/-- The heavier of two tasks that stay runnable is never more than a tick behind
in runtime unless its runtime wraps, whatever the runtimes of the others do. -/
theorem priority_in_runtime (m : Mode) (specs : List (ℤ × ℤ)) (mode : ℤ) (ops : List Op) (i j : ℕ)
    (hne : m ≠ .apaf) (hi : i < specs.length) (hj : j < specs.length)
    (hm : ∀ op ∈ ops, op.isMode m) (hri : RunnableAtTicks i (freshRq specs mode) ops)
    (hrj : RunnableAtTicks j (freshRq specs mode) ops)
    (hv : NoVruntimeWrap m (freshRq specs mode) ops)
    (he : NoExecRuntimeWrap i (freshRq specs mode) ops)
    (hw : (freshRq specs mode).weightOf j ≤ (freshRq specs mode).weightOf i) (n : ℕ) :
    (runOps (freshRq specs mode) (ops.take n)).execRuntimeOf j ≤
        (runOps (freshRq specs mode) (ops.take n)).execRuntimeOf i + TICK_NS.toNat ∧
      ((freshRq specs mode).weightOf i = (freshRq specs mode).weightOf j →
        NoExecRuntimeWrap j (freshRq specs mode) ops →
        (runOps (freshRq specs mode) (ops.take n)).execRuntimeOf i ≤
          (runOps (freshRq specs mode) (ops.take n)).execRuntimeOf j + TICK_NS.toNat) := by
  have hmn : ∀ op ∈ ops.take n, op.isMode m := fun op hop => hm op (List.mem_of_mem_take hop)
  refine ⟨?_, fun heq hej => ?_⟩
  · exact runtime_le hne hi hj hmn (along_take n hri) (along_take n hrj) (along_take n hv)
      (along_take n he) hw
  · exact runtime_le hne hj hi hmn (along_take n hrj) (along_take n hri) (along_take n hv)
      (along_take n hej) heq.le

/-- Two BSA tasks of different nice values, a third one blocking between them. -/
theorem priority_in_runtime_blocking :
    (runOps (freshRq threeTasks 1) (blockingHistory.take 4)).execRuntimeOf 1 ≤
        (runOps (freshRq threeTasks 1) (blockingHistory.take 4)).execRuntimeOf 0 + TICK_NS.toNat ∧
      ((freshRq threeTasks 1).weightOf 0 = (freshRq threeTasks 1).weightOf 1 →
        NoExecRuntimeWrap 1 (freshRq threeTasks 1) blockingHistory →
        (runOps (freshRq threeTasks 1) (blockingHistory.take 4)).execRuntimeOf 0 ≤
          (runOps (freshRq threeTasks 1) (blockingHistory.take 4)).execRuntimeOf 1 +
            TICK_NS.toNat) :=
  priority_in_runtime .bsa threeTasks 1 blockingHistory 0 1 (by decide) (by decide) (by decide)
    (by decide) (by decide) (by decide) (by decide) (by decide)
    (by decide) 4

/-- Ticks after which a task that has run them all is about to wrap its runtime. -/
def WRAP_TICKS : ℕ := 18446744073709

/-- Two nice `-20` tasks: at weight 88761 a vruntime is far from its wrap when
the runtimes, which grow by unscaled ticks, reach theirs. -/
theorem runtime_wraps_first :
    ¬ ∀ (m : Mode) (specs : List (ℤ × ℤ)) (mode : ℤ) (ops : List Op) (i j : ℕ),
      m ≠ .apaf → i < specs.length → j < specs.length → (∀ op ∈ ops, op.isMode m) →
      RunnableAtTicks i (freshRq specs mode) ops → RunnableAtTicks j (freshRq specs mode) ops →
      NoVruntimeWrap m (freshRq specs mode) ops →
      (freshRq specs mode).weightOf j ≤ (freshRq specs mode).weightOf i →
      (runOps (freshRq specs mode) ops).execRuntimeOf j ≤
        (runOps (freshRq specs mode) ops).execRuntimeOf i + TICK_NS.toNat := by
  intro h
  have hdelta : ∀ state,
      (Mode.delta .exact state TICK_NS (taskCreate 0 (-20)).weight.toUInt32).toNat = 11536 := by
    intro state
    change (exactCalcDeltaFair TICK_NS (taskCreate 0 (-20)).weight.toUInt32).toNat = 11536
    decide
  have hrun : ∀ t ≤ 2 * WRAP_TICKS + 1, Balanced 2 11536 (taskCreate 0 (-20)).weight t
      (runOps (freshRq [(0, -20), (1, -20)] 0) (List.replicate t (.tick .exact))) := by
    intro t ht
    refine (balanced_fresh [0, 1] (-20) 0 11536).run (by decide) (by decide) hdelta ?_
    intro s hs
    change (s / 2 + 1) * 11536 < 2 ^ 64
    simp only [WRAP_TICKS] at ht
    omega
  have hr : ∀ i < 2, RunnableAtTicks i (freshRq [(0, -20), (1, -20)] 0)
      (List.replicate (2 * WRAP_TICKS + 1) (.tick .exact)) := by
    intro i hi
    exact along_replicate.mpr fun t ht _ => (hrun t ht.le).isRunnable hi
  have hv : NoVruntimeWrap .exact (freshRq [(0, -20), (1, -20)] 0)
      (List.replicate (2 * WRAP_TICKS + 1) (.tick .exact)) := by
    refine along_replicate.mpr fun t ht => (hrun t ht.le).noWrap (by decide) (by decide) hdelta ?_
    simp only [WRAP_TICKS] at ht
    omega
  have hlast := h .exact [(0, -20), (1, -20)] 0
    (List.replicate (2 * WRAP_TICKS + 1) (.tick .exact)) 0 1 (by decide) (by decide) (by decide)
    (fun op hop => by rw [List.eq_of_mem_replicate hop]; rfl) (hr 0 (by decide)) (hr 1 (by decide))
    hv (by decide)
  rw [(hrun _ le_rfl).execRuntimeOf (by decide), (hrun _ le_rfl).execRuntimeOf (by decide)] at hlast
  revert hlast
  decide

end ApexCfs
