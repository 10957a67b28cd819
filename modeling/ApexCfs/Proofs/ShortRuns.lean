import ApexCfs.Proofs.Conservation
import ApexCfs.Proofs.Priority
import ApexCfs.Proofs.Progress

/-! Runs too short to wrap a counter. A tick adds less than `2 ^ 27` to a
vruntime and a million to a runtime, so both stay far below `2 ^ 64` for
`2 ^ 36` ticks, whatever the modes and however the tasks block and wake. -/

namespace ApexCfs

open Machine

theorem increment_le (m : Mode) : ∀ w ∈ niceToWeight, m.increment w ≤ 2 ^ 27 := by
  cases m with
  | exact => exact forall_niceToWeight (by decide)
  | bsa => exact forall_niceToWeight (by decide)
  | clti => exact forall_niceToWeight (by decide)
  | apaf => exact forall_niceToWeight (by decide)

theorem TableWeights.weightOf_mem {rq : CfsRq} (h : TableWeights rq) {k : ℕ} {t : CfsTask}
    (ht : rq.tasks[k]? = some t) : rq.weightOf k ∈ niceToWeight := by
  rw [CfsRq.weightOf, ht]
  exact h t (List.mem_of_getElem? ht)

theorem vruntimeOf_apply_le (op : Op) {rq : CfsRq} (hw : TableWeights rq) (k : ℕ) :
    (op.apply rq).vruntimeOf k ≤ rq.vruntimeOf k + if op.isTick then 2 ^ 27 else 0 := by
  obtain ⟨m, hm⟩ := op.exists_isMode
  by_cases hp : op.picks k rq
  · obtain ⟨t, ht, -⟩ := exists_of_picks hp
    obtain ⟨t', ht', -, hv, -⟩ := apply_task hm ht
    have hinc := (delta_le_increment m rq.apafState t.weight).trans
      (increment_le m _ (hw t (List.mem_of_getElem? ht)))
    have hadd := Word.toNat_add_le t.vruntime (m.delta rq.apafState TICK_NS t.weight.toUInt32)
    rw [if_pos hp] at hv
    rw [if_pos (pick_of_picks hp).1, CfsRq.vruntimeOf, CfsRq.vruntimeOf, ht, ht', Option.map_some,
      Option.map_some, Option.getD_some, Option.getD_some, hv]
    exact hadd.trans (Nat.add_le_add_left hinc _)
  · rw [vruntimeOf_apply_of_not_picks hm hp]
    exact Nat.le_add_right _ _

theorem execRuntimeOf_tick_le (op : Op) (rq : CfsRq) (k : ℕ) :
    (op.apply rq).execRuntimeOf k ≤ rq.execRuntimeOf k + if op.isTick then TICK_NS.toNat else 0 := by
  obtain ⟨m, hm⟩ := op.exists_isMode
  refine (execRuntimeOf_apply_le hm rq k).trans (Nat.add_le_add_left ?_ _)
  by_cases hp : op.picks k rq
  · rw [if_pos hp, if_pos (pick_of_picks hp).1]
  · rw [if_neg hp]
    exact Nat.zero_le _

theorem freshRq_length (specs : List (ℤ × ℤ)) (mode : ℤ) :
    (freshRq specs mode).tasks.length = specs.length := by
  simp [freshRq, rqInit]

theorem runOps_length (rq : CfsRq) (ops : List Op) :
    (runOps rq ops).tasks.length = rq.tasks.length :=
  run_invariant (I := fun s => s.tasks.length = rq.tasks.length) rfl
    (fun s op _ h => (apply_length op s).trans h) (along_true rq ops)

theorem tableWeights_runOps (specs : List (ℤ × ℤ)) (mode : ℤ) (ops : List Op) :
    TableWeights (runOps (freshRq specs mode) ops) :=
  run_invariant (tableWeights_fresh specs mode) (fun _ op _ h => tableWeights_apply h op)
    (along_true _ ops)

theorem along_tableWeights (specs : List (ℤ × ℤ)) (mode : ℤ) (ops : List Op) :
    Along Op.apply (fun rq _ => TableWeights rq) (freshRq specs mode) ops :=
  along_of_invariant ops (tableWeights_fresh specs mode) fun _ op h => tableWeights_apply h op

theorem vruntimeOf_le_ticks (specs : List (ℤ × ℤ)) (mode : ℤ) (ops : List Op) (k : ℕ) :
    (runOps (freshRq specs mode) ops).vruntimeOf k ≤ ops.countP Op.isTick * 2 ^ 27 := by
  have h := run_counter_le (P := fun _ op => op.isTick) (fun rq : CfsRq => rq.vruntimeOf k) (2 ^ 27)
    (fun _ op hw => vruntimeOf_apply_le op hw k) (along_tableWeights specs mode ops)
  rwa [freshRq_vruntimeOf, zero_add, countAlong_const, smul_eq_mul] at h

theorem execRuntimeOf_le_ticks (specs : List (ℤ × ℤ)) (mode : ℤ) (ops : List Op) (k : ℕ) :
    (runOps (freshRq specs mode) ops).execRuntimeOf k ≤ ops.countP Op.isTick * TICK_NS.toNat := by
  have h := run_counter_le (P := fun _ op => op.isTick) (fun rq : CfsRq => rq.execRuntimeOf k)
    TICK_NS.toNat (fun rq op _ => execRuntimeOf_tick_le op rq k) (along_true (freshRq specs mode) ops)
  rwa [freshRq_execRuntimeOf, zero_add, countAlong_const, smul_eq_mul] at h

/-- What picks a task is a tick, and it is not among the ticks before it. -/
theorem ticks_before_pick {rq : CfsRq} {pre post : List Op} {op : Op} {k n : ℕ}
    (hk : k ∈ op.pick rq) (h : (pre ++ op :: post).countP Op.isTick ≤ n) :
    pre.countP Op.isTick + 1 ≤ n := by
  have htick := (pick_of_picks (picks_iff.mpr hk)).1
  rw [List.countP_append, List.countP_cons, if_pos htick] at h
  omega

theorem noVruntimeWrap_of_short {m : Mode} {specs : List (ℤ × ℤ)} {mode : ℤ} {pre ops : List Op}
    (hshort : (pre ++ ops).countP Op.isTick ≤ 2 ^ 36) :
    NoVruntimeWrap m (runOps (freshRq specs mode) pre) ops := by
  rintro p op post rfl k hk
  have hrun : run Op.apply (runOps (freshRq specs mode) pre) p = runOps (freshRq specs mode) (pre ++ p) :=
    (run_append _ pre p).symm
  rw [hrun] at hk ⊢
  obtain ⟨t, ht, -⟩ := exists_of_picks (picks_iff.mpr hk)
  have hweights := tableWeights_runOps specs mode (pre ++ p)
  have hinc := (delta_le_increment m (runOps (freshRq specs mode) (pre ++ p)).apafState _).trans
    (increment_le m _ (hweights.weightOf_mem ht))
  have hv := vruntimeOf_le_ticks specs mode (pre ++ p) k
  have happ : ((pre ++ p) ++ op :: post).countP Op.isTick ≤ 2 ^ 36 := by
    rw [List.append_assoc]
    exact hshort
  have hticks := ticks_before_pick hk happ
  omega

theorem noVruntimeWrap_of_fresh {m : Mode} {specs : List (ℤ × ℤ)} {mode : ℤ} {ops : List Op}
    (hshort : ops.countP Op.isTick ≤ 2 ^ 36) : NoVruntimeWrap m (freshRq specs mode) ops :=
  @noVruntimeWrap_of_short m specs mode [] ops hshort

theorem noExecRuntimeWrap_of_short {specs : List (ℤ × ℤ)} {mode : ℤ} {ops : List Op}
    (hshort : ops.countP Op.isTick ≤ 2 ^ 36) (k : ℕ) :
    NoExecRuntimeWrap k (freshRq specs mode) ops := by
  rintro p op post rfl hk
  have he := execRuntimeOf_le_ticks specs mode p k
  have hticks := ticks_before_pick (picks_iff.mp hk) hshort
  rw [toNat_tick] at he ⊢
  have hlt : (runOps (freshRq specs mode) p).execRuntimeOf k + 1000000 < 2 ^ 64 := by omega
  exact hlt

end ApexCfs
