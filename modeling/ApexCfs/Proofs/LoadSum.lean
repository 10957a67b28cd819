import ApexCfs.Lib.Leaky
import ApexCfs.Proofs.Tick
import ApexCfs.Proofs.Decay

/-! Load sums over histories of any length. The load updates of a task see that
task only, so a history of one task is a run of leaky accumulators: bounded by
49 weights whatever the mode, and close to each other between the modes. -/

namespace ApexCfs

open Machine Leaky

def LoadOp.onTask (state : ℤ) (t : CfsTask) : LoadOp → CfsTask
  | .update m => t.updateLoad (m.decay state)
  | .setRunnable r => taskSetRunnable t r

theorem updateLoadAvg_mode (m : Mode) (rq : CfsRq) (i : ℕ) :
    m.updateLoadAvg rq i =
      { rq with tasks := rq.tasks.modify i (CfsTask.updateLoad (m.decay rq.apafState)) } := by
  cases m <;> exact updateLoadAvg_eq _ rq i

theorem loadApply_task (op : LoadOp) {i : ℕ} {rq : CfsRq} {t : CfsTask} (ht : rq.tasks[i]? = some t) :
    (op.apply i rq).tasks[i]? = some (op.onTask rq.apafState t) ∧
      (op.apply i rq).apafState = rq.apafState := by
  cases op with
  | update m =>
    simp only [LoadOp.apply, updateLoadAvg_mode, List.getElem?_modify, ht, if_true, and_true]
    rfl
  | setRunnable r =>
    simp only [LoadOp.apply, List.getElem?_modify, ht, if_true, and_true]
    rfl

theorem runLoad_task {i : ℕ} {rq : CfsRq} {t : CfsTask} (ht : rq.tasks[i]? = some t)
    (ops : List LoadOp) :
    (runLoad i rq ops).tasks[i]? = some (run (LoadOp.onTask rq.apafState) t ops) := by
  induction ops generalizing rq t with
  | nil => exact ht
  | cons op ops ih =>
    obtain ⟨htask, hstate⟩ := loadApply_task op ht
    have h := ih htask
    rw [hstate] at h
    exact h

theorem period_le (m : Mode) (state : ℤ) {load w : ℕ} (h : load ≤ 49 * w) :
    m.period state load ≤ 48 * w := by
  cases m with
  | exact => simp only [Mode.period, exactPeriod]; omega
  | bsa => simp only [Mode.period, bsaPeriod]; omega
  | clti => simp only [Mode.period, cltiPeriod]; omega
  | apaf =>
    obtain ⟨h0, h1⟩ := apafFactor_range state
    have hload : (load : ℚ) ≤ 49 * w := by exact_mod_cast h
    refine Nat.floor_le_of_le ?_
    calc (load : ℚ) * apafFactor state ≤ load * (48 / 49) := by gcongr
      _ ≤ (49 * w) * (48 / 49) := by gcongr
      _ = (48 * w : ℕ) := by push_cast; ring

theorem toNat_clampedLoadAvg {weight loadSum : UInt64}
    (h : weight.toNat * loadSum.toNat < 2 ^ 64) :
    (clampedLoadAvg weight loadSum).toNat =
      min weight.toNat (weight.toNat * loadSum.toNat / 47742) := by
  have hdiv : (weight * loadSum / LOAD_AVG_MAX).toNat = weight.toNat * loadSum.toNat / 47742 := by
    rw [UInt64.toNat_div, Word.toNat_mul_of_lt h]
    rfl
  unfold clampedLoadAvg
  split_ifs with hlt
  · rw [gt_iff_lt, UInt64.lt_iff_toNat_lt, hdiv] at hlt
    rw [min_eq_left hlt.le]
  · rw [gt_iff_lt, UInt64.lt_iff_toNat_lt, hdiv] at hlt
    rw [hdiv, min_eq_right (not_lt.mp hlt)]

structure LoadBounded (w : UInt64) (t : CfsTask) : Prop where
  weight : t.weight = w
  loadSum : t.loadSum.toNat ≤ 49 * w.toNat
  loadAvg : t.loadAvg = clampedLoadAvg w t.loadSum

def contribution (w : ℕ) (runnable : ℤ) : ℕ := if runnable = 1 then w else 0

theorem contribution_le (w : ℕ) (r : ℤ) : contribution w r ≤ w := by
  unfold contribution
  split_ifs <;> omega

theorem toNat_nextLoadSum (m : Mode) (state : ℤ) {w : UInt64} {t : CfsTask} (hw : w.toNat ≤ 88761)
    (ht : LoadBounded w t) :
    (t.nextLoadSum (m.decay state)).toNat =
      m.period state t.loadSum.toNat + contribution w.toNat t.runnable := by
  have hle := period_le m state ht.loadSum
  unfold CfsTask.nextLoadSum contribution
  rw [ht.weight]
  split_ifs
  · rw [Word.toNat_add_of_lt (by rw [decay_one]; omega), decay_one]
  · rw [UInt64.add_zero, decay_one, Nat.add_zero]

theorem LoadBounded.updateLoad (m : Mode) (state : ℤ) {w : UInt64} {t : CfsTask}
    (hw : w.toNat ≤ 88761) (ht : LoadBounded w t) :
    LoadBounded w (t.updateLoad (m.decay state)) := by
  have hle := period_le m state ht.loadSum
  have hc := contribution_le w.toNat t.runnable
  rw [updateLoad_eq]
  refine ⟨ht.weight, ?_, ?_⟩
  · change (t.nextLoadSum (m.decay state)).toNat ≤ _
    rw [toNat_nextLoadSum m state hw ht]
    omega
  · exact congrArg (clampedLoadAvg · _) ht.weight

theorem LoadBounded.setRunnable {w : UInt64} {t : CfsTask} (ht : LoadBounded w t) (r : ℤ) :
    LoadBounded w (taskSetRunnable t r) := by
  unfold taskSetRunnable
  split_ifs <;> exact ⟨ht.weight, ht.loadSum, ht.loadAvg⟩

theorem LoadBounded.onTask (state : ℤ) {w : UInt64} {t : CfsTask} (hw : w.toNat ≤ 88761)
    (ht : LoadBounded w t) (op : LoadOp) : LoadBounded w (op.onTask state t) := by
  cases op with
  | update m => exact ht.updateLoad m state hw
  | setRunnable r => exact ht.setRunnable r

theorem LoadBounded.run (state : ℤ) {w : UInt64} {t : CfsTask} (hw : w.toNat ≤ 88761)
    (ht : LoadBounded w t) (ops : List LoadOp) :
    LoadBounded w (Machine.run (LoadOp.onTask state) t ops) := by
  induction ops generalizing t with
  | nil => exact ht
  | cons op ops ih => exact ih (ht.onTask state hw op)

theorem clampedLoadAvg_zero (w : UInt64) : clampedLoadAvg w 0 = 0 := by
  rw [clampedLoadAvg, UInt64.mul_zero, UInt64.zero_div, if_neg]
  rw [gt_iff_lt, UInt64.lt_iff_toNat_lt, UInt64.toNat_zero]
  omega

theorem loadBounded_fresh (id nice : ℤ) (w : UInt64) : LoadBounded w (freshTask id nice w) :=
  ⟨rfl, Nat.zero_le _, (clampedLoadAvg_zero w).symm⟩

/-- Through any history of load updates, of whatever modes, and flag changes the
load sum stays below 49 weights, so nothing wraps and the load average is the
clamped quotient of the natural numbers. -/
theorem load_never_overflows (rq : CfsRq) (i : ℕ) (id nice : ℤ) (w : UInt64) (ops : List LoadOp)
    (hw : 1 ≤ w.toNat ∧ w.toNat ≤ 88761) (hi : rq.tasks[i]? = some (freshTask id nice w)) :
    ∃ t, (runLoad i rq ops).tasks[i]? = some t ∧ t.weight = w ∧
      t.loadSum.toNat ≤ 49 * w.toNat ∧ w.toNat * t.loadSum.toNat < 2 ^ 64 ∧
      t.loadAvg.toNat = min w.toNat (w.toNat * t.loadSum.toNat / 47742) := by
  have ht := (loadBounded_fresh id nice w).run rq.apafState hw.2 ops
  have hmul : w.toNat * (Machine.run (LoadOp.onTask rq.apafState) (freshTask id nice w)
      ops).loadSum.toNat < 2 ^ 64 := by
    calc w.toNat * _ ≤ 88761 * (49 * 88761) :=
          Nat.mul_le_mul hw.2 (ht.loadSum.trans (Nat.mul_le_mul_left 49 hw.2))
      _ < 2 ^ 64 := by norm_num
  refine ⟨_, runLoad_task hi ops, ht.weight, ht.loadSum, hmul, ?_⟩
  rw [ht.loadAvg, toNat_clampedLoadAvg hmul]

theorem load_never_overflows_mixed :
    ∃ t, (runLoad 0 (freshRq [(0, -20)] 0)
        [.update .exact, .update .bsa, .setRunnable 0, .update .clti]).tasks[0]? = some t ∧
      t.weight = 88761 ∧ t.loadSum.toNat ≤ 49 * (88761 : UInt64).toNat ∧
      (88761 : UInt64).toNat * t.loadSum.toNat < 2 ^ 64 ∧
      t.loadAvg.toNat =
        min (88761 : UInt64).toNat ((88761 : UInt64).toNat * t.loadSum.toNat / 47742) :=
  load_never_overflows (freshRq [(0, -20)] 0) 0 0 (-20) 88761
    [.update .exact, .update .bsa, .setRunnable 0, .update .clti] (by decide) (by decide)

theorem loadHistory_track (m : Mode) {rq : CfsRq} {i : ℕ} {id nice : ℤ} {w : UInt64}
    (hw : w.toNat ≤ 88761) (hi : rq.tasks[i]? = some (freshTask id nice w)) (flags : List ℤ) :
    (runLoad i rq (loadHistory m flags)).loadSumOf i =
      track (m.period rq.apafState) (flags.map (contribution w.toNat)) := by
  rw [CfsRq.loadSumOf, runLoad_task hi, Option.map_some, Option.getD_some]
  have hrun : ∀ flags : List ℤ, LoadBounded w (Machine.run (LoadOp.onTask rq.apafState)
      (freshTask id nice w) (loadHistory m flags)) := fun flags =>
    (loadBounded_fresh id nice w).run rq.apafState hw _
  induction flags using List.reverseRecOn with
  | nil => rfl
  | append_singleton flags r ih =>
    have hsplit : loadHistory m (flags ++ [r]) =
        loadHistory m flags ++ [.setRunnable r, .update m] := by
      simp [loadHistory]
    have hset : contribution w.toNat (taskSetRunnable (Machine.run (LoadOp.onTask rq.apafState)
        (freshTask id nice w) (loadHistory m flags)) r).runnable = contribution w.toNat r := by
      unfold contribution
      rw [taskSetRunnable_runnable]
      split_ifs <;> simp_all
    rw [hsplit, run_append, run_cons, run_cons, run_nil, LoadOp.onTask, LoadOp.onTask, updateLoad_eq,
      List.map_append, List.map_singleton, track_snoc, ← ih]
    change (CfsTask.nextLoadSum _ _).toNat = _
    rw [toNat_nextLoadSum m rq.apafState hw ((hrun flags).setRunnable r), hset]
    congr 2
    unfold taskSetRunnable
    split_ifs <;> rfl

end ApexCfs
