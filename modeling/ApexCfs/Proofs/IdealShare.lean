import ApexCfs.Lib.Apportion
import ApexCfs.Proofs.Latency
import ApexCfs.Proofs.Shares
import ApexCfs.Proofs.Unblocked

/-! The CPU shares approach the ideal ones. A mode ages a task of weight `w` by
`1024 / w` up to a factor; as the vruntimes stay together, the shares of a long
run are the weighted ones up to that factor. -/

namespace ApexCfs

open Machine ListLoop

def runnableWeights (tasks : List CfsTask) : List ℕ :=
  (tasks.filter fun t => t.runnable = 1).map fun t => t.weight.toUInt32.toNat

/-- The loop computes the total modulo `2 ^ 32`. -/
theorem totalWeight_eq (rq : CfsRq) :
    fairnessTotalWeight (some rq) = UInt32.ofNat (runnableWeights rq.tasks).sum := by
  have hloop : ∀ tasks : List CfsTask, tasks.foldl (fun total t =>
      if t.runnable = 1 then total + t.weight.toUInt32 else total) (0 : UInt32) =
        UInt32.ofNat (runnableWeights tasks).sum := by
    intro tasks
    induction tasks using List.reverseRecOn with
    | nil => rfl
    | append_singleton tasks t ih =>
      rw [List.foldl_append, List.foldl_cons, List.foldl_nil, ih, runnableWeights, runnableWeights,
        List.filter_append]
      by_cases hr : t.runnable = 1
      · have hone : [t].filter (fun t => t.runnable = 1) = [t] := by simp [hr]
        rw [if_pos hr, hone, List.map_append, List.sum_append, List.map_singleton,
          List.sum_singleton, UInt32.ofNat_add, UInt32.ofNat_toNat]
      · simp [hr]
  have htasks : tasksOf (some rq) = rq.tasks := rfl
  simp only [fairnessTotalWeight, htasks]
  split_ifs with h0
  · rw [List.length_eq_zero_iff.mp h0]
    rfl
  · exact hloop rq.tasks

/-- The largest product of a table weight with its increment. -/
def Mode.scaleHi : Mode → ℕ
  | .exact => 1024000000
  | .bsa => 1024000000
  | .clti => 2387000000
  | .apaf => 1024000000

/-- The largest of these products over the least, rounded up. -/
def Mode.scalingRatio : Mode → ℚ
  | .exact => 10001 / 10000
  | .bsa => 1023 / 1000
  | .clti => 3645 / 1000
  | .apaf => 1023 / 1000

theorem increment_mul_le (m : Mode) : ∀ w ∈ niceToWeight, m.increment w * w.toNat ≤ m.scaleHi := by
  cases m with
  | exact => exact forall_niceToWeight (by decide)
  | bsa => exact forall_niceToWeight (by decide)
  | clti => exact forall_niceToWeight (by decide)
  | apaf => exact forall_niceToWeight (by decide)

def Mode.scaleLo : Mode → ℕ
  | .exact => 1023900000
  | .bsa => 1001700000
  | .clti => 655000000
  | .apaf => 1001700000

theorem minIncrement_mul_ge (m : Mode) :
    ∀ w ∈ niceToWeight, m.scaleLo ≤ m.minIncrement w * w.toNat := by
  cases m with
  | exact => exact forall_niceToWeight (by decide)
  | bsa => exact forall_niceToWeight (by decide)
  | clti => exact forall_niceToWeight (by decide)
  | apaf => exact forall_niceToWeight (by decide)

theorem scaleLo_pos (m : Mode) : (0 : ℚ) < m.scaleLo := by
  cases m <;> norm_num [Mode.scaleLo]

theorem scaleLo_le (m : Mode) : (m.scaleLo : ℚ) ≤ m.scaleHi := by
  cases m <;> norm_num [Mode.scaleLo, Mode.scaleHi]

theorem scaleHi_div_le (m : Mode) : (m.scaleHi : ℚ) / m.scaleLo ≤ m.scalingRatio := by
  cases m <;> norm_num [Mode.scaleHi, Mode.scalingRatio, Mode.scaleLo]

theorem vruntimeOf_apply {m : Mode} {op : Op} (hm : op.isMode m) {rq : CfsRq} {k : ℕ}
    (hwrap : ∀ k ∈ op.pick rq, rq.vruntimeOf k +
      (m.delta rq.apafState TICK_NS (rq.weightOf k).toUInt32).toNat < 2 ^ 64) :
    (op.apply rq).vruntimeOf k = rq.vruntimeOf k + if op.picks k rq then
      (m.delta rq.apafState TICK_NS (rq.weightOf k).toUInt32).toNat else 0 := by
  by_cases hp : op.picks k rq
  · rw [if_pos hp, vruntimeOf_apply_of_picks hm hp (hwrap k (picks_iff.mp hp))]
  · rw [if_neg hp, vruntimeOf_apply_of_not_picks hm hp, Nat.add_zero]

/-- Before a wrap, a vruntime times its weight is the picks up to the scaling. -/
theorem vruntime_mul_weight {m : Mode} {rq : CfsRq} {ops : List Op} (hm : ∀ op ∈ ops, op.isMode m)
    (hwrap : NoVruntimeWrap m rq ops) {k : ℕ} (h0 : rq.vruntimeOf k = 0)
    (hw : rq.weightOf k ∈ niceToWeight) :
    picksOf rq ops k * m.scaleLo ≤ (runOps rq ops).vruntimeOf k * (rq.weightOf k).toNat ∧
      (runOps rq ops).vruntimeOf k * (rq.weightOf k).toNat ≤ picksOf rq ops k * m.scaleHi := by
  have hall := ((along_isMode hm rq).and hwrap).and (along_weightOf hm rq k)
  have hlo := minIncrement_mul_ge m _ hw
  have hhi := increment_mul_le m _ hw
  refine ⟨?_, ?_⟩
  · have h := run_counter_le (P := Op.picks k)
      (fun s : CfsRq => -((s.vruntimeOf k * (rq.weightOf k).toNat : ℕ) : ℤ)) (-(m.scaleLo : ℤ))
      (fun s op hs => by
        have hmin := Nat.mul_le_mul_right (rq.weightOf k).toNat
          (minIncrement_le_delta m s.apafState (rq.weightOf k))
        rw [vruntimeOf_apply hs.1.1 hs.1.2, hs.2, Nat.add_mul, ite_mul, Nat.zero_mul]
        split_ifs <;> push_cast <;> omega) hall
    rw [h0, Nat.zero_mul, nsmul_eq_mul] at h
    have hcast : ((picksOf rq ops k * m.scaleLo : ℕ) : ℤ) ≤
        ((runOps rq ops).vruntimeOf k * (rq.weightOf k).toNat : ℕ) := by
      push_cast at h ⊢
      unfold picksOf runOps
      linarith
    exact_mod_cast hcast
  · have h := run_counter_le (P := Op.picks k)
      (fun s : CfsRq => s.vruntimeOf k * (rq.weightOf k).toNat) m.scaleHi
      (fun s op hs => by
        have hmax := Nat.mul_le_mul_right (rq.weightOf k).toNat
          (delta_le_increment m s.apafState (rq.weightOf k))
        rw [vruntimeOf_apply hs.1.1 hs.1.2, hs.2, Nat.add_mul, ite_mul, Nat.zero_mul]
        split_ifs <;> omega) hall
    rw [h0, Nat.zero_mul, Nat.zero_add, smul_eq_mul] at h
    exact h

theorem weightOf_fresh_mem {specs : List (ℤ × ℤ)} (mode : ℤ) {j : ℕ} (hj : j < specs.length) :
    (freshRq specs mode).weightOf j ∈ niceToWeight :=
  (tableWeights_fresh specs mode).weightOf_mem
    (List.getElem?_eq_getElem (by rw [freshRq_length]; exact hj))

section Run

variable (m : Mode) (specs : List (ℤ × ℤ)) (mode : ℤ) {n : ℕ}

theorem clocks_tickRun (hne : 0 < specs.length) (hshort : n ≤ 2 ^ 36) {wmin : ℕ} (hpos : 0 < wmin)
    (hmin : ∀ i < specs.length, wmin ≤ ((freshRq specs mode).weightOf i).toNat) :
    ∃ base, Apportion.Clocks (Finset.range specs.length)
      (fun i => (((freshRq specs mode).weightOf i).toNat : ℚ))
      (fun i => (picksOf (freshRq specs mode) (List.replicate n (.tick m)) i : ℚ))
      (fun i => ((tickRun m specs mode n).vruntimeOf i : ℚ))
      m.scaleLo m.scaleHi base (m.scaleHi / wmin) := by
  have hwrap : NoVruntimeWrap m (freshRq specs mode) (List.replicate n (.tick m)) :=
    noVruntimeWrap_of_fresh (by
      rw [countP_replicate_tick]
      exact hshort)
  -- no increment exceeds the one of the least weight
  have hinc : ∀ i < specs.length,
      (m.increment ((freshRq specs mode).weightOf i) : ℚ) ≤ m.scaleHi / wmin := by
    intro i hi
    rw [le_div_iff₀ (by exact_mod_cast hpos)]
    exact_mod_cast (Nat.mul_le_mul_left _ (hmin i hi)).trans
      (increment_mul_le m _ (weightOf_fresh_mem mode hi))
  obtain ⟨a, ha, hleast⟩ := Finset.exists_min_image (Finset.range specs.length)
    (fun i => (tickRun m specs mode n).vruntimeOf i) ⟨0, Finset.mem_range.mpr hne⟩
  refine ⟨(tickRun m specs mode n).vruntimeOf a, ⟨?_, ?_, ?_, ?_⟩⟩
  · exact fun i hi => by exact_mod_cast hleast i hi
  · intro i hi
    have hi' := Finset.mem_range.mp hi
    have ha' := Finset.mem_range.mp ha
    have hspread := spread_le (isMode_replicate m n) (runnableAtTicks_tickRun m mode n hi')
      (runnableAtTicks_tickRun m mode n ha') hwrap
    rw [freshRq_vruntimeOf, freshRq_vruntimeOf, sub_self, abs_zero,
      max_eq_right (by positivity)] at hspread
    have hle := (abs_le.mp hspread).2
    have hcast : ((tickRun m specs mode n).vruntimeOf i : ℚ) - (tickRun m specs mode n).vruntimeOf a ≤
        max (m.increment ((freshRq specs mode).weightOf i) : ℚ)
          (m.increment ((freshRq specs mode).weightOf a)) := by
      exact_mod_cast hle
    have hmax := max_le (hinc i hi') (hinc a ha')
    linarith
  · intro i hi
    exact_mod_cast (vruntime_mul_weight (isMode_replicate m n) hwrap (freshRq_vruntimeOf _ _ i)
      (weightOf_fresh_mem mode (Finset.mem_range.mp hi))).1
  · intro i hi
    exact_mod_cast (vruntime_mul_weight (isMode_replicate m n) hwrap (freshRq_vruntimeOf _ _ i)
      (weightOf_fresh_mem mode (Finset.mem_range.mp hi))).2

end Run

theorem niceToWeight_le : ∀ w ∈ niceToWeight, 0 < w.toNat ∧ w.toNat ≤ 88761 :=
  forall_niceToWeight (by decide)

theorem toUInt32_weight {w : UInt64} (hw : w ∈ niceToWeight) : w.toUInt32.toNat = w.toNat := by
  have hle := (niceToWeight_le w hw).2
  rw [UInt64.toNat_toUInt32]
  omega

theorem totalWeight_tickRun (m : Mode) (specs : List (ℤ × ℤ)) (mode : ℤ) (n : ℕ)
    (hfit : ∑ i ∈ Finset.range specs.length, ((freshRq specs mode).weightOf i).toNat < 2 ^ 32) :
    (fairnessTotalWeight (some (tickRun m specs mode n))).toNat =
      ∑ i ∈ Finset.range specs.length, ((freshRq specs mode).weightOf i).toNat := by
  have hsum : (runnableWeights (tickRun m specs mode n).tasks).sum =
      ∑ i ∈ Finset.range specs.length, ((freshRq specs mode).weightOf i).toNat := by
    rw [runnableWeights, List.filter_eq_self.mpr fun t ht =>
      decide_eq_true (unblocked_tickRun m specs mode n t ht), ← tickRun_length m specs mode n]
    refine sum_map_eq_sum_range _ _ _ fun i t ht => ?_
    have hweight : t.weight = (freshRq specs mode).weightOf i := by
      rw [← weightOf_runOps (isMode_replicate m n) (freshRq specs mode) i]
      change _ = (tickRun m specs mode n).weightOf i
      rw [CfsRq.weightOf, ht]
      rfl
    rw [← hweight]
    exact toUInt32_weight (tableWeights_runOps _ _ _ t (List.mem_of_getElem? ht))
  rw [totalWeight_eq, hsum, UInt32.toNat_ofNat', Nat.mod_eq_of_lt hfit]

theorem cpuShare_tickRun (m : Mode) {specs : List (ℤ × ℤ)} (mode : ℤ) {n : ℕ} (hn : 0 < n)
    (hshort : n ≤ 2 ^ 36) {shares : List ℚ} (hroom : specs.length ≤ shares.length) {i : ℕ}
    (hi : i < specs.length) :
    (fairnessCpuShares (some (tickRun m specs mode n)) shares specs.length)[i]? =
      some ((picksOf (freshRq specs mode) (List.replicate n (.tick m)) i : ℚ) / n) := by
  have hne : 0 < specs.length := by omega
  have hlen := tickRun_length m specs mode n
  have htasks : tasksOf (some (tickRun m specs mode n)) = (tickRun m specs mode n).tasks := rfl
  have hall : (tickRun m specs mode n).tasks.take specs.length = (tickRun m specs mode n).tasks :=
    List.take_of_length_le (by rw [hlen])
  have hsum := sum_runnableTimes_tickRun m mode hne hshort
  have hfit : (runnableTimes ((tasksOf (some (tickRun m specs mode n))).take
      (specs.length : ℤ).toNat)).sum < 2 ^ 64 := by
    rw [htasks, Int.toNat_natCast, hall, hsum, toNat_tick]
    omega
  have hmap := shares_of_le (by exact_mod_cast hne) (by exact_mod_cast hroom)
    (by rw [htasks, hlen]) hfit
  rw [Int.toNat_natCast, htasks, hall] at hmap
  have hlt : i < (tickRun m specs mode n).tasks.length := by rw [hlen]; exact hi
  have hget := congrArg (fun l : List ℚ => l[i]?) hmap
  simp only [List.getElem?_take, if_pos hi, List.getElem?_map, List.getElem?_eq_getElem hlt,
    Option.map_some] at hget
  have hexec : ((tickRun m specs mode n).tasks[i]).execRuntime.toNat =
      picksOf (freshRq specs mode) (List.replicate n (.tick m)) i * TICK_NS.toNat := by
    rw [← execRuntimeOf_tickRun m specs mode hshort i, CfsRq.execRuntimeOf,
      List.getElem?_eq_getElem hlt]
    rfl
  have hpos : 0 < n * TICK_NS.toNat := Nat.mul_pos hn (by rw [toNat_tick]; norm_num)
  have hticks : (TICK_NS.toNat : ℚ) ≠ 0 := by
    rw [toNat_tick]
    norm_num
  rw [hget, if_pos (unblocked_tickRun m specs mode n _ (List.getElem_mem hlt)), timeShare, hsum,
    if_pos hpos, hexec]
  push_cast
  rw [mul_div_mul_right _ _ hticks]

theorem weightOf_fresh_pos (specs : List (ℤ × ℤ)) (mode : ℤ) :
    ∀ j ∈ Finset.range specs.length, (0 : ℚ) < ((freshRq specs mode).weightOf j).toNat := by
  intro j hj
  exact_mod_cast (niceToWeight_le _ (weightOf_fresh_mem mode (Finset.mem_range.mp hj))).1

theorem taskGetWeight_eq (rq : CfsRq) (k : ℕ) :
    taskGetWeight rq.tasks[k]? = (rq.weightOf k).toUInt32 := by
  unfold CfsRq.weightOf
  cases rq.tasks[k]? <;> rfl

/-- The ideal share is the weighted part. -/
theorem idealShare_tickRun (m : Mode) {specs : List (ℤ × ℤ)} (mode : ℤ) (n : ℕ)
    (hfit : ∑ j ∈ Finset.range specs.length, ((freshRq specs mode).weightOf j).toNat < 2 ^ 32)
    {i : ℕ} (hi : i < specs.length) :
    fairnessIdealShare (taskGetWeight (tickRun m specs mode n).tasks[i]?)
        (fairnessTotalWeight (some (tickRun m specs mode n))) =
      ((freshRq specs mode).weightOf i).toNat /
        ∑ j ∈ Finset.range specs.length, (((freshRq specs mode).weightOf j).toNat : ℚ) := by
  have hW := Finset.sum_pos (weightOf_fresh_pos specs mode) ⟨i, Finset.mem_range.mpr hi⟩
  have htotal := totalWeight_tickRun m specs mode n hfit
  have hzero : fairnessTotalWeight (some (tickRun m specs mode n)) ≠ 0 := by
    intro h0
    rw [h0, UInt32.toNat_zero] at htotal
    rw [← Nat.cast_sum, ← htotal] at hW
    exact absurd hW (by norm_num)
  have hweight : (tickRun m specs mode n).weightOf i = (freshRq specs mode).weightOf i :=
    weightOf_runOps (isMode_replicate m n) (freshRq specs mode) i
  rw [fairnessIdealShare, if_neg hzero, htotal, taskGetWeight_eq, hweight,
    toUInt32_weight (weightOf_fresh_mem mode hi), Nat.cast_sum]

/-- In a run of tasks that never block, the share of a task is its ideal share up to the
slack in the scaling of the mode, and up to a tick of the lightest task, scaled to its
weight and spread over the run. -/
theorem cpu_shares_near_ideal (m : Mode) (specs : List (ℤ × ℤ)) (mode : ℤ) (n wmin i : ℕ)
    (shares : List ℚ) (hn : 0 < n) (hshort : n ≤ 2 ^ 36)
    (hfit : ∑ j ∈ Finset.range specs.length, ((freshRq specs mode).weightOf j).toNat < 2 ^ 32)
    (hroom : specs.length ≤ shares.length) (hi : i < specs.length) (hpos : 0 < wmin)
    (hmin : ∀ j < specs.length, wmin ≤ ((freshRq specs mode).weightOf j).toNat) :
    ∃ share, (fairnessCpuShares (some (tickRun m specs mode n)) shares specs.length)[i]? =
        some share ∧
      fairnessIdealShare (taskGetWeight (tickRun m specs mode n).tasks[i]?)
          (fairnessTotalWeight (some (tickRun m specs mode n))) / m.scalingRatio -
        ((freshRq specs mode).weightOf i).toNat / (wmin * n) ≤ share ∧
      share ≤ m.scalingRatio * (fairnessIdealShare (taskGetWeight (tickRun m specs mode n).tasks[i]?)
          (fairnessTotalWeight (some (tickRun m specs mode n))) +
        ((freshRq specs mode).weightOf i).toNat / (wmin * n)) := by
  have hne : 0 < specs.length := by omega
  have hi' := Finset.mem_range.mpr hi
  have hweights := weightOf_fresh_pos specs mode
  have hshare : (0 : ℚ) ≤ ((freshRq specs mode).weightOf i).toNat /
      ∑ j ∈ Finset.range specs.length, (((freshRq specs mode).weightOf j).toNat : ℚ) :=
    (div_pos (hweights i hi') (Finset.sum_pos hweights ⟨i, hi'⟩)).le
  refine ⟨_, cpuShare_tickRun m mode hn hshort hroom hi, ?_⟩
  rw [idealShare_tickRun m mode n hfit hi]
  obtain ⟨base, hclocks⟩ := clocks_tickRun m specs mode hne hshort hpos hmin
  have hlo := scaleLo_pos m
  have hhi := hlo.trans_le (scaleLo_le m)
  have hcount : ∑ j ∈ Finset.range specs.length,
      (picksOf (freshRq specs mode) (List.replicate n (.tick m)) j : ℚ) = n := by
    exact_mod_cast sum_picksOf_tickRun m mode hne n
  have hnq : (0 : ℚ) < n := by exact_mod_cast hn
  have hminq : (0 : ℚ) < wmin := by exact_mod_cast hpos
  obtain ⟨hge, hle⟩ := hclocks.share_near hweights hlo hhi hminq (hcount.symm ▸ hnq) hi'
  rw [hcount] at hge hle
  have hratio := scaleHi_div_le m
  have hinv : 1 / m.scalingRatio ≤ (m.scaleLo : ℚ) / m.scaleHi := by
    rw [← one_div_div (m.scaleHi : ℚ) m.scaleLo]
    exact one_div_le_one_div_of_le (div_pos hhi hlo) hratio
  refine ⟨le_trans ?_ hge, hle.trans (mul_le_mul_of_nonneg_right hratio ?_)⟩
  · rw [div_eq_mul_one_div]
    gcongr
  · exact add_nonneg hshare (by positivity)

/-- Three tasks of weights 1024, 335 and 1991 after a hundred BSA ticks. -/
theorem cpu_shares_near_ideal_three :
    ∃ share, (fairnessCpuShares (some (tickRun .bsa threeTasks 1 100)) [0, 0, 0] 3)[1]? = some share ∧
      fairnessIdealShare (taskGetWeight (tickRun .bsa threeTasks 1 100).tasks[1]?)
          (fairnessTotalWeight (some (tickRun .bsa threeTasks 1 100))) / Mode.scalingRatio .bsa -
        ((freshRq threeTasks 1).weightOf 1).toNat / ((335 : ℕ) * (100 : ℕ)) ≤ share ∧
      share ≤ Mode.scalingRatio .bsa * (fairnessIdealShare
          (taskGetWeight (tickRun .bsa threeTasks 1 100).tasks[1]?)
          (fairnessTotalWeight (some (tickRun .bsa threeTasks 1 100))) +
        ((freshRq threeTasks 1).weightOf 1).toNat / ((335 : ℕ) * (100 : ℕ))) :=
  cpu_shares_near_ideal .bsa threeTasks 1 100 335 1 [0, 0, 0] (by decide) (by decide) (by decide)
    (by decide) (by decide) (by decide) (by decide)

end ApexCfs
