import ApexCfs.Lib.Turns
import ApexCfs.Proofs.NonInterference
import ApexCfs.Proofs.Summary
import ApexCfs.Proofs.Unblocked

/-! Experiment 1, equal weights. The tasks take turns under every logic, so its
fairness columns cannot tell the logics apart: Jain's index after `t` ticks
depends on `t` and the number of tasks only. -/

namespace ApexCfs

open Idealised Machine Turns ListLoop Extremum

def exp1Entries (n : ℕ) (logic : ℤ) (ticks : ℕ) : List Metrics :=
  (List.range ticks).map fun i => (pairRun (equalTasks n) logic (i + 1)).entry

theorem exp1Loop_eq (n : ℕ) (logic : ℤ) {ticks : ℕ} {mbuf : List Metrics}
    (hroom : ticks ≤ mbuf.length) :
    (exp1Loop n logic ticks mbuf).1 = pairRun (equalTasks n) logic ticks ∧
      (exp1Loop n logic ticks mbuf).2 =
        exp1Entries n logic ticks ++ (metricsInit mbuf ticks).drop ticks := by
  have hst : ∀ (s : Pair × List Metrics) (i : ℕ), (exp1Step logic s i).1 = s.1.tick logic :=
    fun _ _ => rfl
  have hbuf : ∀ (s : Pair × List Metrics) (i : ℕ),
      (exp1Step logic s i).2 = s.2.modify i fun _ => (s.1.tick logic).entry := fun _ _ => rfl
  have hpair := foldl_pairTick (equalTasks n) logic
  refine ⟨?_, ?_⟩
  · exact (foldl_project (f := fun p _ => Pair.tick logic p) hst _ ticks).trans (hpair ticks)
  · have h := foldl_record (f := fun p _ => Pair.tick logic p)
      (g := fun p _ => (Pair.tick logic p).entry) hst hbuf
      (Pair.init (equalTasks n) logic, metricsInit mbuf ticks) (k := ticks)
      (by rw [metricsInit_length]; exact hroom)
    rw [exp1Loop, h, exp1Entries]
    congr 1
    refine List.map_congr_left fun i _ => ?_
    rw [hpair i, pairRun_succ]

theorem exp1_sums (n : ℕ) (logic : ℤ) {ticks : ℕ} {mbuf : List Metrics}
    (hroom : ticks ≤ mbuf.length) :
    summaryAcc (exp1Loop n logic ticks mbuf).2 ticks =
      (exp1Entries n logic ticks).foldl SummaryAcc.step SummaryAcc.init := by
  rw [(exp1Loop_eq n logic hroom).2]
  exact summaryAcc_append (by simp [exp1Entries])

theorem exp1_finalJain (n : ℕ) (logic : ℤ) {ticks : ℕ} {mbuf : List Metrics}
    (hroom : ticks ≤ mbuf.length) : (runExperiment n logic ticks mbuf).finalJain =
      (tickRun (logicMode logic) (equalTasks n) logic ticks).jainIndex := by
  change (exp1Loop n logic ticks mbuf).1.approxRq.jainIndex = _
  rw [(exp1Loop_eq n logic hroom).1]
  rfl

theorem equalTasks_length (n : ℕ) : (equalTasks n).length = n := by simp [equalTasks]

theorem equalTasks_eq (n : ℕ) :
    equalTasks n = ((List.range n).map fun i => (i : ℤ)).map fun id => (id, 0) := by
  rw [equalTasks, List.map_map]
  rfl

theorem unitWeights_equalTasks (n : ℕ) (mode : ℤ) : (freshRq (equalTasks n) mode).unitWeights := by
  have hweight : (taskCreate 0 0).weight = 1024 := by decide
  intro t ht
  obtain ⟨s, hs, rfl⟩ := List.mem_map.mp ht
  obtain ⟨i, -, rfl⟩ := List.mem_map.mp hs
  exact hweight

theorem sameView_equalTasks (n : ℕ) (m m' : Mode) (mode mode' : ℤ) (k : ℕ) :
    SameView (tickRun m (equalTasks n) mode k) (tickRun m' (equalTasks n) mode' k) ∧
      (tickRun m (equalTasks n) mode k).unitWeights := by
  induction k with
  | zero => exact ⟨⟨rfl, rfl, rfl⟩, unitWeights_equalTasks n mode⟩
  | succ k ih =>
    rw [tickRun_succ, tickRun_succ]
    exact ⟨tick_unit m m' ih.1 ih.2, unitWeights_apply (.tick m) ih.2⟩

theorem jain_equalTasks (n : ℕ) (m m' : Mode) (mode mode' : ℤ) (k : ℕ) :
    fairnessJainIndex (tickRun m (equalTasks n) mode k) =
      fairnessJainIndex (tickRun m' (equalTasks n) mode' k) := by
  rw [← jainIndex_sched (tickRun m _ _ _), ← jainIndex_sched (tickRun m' _ _ _)]
  exact jain_congr (sameView_equalTasks n m m' mode mode' k).1.tasks

/-- Where some task is picked, a tick leaves the index of the new state. -/
theorem tickRun_jainIndex (m : Mode) {specs : List (ℤ × ℤ)} (mode : ℤ) (hn : 0 < specs.length)
    (k : ℕ) : (tickRun m specs mode (k + 1)).jainIndex =
      fairnessJainIndex (tickRun m specs mode (k + 1)) := by
  obtain ⟨i, hi⟩ : ∃ i, exactPickNextTask (tickRun m specs mode k) = some i := by
    rcases hp : exactPickNextTask (tickRun m specs mode k) with _ | i
    · have hlt : 0 < (tickRun m specs mode k).tasks.length := by rw [tickRun_length]; exact hn
      exact absurd (unblocked_tickRun m specs mode k _ (List.getElem_mem hlt))
        ((pick_eq_none_iff _).mp hp _ (List.getElem_mem hlt))
    · exact ⟨i, rfl⟩
  rw [tickRun_succ, tick_of_pick m hi, mirrorTick_jainIndex]

/-- The fairness that experiment 1 reports is the same for every logic, even
where the index wraps. -/
theorem exp1_fairness_blind (n : ℕ) (logic logic' : ℤ) (ticks : ℕ) (mbuf mbuf' : List Metrics)
    (hn : 0 < n) (hroom : ticks ≤ mbuf.length) (hroom' : ticks ≤ mbuf'.length) :
    (runExperiment n logic ticks mbuf).finalJain = (runExperiment n logic' ticks mbuf').finalJain ∧
    (runExperiment n logic ticks mbuf).minJain = (runExperiment n logic' ticks mbuf').minJain ∧
    (runExperiment n logic ticks mbuf).avgJain = (runExperiment n logic' ticks mbuf').avgJain := by
  have hcolumn : (exp1Entries n logic ticks).map Metrics.jainIndex =
      (exp1Entries n logic' ticks).map Metrics.jainIndex := by
    rw [exp1Entries, exp1Entries, List.map_map, List.map_map]
    exact List.map_congr_left fun i _ => jain_equalTasks n _ _ _ _ (i + 1)
  have hsums := (exp1_sums n logic hroom).trans (foldl_summary _ _)
  have hsums' := (exp1_sums n logic' hroom').trans (foldl_summary _ _)
  rw [hcolumn] at hsums
  refine ⟨?_, ?_, ?_⟩
  · rw [exp1_finalJain n logic hroom, exp1_finalJain n logic' hroom']
    cases ticks with
    | zero => rfl
    | succ k =>
      have hlen : 0 < (equalTasks n).length := by rw [equalTasks_length]; exact hn
      rw [tickRun_jainIndex _ _ hlen, tickRun_jainIndex _ _ hlen]
      exact jain_equalTasks n _ _ _ _ (k + 1)
  · exact (congrArg SummaryAcc.minJain hsums).trans (congrArg SummaryAcc.minJain hsums').symm
  · exact (congrArg (fun acc => acc.avgJain.divNat ticks) hsums).trans
      (congrArg (fun acc => acc.avgJain.divNat ticks) hsums').symm

theorem exp1_fairness_blind_two :
    (runExperiment 2 1 3 (List.replicate 3 Metrics.zeroed)).finalJain =
        (runExperiment 2 3 3 (List.replicate 4 Metrics.zeroed)).finalJain ∧
      (runExperiment 2 1 3 (List.replicate 3 Metrics.zeroed)).minJain =
        (runExperiment 2 3 3 (List.replicate 4 Metrics.zeroed)).minJain ∧
      (runExperiment 2 1 3 (List.replicate 3 Metrics.zeroed)).avgJain =
        (runExperiment 2 3 3 (List.replicate 4 Metrics.zeroed)).avgJain :=
  exp1_fairness_blind 2 1 3 3 _ _ (by decide) (by decide) (by decide)

theorem unit_delta_of (m : Mode) (state : ℤ) :
    (m.delta state TICK_NS (taskCreate 0 0).weight.toUInt32).toNat = 1000000 := by
  have hw : (taskCreate 0 0).weight = 1024 := by decide
  rw [hw, delta_unit]
  exact toNat_tick

theorem balanced_equalTasks (m : Mode) (mode : ℤ) {n : ℕ} (hn : 0 < n) {t : ℕ} (ht : t ≤ 2 ^ 36) :
    Balanced n 1000000 (taskCreate 0 0).weight t (tickRun m (equalTasks n) mode t) := by
  have hlen : ((List.range n).map fun i => (i : ℤ)).length = n := by simp
  have h := balanced_fresh ((List.range n).map fun i => (i : ℤ)) 0 mode 1000000
  rw [hlen, ← equalTasks_eq] at h
  refine h.run hn (by norm_num) (unit_delta_of m) fun s hs => ?_
  have hdiv := Nat.div_le_self s n
  omega

theorem runnableTimes_equalTasks (m : Mode) (mode : ℤ) {n : ℕ} (hn : 0 < n) {t : ℕ}
    (ht : t ≤ 2 ^ 36) : runnableTimes (tickRun m (equalTasks n) mode t).tasks =
      ((List.range n).map fun i => turns n i t).map (· * TICK_NS.toNat) := by
  have hbal := balanced_equalTasks m mode hn ht
  rw [runnableTimes_of_unblocked (unblocked_tickRun _ _ _ _), List.map_map]
  refine List.ext_getElem (by simp [hbal.length]) fun i hi _ => ?_
  have hlt : i < (tickRun m (equalTasks n) mode t).tasks.length := by simpa using hi
  have hle := (turns_le n i t).trans (Nat.succ_le_succ (Nat.div_le_self t n))
  have hexec := hbal.execRuntimeOf (hbal.length ▸ hlt)
  rw [CfsRq.execRuntimeOf, List.getElem?_eq_getElem hlt, toNat_tick,
    Nat.mod_eq_of_lt (by omega)] at hexec
  simpa [toNat_tick] using hexec

theorem sumSq_equalTasks (m : Mode) (mode : ℤ) {n : ℕ} (hn : 0 < n) {t : ℕ} (ht : t ≤ 2 ^ 36) :
    n * Jain.sumSq (runnableTimes (tickRun m (equalTasks n) mode t).tasks) =
      (t ^ 2 + t % n * (n - t % n)) * TICK_NS.toNat ^ 2 := by
  have hlen : 0 < (equalTasks n).length := by rw [equalTasks_length]; exact hn
  have hsum := sum_runnableTimes_tickRun m mode hlen ht
  rw [runnableTimes_equalTasks m mode hn ht, List.sum_map_mul_right, List.map_id'] at hsum
  have hturns := Nat.eq_of_mul_eq_mul_right (by rw [toNat_tick]; norm_num) hsum
  have hlevel := @Jain.length_mul_sumSq_of_level ((List.range n).map fun i => turns n i t)
    fun x hx y hy => by
      obtain ⟨i, -, rfl⟩ := List.mem_map.mp hx
      obtain ⟨j, -, rfl⟩ := List.mem_map.mp hy
      exact (turns_le n i t).trans (Nat.succ_le_succ (turns_ge n j t))
  rw [List.length_map, List.length_range, hturns] at hlevel
  rw [runnableTimes_equalTasks m mode hn ht, Jain.sumSq_scale, ← Nat.mul_assoc, hlevel]

/-- Jain's index of `n` equal tasks after `t` ticks, as a fraction. -/
def equalJain (n t : ℕ) : ℚ := t ^ 2 / (t ^ 2 + (t % n * (n - t % n) : ℕ))

theorem jain_equalTasks_eq (m : Mode) (mode : ℤ) {n t : ℕ} (hn : 0 < n) (ht : 0 < t)
    (hfit : (t ^ 2 + t % n * (n - t % n)) * TICK_NS.toNat ^ 2 < 2 ^ 64) :
    fairnessJainIndex (tickRun m (equalTasks n) mode t) = .fin (equalJain n t) := by
  have hshort : t ≤ 2 ^ 36 := by
    rw [toNat_tick] at hfit
    by_contra hlong
    have hsq : (2 ^ 36) ^ 2 ≤ t ^ 2 := Nat.pow_le_pow_left (not_le.mp hlong).le 2
    omega
  have hbal := balanced_equalTasks m mode hn hshort
  have hlen : 0 < (equalTasks n).length := by rw [equalTasks_length]; exact hn
  have hcount : (runnableTimes (tickRun m (equalTasks n) mode t).tasks).length = n := by
    rw [runnableTimes_of_unblocked (unblocked_tickRun _ _ _ _), List.length_map, hbal.length]
  have htq : (0 : ℚ) < t := by exact_mod_cast ht
  rcases (by omega : n = 1 ∨ 2 ≤ n) with rfl | hn2
  · -- a single task has index one by definition
    have hone : equalJain 1 t = 1 := by
      rw [equalJain, Nat.mod_one, Nat.zero_mul, Nat.cast_zero, add_zero, div_self (by positivity)]
    have hmin : (jainSums (tickRun m (equalTasks 1) mode t).tasks).n < JAIN_MIN_TASKS := by
      rw [show (jainSums (tickRun m (equalTasks 1) mode t).tasks).n = 1 from by
        rw [jainSums_eq]
        exact hcount]
      decide
    simp only [fairnessJainIndex, hbal.length, hmin, one_ne_zero, if_false, if_true, hone]
  · have hsum := sum_runnableTimes_tickRun m mode hlen hshort
    have hsq := sumSq_equalTasks m mode hn hshort
    have hx : ∃ x ∈ runnableTimes (tickRun m (equalTasks n) mode t).tasks, x ≠ 0 := by
      by_contra hzero
      push Not at hzero
      rw [List.sum_eq_zero hzero, toNat_tick] at hsum
      omega
    rw [jainIndex_eq (by rw [hcount]; exact hn2) hx (by rw [hcount, hsq]; exact hfit), Jain.index,
      hcount, ← Nat.cast_mul, hsq, hsum, equalJain]
    have htick : ((TICK_NS.toNat : ℕ) : ℚ) ≠ 0 := by
      rw [toNat_tick]
      norm_num
    congr 1
    push_cast
    field_simp

/-- The first tick is the unfairest. -/
theorem inv_le_equalJain {n t : ℕ} (hn : 0 < n) (ht : 0 < t) : 1 / (n : ℚ) ≤ equalJain n t := by
  have hr : t % n ≤ n - 1 := Nat.le_sub_one_of_lt (Nat.mod_lt t hn)
  have hle : t % n * (n - t % n) ≤ (n - 1) * t ^ 2 := by
    rcases Nat.eq_zero_or_pos (t % n) with h0 | hpos
    · rw [h0, Nat.zero_mul]
      exact Nat.zero_le _
    · calc t % n * (n - t % n) ≤ t * (n - 1) := Nat.mul_le_mul (Nat.mod_le t n) (by omega)
        _ = (n - 1) * t := Nat.mul_comm _ _
        _ ≤ (n - 1) * t ^ 2 := Nat.mul_le_mul_left _ (Nat.le_self_pow (by norm_num) t)
  have hsum : t ^ 2 + t % n * (n - t % n) ≤ n * t ^ 2 := by
    obtain ⟨k, rfl⟩ : ∃ k, n = k + 1 := ⟨n - 1, by omega⟩
    rw [Nat.add_sub_cancel] at hle
    calc t ^ 2 + t % (k + 1) * (k + 1 - t % (k + 1)) ≤ t ^ 2 + k * t ^ 2 := Nat.add_le_add_left hle _
      _ = (k + 1) * t ^ 2 := by ring
  have hnq : (0 : ℚ) < n := by exact_mod_cast hn
  have htq : (0 : ℚ) < t := by exact_mod_cast ht
  rw [equalJain, div_le_div_iff₀ hnq (by positivity), one_mul, mul_comm (_ ^ 2 : ℚ)]
  exact_mod_cast hsum

theorem equalJain_one {n : ℕ} (hn : 0 < n) : equalJain n 1 = 1 / n := by
  rcases (by omega : n = 1 ∨ 1 < n) with rfl | hlt
  · norm_num [equalJain]
  · rw [equalJain, Nat.mod_eq_of_lt hlt, Nat.one_mul, Nat.cast_sub hlt.le]
    norm_num

theorem exp1_jainColumn {n : ℕ} (hn : 0 < n) (logic : ℤ) {ticks : ℕ}
    (hfit : ∀ t, 0 < t → t ≤ ticks → t ^ 2 + t % n * (n - t % n) ≤ 18446744) :
    (exp1Entries n logic ticks).map Metrics.jainIndex =
      ((List.range ticks).map fun i => equalJain n (i + 1)).map Double.fin := by
  rw [exp1Entries, List.map_map, List.map_map]
  refine List.map_congr_left fun i hi => ?_
  have h := hfit (i + 1) (Nat.succ_pos i) (List.mem_range.mp hi)
  refine jain_equalTasks_eq _ _ hn (Nat.succ_pos i) ?_
  rw [toNat_tick]
  omega

/-- What experiment 1 reports as fairness, in closed form, while no tick `t` wraps the
denominator of the index, which is the left side of `hfit` in squares of a tick: the
final index falls short of one by the round under way, and the least index is that of
the first tick. -/
theorem exp1_fairness_closed (n : ℕ) (logic : ℤ) (ticks : ℕ) (mbuf : List Metrics) (hn : 0 < n)
    (hticks : 0 < ticks) (hroom : ticks ≤ mbuf.length)
    (hfit : ∀ t, 0 < t → t ≤ ticks → t ^ 2 + t % n * (n - t % n) ≤ 18446744) :
    (runExperiment n logic ticks mbuf).finalJain =
        .fin (ticks ^ 2 / (ticks ^ 2 + (ticks % n * (n - ticks % n) : ℕ))) ∧
      (runExperiment n logic ticks mbuf).minJain = .fin (1 / n) := by
  have hcolumn := exp1_jainColumn hn logic hfit
  have hsums := (exp1_sums n logic hroom).trans (foldl_summary _ _)
  rw [hcolumn] at hsums
  refine ⟨?_, ?_⟩
  · obtain ⟨k, rfl⟩ : ∃ k, ticks = k + 1 := ⟨ticks - 1, by omega⟩
    have hlen : 0 < (equalTasks n).length := by rw [equalTasks_length]; exact hn
    have hlast := congrArg (fun l : List Double => l[k]?) hcolumn
    simp only [exp1Entries, List.map_map, List.getElem?_map, List.getElem?_range (Nat.lt_succ_self k),
      Option.map_some, Option.some.injEq] at hlast
    rw [exp1_finalJain n logic hroom, tickRun_jainIndex _ _ hlen]
    exact hlast
  · refine (congrArg SummaryAcc.minJain hsums).trans ?_
    change ((((List.range ticks).map fun i => equalJain n (i + 1)).map Double.fin).foldl _ (Double.fin 1)) = _
    rw [foldl_min_fin]
    congr 1
    refine runningMin_eq ?_ ?_ ?_
    · rw [div_le_one (by exact_mod_cast hn)]
      exact_mod_cast hn
    · intro q hq
      obtain ⟨i, -, rfl⟩ := List.mem_map.mp hq
      exact inv_le_equalJain hn (Nat.succ_pos i)
    · exact List.mem_map.mpr ⟨0, List.mem_range.mpr hticks, equalJain_one hn⟩

theorem exp1_fairness_closed_ten :
    (runExperiment 10 3 1000 (List.replicate 1000 Metrics.zeroed)).finalJain =
        .fin ((1000 : ℕ) ^ 2 / ((1000 : ℕ) ^ 2 + (1000 % 10 * (10 - 1000 % 10) : ℕ))) ∧
      (runExperiment 10 3 1000 (List.replicate 1000 Metrics.zeroed)).minJain =
        .fin (1 / (10 : ℕ)) := by
  refine exp1_fairness_closed 10 3 1000 _ (by decide) (by decide) (by rw [List.length_replicate]) ?_
  intro t _ ht
  have hsq := Nat.pow_le_pow_left ht 2
  have hround := Nat.mul_le_mul (Nat.mod_lt t (by decide : 10 > 0)).le (Nat.sub_le 10 (t % 10))
  omega

end ApexCfs
