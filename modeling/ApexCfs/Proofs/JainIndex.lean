import ApexCfs.Lib.Jain
import ApexCfs.Proofs.Tick

/-! When `fairness_jain_index` is Jain's index. Its sums and products are those
of the natural numbers modulo `2 ^ 64`, so it is exact until `n * ∑ x^2`, the
largest of them, leaves 64 bits. -/

namespace ApexCfs

open Idealised Machine

/-- The runtimes of the runnable tasks. -/
def runnableTimes (tasks : List CfsTask) : List ℕ :=
  (tasks.filter fun t => t.runnable = 1).map fun t => t.execRuntime.toNat

/-- The division of `fairness_jain_index` is the one of Jain's index. -/
structure JainExact (rq : CfsRq) : Prop where
  num : (jainSums rq.tasks).num.toNat = (runnableTimes rq.tasks).sum ^ 2
  den : (jainSums rq.tasks).den.toNat =
    (runnableTimes rq.tasks).length * Jain.sumSq (runnableTimes rq.tasks)
  index : fairnessJainIndex rq = .fin (Jain.index (runnableTimes rq.tasks))
  range : 1 / ((runnableTimes rq.tasks).length : ℚ) ≤ Jain.index (runnableTimes rq.tasks) ∧
    Jain.index (runnableTimes rq.tasks) ≤ 1
  fair : fairnessJainIndex rq = .fin 1 ↔
    ∀ x ∈ runnableTimes rq.tasks, ∀ y ∈ runnableTimes rq.tasks, x = y

theorem jainSums_eq (tasks : List CfsTask) :
    jainSums tasks =
      { sum := UInt64.ofNat (runnableTimes tasks).sum
        sumSq := UInt64.ofNat (Jain.sumSq (runnableTimes tasks))
        n := (runnableTimes tasks).length } := by
  induction tasks using List.reverseRecOn with
  | nil => rfl
  | append_singleton tasks t ih =>
    have hloop : jainSums (tasks ++ [t]) = (jainSums tasks).step t := by
      rw [jainSums, List.foldl_append]
      rfl
    rw [hloop, ih, JainSums.step, runnableTimes, runnableTimes, List.filter_append]
    by_cases hr : t.runnable = 1
    · simp [hr, Jain.sumSq, UInt64.ofNat_add, pow_two, UInt64.ofNat_mul]
    · simp [hr]

theorem num_eq (tasks : List CfsTask) :
    (jainSums tasks).num = UInt64.ofNat ((runnableTimes tasks).sum ^ 2) := by
  rw [jainSums_eq, JainSums.num, pow_two, UInt64.ofNat_mul]

theorem den_eq (tasks : List CfsTask) :
    (jainSums tasks).den =
      UInt64.ofNat ((runnableTimes tasks).length * Jain.sumSq (runnableTimes tasks)) := by
  rw [jainSums_eq, JainSums.den, UInt64.ofNat_mul]

theorem jainIndex_eq {rq : CfsRq} (hn : 2 ≤ (runnableTimes rq.tasks).length)
    (hx : ∃ x ∈ runnableTimes rq.tasks, x ≠ 0)
    (hfit : (runnableTimes rq.tasks).length * Jain.sumSq (runnableTimes rq.tasks) < 2 ^ 64) :
    fairnessJainIndex rq = .fin (Jain.index (runnableTimes rq.tasks)) := by
  have hsumSq : 0 < Jain.sumSq (runnableTimes rq.tasks) := Jain.sumSq_pos hx
  have hsum : 0 < (runnableTimes rq.tasks).sum := by
    obtain ⟨x, hmem, hne⟩ := hx
    exact (Nat.pos_of_ne_zero hne).trans_le (List.le_sum_of_mem hmem)
  have hle : Jain.sumSq (runnableTimes rq.tasks) < 2 ^ 64 :=
    (Nat.le_mul_of_pos_left _ (by omega)).trans_lt hfit
  have hsq : (runnableTimes rq.tasks).sum ^ 2 < 2 ^ 64 := (Jain.sq_sum_le _).trans_lt hfit
  have hsumle : (runnableTimes rq.tasks).sum < 2 ^ 64 := (Jain.sum_le_sumSq _).trans_lt hle
  have hlen : rq.tasks.length ≠ 0 := by
    intro h0
    rw [List.length_eq_zero_iff] at h0
    simp [h0, runnableTimes] at hn
  have hzero : ¬ ((jainSums rq.tasks).sum = 0 ∨ (jainSums rq.tasks).sumSq = 0) := by
    rw [jainSums_eq, ← UInt64.toNat_inj, ← UInt64.toNat_inj, Word.toNat_ofNat_of_lt hsumle,
      Word.toNat_ofNat_of_lt hle, UInt64.toNat_zero]
    omega
  have hcount : ¬ (jainSums rq.tasks).n < JAIN_MIN_TASKS := by
    rw [jainSums_eq]
    exact not_lt.mpr hn
  have hd : (runnableTimes rq.tasks).length * Jain.sumSq (runnableTimes rq.tasks) ≠ 0 :=
    (Nat.mul_pos (by omega) hsumSq).ne'
  have hindex : (((runnableTimes rq.tasks).sum ^ 2 : ℕ) : ℚ) /
      ((runnableTimes rq.tasks).length * Jain.sumSq (runnableTimes rq.tasks) : ℕ) =
      Jain.index (runnableTimes rq.tasks) := by
    rw [Jain.index]
    push_cast
    rfl
  simp only [fairnessJainIndex, hlen, hcount, hzero, if_false]
  rw [num_eq, den_eq, Word.toNat_ofNat_of_lt hsq, Word.toNat_ofNat_of_lt hfit,
    Double.quot_of_ne_zero _ hd, hindex,
    Double.clampUnit_fin ((by positivity : (0 : ℚ) ≤ 1 / _).trans (Jain.inv_length_le_index hx))
      (Jain.index_le_one hx)]

/-- In every state that a history of ticks and flag changes reaches from fresh
tasks, with two runnable tasks that have not both stayed at zero: the function
computes Jain's index exactly if `n * ∑ x^2` fits 64 bits. -/
theorem jain_exact_iff (specs : List (ℤ × ℤ)) (mode : ℤ) (ops : List Op)
    (hn : 2 ≤ (runnableTimes (runOps (freshRq specs mode) ops).tasks).length)
    (hx : ∃ x ∈ runnableTimes (runOps (freshRq specs mode) ops).tasks, x ≠ 0) :
    JainExact (runOps (freshRq specs mode) ops) ↔
      (runnableTimes (runOps (freshRq specs mode) ops).tasks).length *
        Jain.sumSq (runnableTimes (runOps (freshRq specs mode) ops).tasks) < 2 ^ 64 := by
  generalize runOps (freshRq specs mode) ops = rq at *
  refine ⟨fun h => ?_, fun hfit => ?_⟩
  · rw [← h.den]
    exact Word.toNat_lt _
  · have hindex := jainIndex_eq hn hx hfit
    refine ⟨?_, ?_, hindex, ⟨Jain.inv_length_le_index hx, Jain.index_le_one hx⟩, ?_⟩
    · rw [num_eq, Word.toNat_ofNat_of_lt ((Jain.sq_sum_le _).trans_lt hfit)]
    · rw [den_eq, Word.toNat_ofNat_of_lt hfit]
    · rw [hindex, Double.fin.injEq]
      exact Jain.index_eq_one_iff hx

/-- Three ticks of two tasks, two of them to the first one. -/
theorem jain_exact_three_ticks :
    JainExact (runOps (freshRq [(0, 0), (1, 0)] 3) (List.replicate 3 (.tick .apaf))) ↔
      (runnableTimes (runOps (freshRq [(0, 0), (1, 0)] 3)
          (List.replicate 3 (.tick .apaf))).tasks).length *
        Jain.sumSq (runnableTimes (runOps (freshRq [(0, 0), (1, 0)] 3)
          (List.replicate 3 (.tick .apaf))).tasks) < 2 ^ 64 :=
  jain_exact_iff [(0, 0), (1, 0)] 3 (List.replicate 3 (.tick .apaf)) (by decide +kernel)
    (by decide +kernel)

/-- Two tasks, of which only the first one runs; it has run for `t` ticks. -/
structure Alone (t : ℕ) (rq : CfsRq) : Prop where
  length : rq.tasks.length = 2
  first : ∃ a, rq.tasks[0]? = some a ∧ a.runnable = 1 ∧
    a.execRuntime = UInt64.ofNat (t * TICK_NS.toNat)
  second : ∃ b, rq.tasks[1]? = some b ∧ b.runnable = 0 ∧ b.execRuntime = 0

theorem Alone.pick {t : ℕ} {rq : CfsRq} (h : Alone t rq) : exactPickNextTask rq = some 0 := by
  obtain ⟨a, ha, hra, -⟩ := h.first
  obtain ⟨b, hb, hrb, -⟩ := h.second
  refine (pick_eq_some_iff rq 0).mpr ⟨a, ha, hra, ?_, fun j c hj => absurd hj (Nat.not_lt_zero j)⟩
  intro j c hc hrc
  have hlt : j < 2 := h.length ▸ (List.getElem?_eq_some_iff.mp hc).1
  rcases (by omega : j = 0 ∨ j = 1) with rfl | rfl
  · rw [Option.some.inj (hc.symm.trans ha)]
  · rw [Option.some.inj (hc.symm.trans hb), hrb] at hrc
    exact absurd hrc (by decide)

theorem Alone.tick {t : ℕ} {rq : CfsRq} (h : Alone t rq) (m : Mode) : Alone (t + 1) (m.tick rq) := by
  obtain ⟨a, ha, hra, hea⟩ := h.first
  obtain ⟨b, hb, hrb, heb⟩ := h.second
  obtain ⟨a', ha', -, hr', -, he'⟩ := tick_picked m ha h.pick
  obtain ⟨b', hb', -, hr'', -, he''⟩ := tick_other m hb (by rw [h.pick]; decide)
  refine ⟨(tick_length m rq).trans h.length, ⟨a', ha', hr'.trans hra, ?_⟩,
    ⟨b', hb', hr''.trans hrb, he''.trans heb⟩⟩
  rw [he', hea, Nat.add_mul, Nat.one_mul, UInt64.ofNat_add, UInt64.ofNat_toNat]

theorem Alone.run {rq : CfsRq} (h : Alone 0 rq) (m : Mode) (t : ℕ) :
    Alone t (runOps rq (List.replicate t (.tick m))) := by
  induction t with
  | zero => exact h
  | succ t ih =>
    rw [List.replicate_succ', runOps, run_snoc]
    exact ih.tick m

/-- The second task blocked while the first one runs for 3038 ticks, and awake again. -/
def wrapHistory : List Op :=
  [.setRunnable 1 0] ++ List.replicate 3038 (.tick .exact) ++ [.setRunnable 1 1]

theorem runnableTimes_wrap :
    runnableTimes (runOps (freshRq [(0, 0), (1, 0)] 0) wrapHistory).tasks = [3038000000, 0] := by
  have hstart : Alone 0 (runOps (freshRq [(0, 0), (1, 0)] 0) [.setRunnable 1 0]) :=
    ⟨rfl, ⟨_, rfl, rfl, rfl⟩, ⟨_, rfl, rfl, rfl⟩⟩
  have hrun := hstart.run .exact 3038
  rw [runOps] at hrun
  rw [wrapHistory, runOps, run_snoc, run_append]
  generalize run Op.apply (run Op.apply (freshRq [(0, 0), (1, 0)] 0) [.setRunnable 1 0])
    (List.replicate 3038 (.tick .exact)) = rq at hrun ⊢
  obtain ⟨a, ha, hra, hea⟩ := hrun.first
  obtain ⟨b, hb, hrb, heb⟩ := hrun.second
  obtain ⟨a', b', he⟩ := List.length_eq_two.mp hrun.length
  rw [he] at ha hb
  obtain rfl : a' = a := Option.some.inj ha
  obtain rfl : b' = b := Option.some.inj hb
  have hta : a'.execRuntime.toNat = 3038000000 := by
    rw [hea]
    decide
  simp [Op.apply, he, runnableTimes, taskSetRunnable, hra, heb, hta]

/-- There `2 * 3038000000^2` is past `2 ^ 64`: the function reports 1, the index is 1/2. -/
theorem jain_wraps :
    ¬ ∀ (specs : List (ℤ × ℤ)) (mode : ℤ) (ops : List Op),
      2 ≤ (runnableTimes (runOps (freshRq specs mode) ops).tasks).length →
      (∃ x ∈ runnableTimes (runOps (freshRq specs mode) ops).tasks, x ≠ 0) →
      JainExact (runOps (freshRq specs mode) ops) := by
  intro h
  have hden := (h [(0, 0), (1, 0)] 0 wrapHistory (by rw [runnableTimes_wrap]; decide)
    (by rw [runnableTimes_wrap]; decide)).den
  have hlt := Word.toNat_lt (jainSums (runOps (freshRq [(0, 0), (1, 0)] 0) wrapHistory).tasks).den
  rw [hden, runnableTimes_wrap] at hlt
  revert hlt
  decide

end ApexCfs
