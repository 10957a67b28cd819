import ApexCfs.Proofs.JainIndex
import ApexCfs.Proofs.ShortRuns

/-! Runs of one mode in which no task ever blocks. Every tick picks exactly one
task, so the runtimes count the picks and add up to the ticks. -/

namespace ApexCfs

open Machine ListLoop

def CfsRq.unblocked (rq : CfsRq) : Prop := ∀ t ∈ rq.tasks, t.runnable = 1

theorem unblocked_fresh (specs : List (ℤ × ℤ)) (mode : ℤ) : (freshRq specs mode).unblocked := by
  intro t ht
  obtain ⟨s, -, rfl⟩ := List.mem_map.mp ht
  rfl

theorem unblocked_tick (m : Mode) {rq : CfsRq} (h : rq.unblocked) : (m.tick rq).unblocked := by
  intro t' ht'
  obtain ⟨k, hk⟩ := List.mem_iff_getElem?.mp ht'
  have hlt : k < rq.tasks.length := tick_length m rq ▸ (List.getElem?_eq_some_iff.mp hk).1
  have ht := List.getElem?_eq_getElem hlt
  obtain ⟨u, hu, hs⟩ := tick_task m ht
  obtain rfl := Option.some.inj (hu.symm.trans hk)
  have hold : rq.tasks[k].runnable = 1 := h _ (List.getElem_mem hlt)
  rw [(fields_of_sched hs).2.2.2]
  split_ifs
  · exact hold
  · exact hold

def tickRun (m : Mode) (specs : List (ℤ × ℤ)) (mode : ℤ) (n : ℕ) : CfsRq :=
  runOps (freshRq specs mode) (List.replicate n (.tick m))

theorem tickRun_succ (m : Mode) (specs : List (ℤ × ℤ)) (mode : ℤ) (n : ℕ) :
    tickRun m specs mode (n + 1) = m.tick (tickRun m specs mode n) := by
  rw [tickRun, List.replicate_succ', runOps, run_snoc]
  rfl

theorem unblocked_tickRun (m : Mode) (specs : List (ℤ × ℤ)) (mode : ℤ) (n : ℕ) :
    (tickRun m specs mode n).unblocked := by
  induction n with
  | zero => exact unblocked_fresh specs mode
  | succ n ih => exact tickRun_succ m specs mode n ▸ unblocked_tick m ih

theorem tickRun_length (m : Mode) (specs : List (ℤ × ℤ)) (mode : ℤ) (n : ℕ) :
    (tickRun m specs mode n).tasks.length = specs.length :=
  (runOps_length _ _).trans (freshRq_length specs mode)

theorem isMode_replicate (m : Mode) (n : ℕ) :
    ∀ op ∈ List.replicate n (Op.tick m), op.isMode m := by
  intro op hop
  rw [List.eq_of_mem_replicate hop]
  rfl

theorem countP_replicate_tick (m : Mode) (n : ℕ) :
    (List.replicate n (Op.tick m)).countP Op.isTick = n := by
  simp [List.countP_replicate, Op.isTick]

theorem CfsRq.unblocked.isRunnable {rq : CfsRq} (h : rq.unblocked) {k : ℕ}
    (hk : k < rq.tasks.length) : rq.isRunnable k :=
  ⟨_, List.getElem?_eq_getElem hk, h _ (List.getElem_mem hk)⟩

theorem runnableAtTicks_tickRun (m : Mode) {specs : List (ℤ × ℤ)} (mode : ℤ) (n : ℕ) {k : ℕ}
    (hk : k < specs.length) :
    RunnableAtTicks k (freshRq specs mode) (List.replicate n (.tick m)) :=
  along_replicate.mpr fun t _ _ => (unblocked_tickRun m specs mode t).isRunnable (by
    rw [tickRun_length]
    exact hk)

/-- A runqueue of `n` tasks that has one to pick at the event. -/
def Busy (n : ℕ) (rq : CfsRq) (op : Op) : Prop :=
  rq.tasks.length = n ∧ (op.isTick → exactPickNextTask rq ≠ none)

theorem sum_picks_step {n : ℕ} (rq : CfsRq) (op : Op) (h : Busy n rq op) :
    (∑ i ∈ Finset.range n, if op.picks i rq then 1 else 0) = if op.isTick then 1 else 0 := by
  obtain ⟨hlen, hbusy⟩ := h
  cases op with
  | setRunnable i r => simp [Op.isTick, Op.picks, Op.pick]
  | tick m =>
    obtain ⟨k, hp⟩ := Option.ne_none_iff_exists'.mp (hbusy rfl)
    obtain ⟨t, ht, -⟩ := runnable_of_pick hp
    have hk : k < n := hlen ▸ (List.getElem?_eq_some_iff.mp ht).1
    have htick : (Op.tick m).isTick = true := rfl
    have hiff : ∀ i, (Op.tick m).picks i rq = true ↔ i = k := fun i => by
      rw [picks_iff, Op.pick, hp, Option.some.injEq]
      exact eq_comm
    simp only [hiff, htick, if_true, Finset.sum_ite_eq', Finset.mem_range, hk]

theorem sum_picksOf {n : ℕ} {rq : CfsRq} {ops : List Op} (h : Along Op.apply (Busy n) rq ops) :
    ∑ i ∈ Finset.range n, picksOf rq ops i = ops.countP Op.isTick := by
  have hsum := sum_countAlong (Finset.range n) (Q := fun i => Op.picks i)
    (P := fun _ op => op.isTick) sum_picks_step h
  rwa [countAlong_const] at hsum

theorem busy_tickRun (m : Mode) {specs : List (ℤ × ℤ)} (mode : ℤ) (hn : 0 < specs.length) (n : ℕ) :
    Along Op.apply (Busy specs.length) (freshRq specs mode) (List.replicate n (.tick m)) :=
  along_replicate.mpr fun t _ => by
    refine ⟨tickRun_length m specs mode t, fun _ hp => ?_⟩
    have hlt : 0 < (tickRun m specs mode t).tasks.length := by rw [tickRun_length]; exact hn
    exact (pick_eq_none_iff _).mp hp _ (List.getElem_mem hlt)
      (unblocked_tickRun m specs mode t _ (List.getElem_mem hlt))

theorem sum_picksOf_tickRun (m : Mode) {specs : List (ℤ × ℤ)} (mode : ℤ) (hn : 0 < specs.length)
    (n : ℕ) : ∑ i ∈ Finset.range specs.length,
      picksOf (freshRq specs mode) (List.replicate n (.tick m)) i = n := by
  rw [sum_picksOf (busy_tickRun m mode hn n), countP_replicate_tick]

theorem execRuntimeOf_tickRun (m : Mode) (specs : List (ℤ × ℤ)) (mode : ℤ) {n : ℕ}
    (hshort : n ≤ 2 ^ 36) (k : ℕ) : (tickRun m specs mode n).execRuntimeOf k =
      picksOf (freshRq specs mode) (List.replicate n (.tick m)) k * TICK_NS.toNat := by
  have hwrap : NoExecRuntimeWrap k (freshRq specs mode) (List.replicate n (.tick m)) :=
    noExecRuntimeWrap_of_short (by
      rw [countP_replicate_tick]
      exact hshort) k
  have h := execRuntimeOf_eq_picks (isMode_replicate m n) hwrap
  rwa [freshRq_execRuntimeOf, Nat.zero_add] at h

theorem runnableTimes_of_unblocked {rq : CfsRq} (h : rq.unblocked) :
    runnableTimes rq.tasks = rq.tasks.map fun t => t.execRuntime.toNat := by
  rw [runnableTimes, List.filter_eq_self.mpr fun t ht => decide_eq_true (h t ht)]

theorem sum_runnableTimes_tickRun (m : Mode) {specs : List (ℤ × ℤ)} (mode : ℤ)
    (hn : 0 < specs.length) {n : ℕ} (hshort : n ≤ 2 ^ 36) :
    (runnableTimes (tickRun m specs mode n).tasks).sum = n * TICK_NS.toNat := by
  rw [runnableTimes_of_unblocked (unblocked_tickRun m specs mode n),
    sum_map_eq_sum_range _ (fun i => (tickRun m specs mode n).execRuntimeOf i) _ fun i t ht => by
      rw [CfsRq.execRuntimeOf, ht]
      rfl,
    tickRun_length, Finset.sum_congr rfl fun i _ => execRuntimeOf_tickRun m specs mode hshort i,
    ← Finset.sum_mul, sum_picksOf_tickRun m mode hn]

end ApexCfs
