import ApexCfs.Proofs.Spread

/-! CPU time over runs of all four schedulers: every tick with a runnable task
charges one task for one tick, and an idle tick charges nobody. -/

namespace ApexCfs

open Machine MinScan ListLoop

def CfsRq.isBusy (rq : CfsRq) : Prop := ∃ t ∈ rq.tasks, t.runnable = 1

instance CfsRq.decidableIsBusy (rq : CfsRq) : Decidable rq.isBusy :=
  inferInstanceAs (Decidable (∃ t ∈ rq.tasks, t.runnable = 1))

def Op.isBusyTick (rq : CfsRq) (op : Op) : Bool := op.isTick && decide rq.isBusy

def busyTicks (rq : CfsRq) (ops : List Op) : ℕ := countAlong Op.apply Op.isBusyTick rq ops

def CfsRq.totalExecRuntime (rq : CfsRq) : ℕ := (rq.tasks.map fun t => t.execRuntime.toNat).sum

def UnchargedAt (rq rq' : CfsRq) (k : ℕ) : Prop :=
  rq'.execRuntimeOf k = rq.execRuntimeOf k ∧ rq'.vruntimeOf k = rq.vruntimeOf k

def ChargedAt (rq rq' : CfsRq) (k : ℕ) : Prop :=
  rq'.execRuntimeOf k ≠ rq.execRuntimeOf k ∧ rq'.vruntimeOf k ≠ rq.vruntimeOf k

/-- What one tick charges: the first runnable task of least vruntime and no
other, or nobody when no task is runnable. -/
def ChargesThePick (rq : CfsRq) (op : Op) : Prop :=
  op.isTick →
    (rq.isBusy → ∃ k t, FirstMin (fun t : CfsTask => t.runnable = 1) CfsTask.vruntime rq.tasks k t ∧
      ChargedAt rq (op.apply rq) k ∧ ∀ j ≠ k, UnchargedAt rq (op.apply rq) j) ∧
    (¬ rq.isBusy → ∀ j, UnchargedAt rq (op.apply rq) j)

theorem pick_eq_none_iff_idle (rq : CfsRq) : exactPickNextTask rq = none ↔ ¬ rq.isBusy := by
  rw [pick_eq_none_iff, CfsRq.isBusy]
  simp

theorem delta_ne_zero (m : Mode) (state : ℤ) :
    ∀ w ∈ niceToWeight, m.delta state TICK_NS w.toUInt32 ≠ 0 := by
  cases m with
  | exact => simp only [Mode.delta]; exact forall_niceToWeight (by decide)
  | bsa => simp only [Mode.delta]; exact forall_niceToWeight (by decide)
  | clti => simp only [Mode.delta]; exact forall_niceToWeight (by decide)
  | apaf =>
    simp only [Mode.delta, ← apafVruntimeDelta_level _ _ state]
    rcases apafLevel_cases state with h | h | h <;> rw [h] <;>
      exact forall_niceToWeight (by decide)

/-- The runtime of a task array, in the ring its words live in. -/
def runtimeMod (tasks : List CfsTask) : ZMod (2 ^ 64) :=
  (tasks.map fun t => (t.execRuntime.toNat : ZMod (2 ^ 64))).sum

theorem cast_totalExecRuntime (rq : CfsRq) :
    (rq.totalExecRuntime : ZMod (2 ^ 64)) = runtimeMod rq.tasks := by
  rw [CfsRq.totalExecRuntime, Nat.cast_list_sum, List.map_map]
  rfl

theorem runtimeMod_congr {l l' : List CfsTask}
    (h : l.map CfsTask.execRuntime = l'.map CfsTask.execRuntime) : runtimeMod l = runtimeMod l' := by
  have hmap : ∀ l : List CfsTask, (l.map fun t => (t.execRuntime.toNat : ZMod (2 ^ 64))) =
      (l.map CfsTask.execRuntime).map fun x => (x.toNat : ZMod (2 ^ 64)) := by
    intro l
    rw [List.map_map]
    rfl
  rw [runtimeMod, runtimeMod, hmap, hmap, h]

theorem runtimeMod_charge (delta : UInt64 → UInt32 → UInt64) {l : List CfsTask} {i : ℕ}
    (hi : i < l.length) :
    runtimeMod (l.modify i (CfsTask.charge delta)) = runtimeMod l + (TICK_NS.toNat : ZMod (2 ^ 64)) := by
  refine sum_map_modify (fun t => ?_) hi
  have hcharge : (t.charge delta).execRuntime = t.execRuntime + TICK_NS := rfl
  rw [hcharge, UInt64.toNat_add, ZMod.natCast_mod, Nat.cast_add]

theorem runtimeMod_charged (m : Mode) (rq : CfsRq) :
    runtimeMod (charged m rq) =
      runtimeMod rq.tasks + if rq.isBusy then (TICK_NS.toNat : ZMod (2 ^ 64)) else 0 := by
  unfold charged
  rcases hp : exactPickNextTask rq with _ | i
  · rw [if_neg ((pick_eq_none_iff_idle rq).mp hp), add_zero]
  · have hbusy : rq.isBusy := by
      by_contra hidle
      rw [(pick_eq_none_iff_idle rq).mpr hidle] at hp
      simp at hp
    obtain ⟨t, ht, -⟩ := runnable_of_pick hp
    rw [if_pos hbusy]
    exact runtimeMod_charge _ (List.getElem?_eq_some_iff.mp ht).1

/-- The total runtime grows by one tick at the busy ticks and nowhere else. -/
theorem runtimeMod_apply (rq : CfsRq) (op : Op) :
    runtimeMod (op.apply rq).tasks =
      runtimeMod rq.tasks + if op.isBusyTick rq then (TICK_NS.toNat : ZMod (2 ^ 64)) else 0 := by
  cases op with
  | tick m =>
    have hsched : ∀ l : List CfsTask,
        l.map CfsTask.execRuntime = (l.map CfsTask.sched).map CfsTask.execRuntime := by
      intro l
      rw [List.map_map]
      rfl
    have hcharged : runtimeMod (m.tick rq).tasks = runtimeMod (charged m rq) := by
      refine runtimeMod_congr ?_
      rw [hsched, tick_sched, ← hsched]
    rw [Op.apply, hcharged, runtimeMod_charged]
    simp [Op.isBusyTick, Op.isTick]
  | setRunnable i r =>
    have hkeep : ∀ t : CfsTask, (taskSetRunnable t r).execRuntime = t.execRuntime := by
      intro t
      unfold taskSetRunnable
      split_ifs <;> rfl
    have hmap : (rq.tasks.modify i (taskSetRunnable · r)).map CfsTask.execRuntime =
        rq.tasks.map CfsTask.execRuntime := by
      refine List.ext_getElem? fun j => ?_
      rw [List.getElem?_map, List.getElem?_map, List.getElem?_modify]
      rcases rq.tasks[j]? with _ | t
      · rfl
      · by_cases hij : i = j
        · simp [hij, hkeep]
        · simp [hij]
    rw [Op.apply, runtimeMod_congr hmap]
    simp [Op.isBusyTick, Op.isTick]

theorem clock_apply {rq : CfsRq} (h : rq.clock = TICK_NS * rq.tick) (op : Op) :
    (op.apply rq).clock = TICK_NS * (op.apply rq).tick := by
  cases op with
  | tick m => rw [Op.apply, tick_clock, tick_tick, h, UInt64.mul_add, UInt64.mul_one]
  | setRunnable i r => exact h

theorem uncharged_of_not_picked (m : Mode) {rq : CfsRq} {k : ℕ}
    (hp : exactPickNextTask rq ≠ some k) : UnchargedAt rq (m.tick rq) k := by
  unfold UnchargedAt CfsRq.execRuntimeOf CfsRq.vruntimeOf
  rcases ht : rq.tasks[k]? with _ | t
  · have hlen : (m.tick rq).tasks[k]? = none := by
      rw [List.getElem?_eq_none_iff] at ht ⊢
      rwa [tick_length]
    simp [hlen]
  · obtain ⟨t', ht', -, -, hv, he⟩ := tick_other m ht hp
    simp [ht', hv, he]

theorem toNat_add_ne {a c : UInt64} (hc : c ≠ 0) : (a + c).toNat ≠ a.toNat := by
  intro h
  have hmod := UInt64.toNat_add a c
  have ha := Word.toNat_lt a
  have hlt := Word.toNat_lt c
  have hpos : c.toNat ≠ 0 := fun h0 => hc (UInt64.toNat_inj.mp h0)
  omega

theorem charged_of_picked (m : Mode) {rq : CfsRq} {k : ℕ} {t : CfsTask}
    (ht : rq.tasks[k]? = some t) (hw : t.weight ∈ niceToWeight)
    (hp : exactPickNextTask rq = some k) : ChargedAt rq (m.tick rq) k := by
  have htick : TICK_NS ≠ 0 := by decide
  obtain ⟨t', ht', -, -, hv, he⟩ := tick_picked m ht hp
  unfold ChargedAt CfsRq.execRuntimeOf CfsRq.vruntimeOf
  rw [ht, ht', Option.map_some, Option.map_some, Option.map_some, Option.map_some,
    Option.getD_some, Option.getD_some, Option.getD_some, Option.getD_some, hv, he]
  exact ⟨toNat_add_ne htick, toNat_add_ne (delta_ne_zero m _ _ hw)⟩

def TableWeights (rq : CfsRq) : Prop := ∀ t ∈ rq.tasks, t.weight ∈ niceToWeight

theorem tableWeights_apply {rq : CfsRq} (h : TableWeights rq) (op : Op) :
    TableWeights (op.apply rq) :=
  weights_apply op h

theorem chargesThePick {rq : CfsRq} (h : TableWeights rq) (op : Op) : ChargesThePick rq op := by
  cases op with
  | setRunnable i r =>
    intro hop
    simp [Op.isTick] at hop
  | tick m =>
    intro _
    refine ⟨fun hbusy => ?_, fun hidle j => ?_⟩
    · obtain ⟨k, hp⟩ := Option.ne_none_iff_exists'.mp (mt (pick_eq_none_iff_idle rq).mp (not_not.mpr hbusy))
      obtain ⟨t, hmin⟩ := (pick_eq_some_iff rq k).mp hp
      refine ⟨k, t, hmin, charged_of_picked m hmin.get (h t (List.mem_of_getElem? hmin.get)) hp, ?_⟩
      intro j hj
      refine uncharged_of_not_picked m ?_
      rw [hp]
      exact fun he => hj (Option.some.inj he).symm
    · refine uncharged_of_not_picked m ?_
      rw [(pick_eq_none_iff_idle rq).mpr hidle]
      simp

theorem tableWeights_fresh (specs : List (ℤ × ℤ)) (mode : ℤ) :
    TableWeights (freshRq specs mode) := by
  intro t ht
  obtain ⟨k, hk⟩ := List.mem_iff_getElem?.mp ht
  exact (freshRq_task hk).1

theorem along_true (rq : CfsRq) (ops : List Op) : Along Op.apply (fun _ _ => True) rq ops :=
  fun _ _ _ _ => trivial

theorem runtimeMod_fresh (specs : List (ℤ × ℤ)) (mode : ℤ) :
    runtimeMod (freshRq specs mode).tasks = 0 := by
  refine List.sum_eq_zero fun x hx => ?_
  obtain ⟨t, ht, rfl⟩ := List.mem_map.mp hx
  obtain ⟨k, hk⟩ := List.mem_iff_getElem?.mp ht
  rw [(freshRq_task hk).2.2, UInt64.toNat_zero, Nat.cast_zero]

/-- CPU time is conserved through any history of ticks, of whatever modes, and
flag changes from fresh tasks: the clock counts the ticks, the total runtime the
busy ones, and every tick charges the pick and nobody else. -/
theorem cpu_time_conserved (specs : List (ℤ × ℤ)) (mode : ℤ) (ops : List Op) :
    let rq := runOps (freshRq specs mode) ops
    rq.clock = TICK_NS * rq.tick ∧
      rq.totalExecRuntime ≡ TICK_NS.toNat * busyTicks (freshRq specs mode) ops [MOD 2 ^ 64] ∧
      Along Op.apply ChargesThePick (freshRq specs mode) ops := by
  have hall := along_true (freshRq specs mode) ops
  refine ⟨?_, ?_, ?_⟩
  · exact run_invariant (I := fun rq => rq.clock = TICK_NS * rq.tick) rfl
      (fun rq op _ h => clock_apply h op) hall
  · have h := run_counter (fun rq => runtimeMod rq.tasks) (TICK_NS.toNat : ZMod (2 ^ 64))
      (fun rq op _ => runtimeMod_apply rq op) hall
    rw [runtimeMod_fresh, zero_add, nsmul_eq_mul] at h
    rw [← ZMod.natCast_eq_natCast_iff, cast_totalExecRuntime, Nat.cast_mul, mul_comm]
    exact h
  · refine (along_of_invariant ops (tableWeights_fresh specs mode) ?_).mono ?_
    · exact fun rq op h => tableWeights_apply h op
    · exact fun rq op h => chargesThePick h op

end ApexCfs
