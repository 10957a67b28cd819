import ApexCfs.Lib.Turns
import ApexCfs.Proofs.Tick

/-! Equal tasks that never block are served in turn: after `t` ticks task `i`
has run `turns n i t` times, and the next pick is task `t % n`. -/

namespace ApexCfs

open Machine MinScan Turns

/-- `n` runnable tasks of one weight after `t` turns of `d` vruntime each. -/
structure Balanced (n d : ℕ) (w : UInt64) (t : ℕ) (rq : CfsRq) : Prop where
  length : rq.tasks.length = n
  runnable : ∀ (i : ℕ) (u : CfsTask), rq.tasks[i]? = some u → u.runnable = 1
  weight : ∀ (i : ℕ) (u : CfsTask), rq.tasks[i]? = some u → u.weight = w
  vruntime : ∀ (i : ℕ) (u : CfsTask), rq.tasks[i]? = some u → u.vruntime.toNat = turns n i t * d
  execRuntime : ∀ (i : ℕ) (u : CfsTask), rq.tasks[i]? = some u →
    u.execRuntime = UInt64.ofNat (turns n i t * TICK_NS.toNat)

theorem Balanced.get {n d : ℕ} {w : UInt64} {t : ℕ} {rq : CfsRq} (h : Balanced n d w t rq) {i : ℕ}
    (hi : i < n) : ∃ u, rq.tasks[i]? = some u :=
  ⟨_, List.getElem?_eq_getElem (by rw [h.length]; exact hi)⟩

theorem Balanced.pick {n d : ℕ} {w : UInt64} {t : ℕ} {rq : CfsRq} (h : Balanced n d w t rq)
    (hn : 0 < n) (hd : 0 < d) : exactPickNextTask rq = some (t % n) := by
  obtain ⟨u, hu⟩ := h.get (Nat.mod_lt t hn)
  have hv : u.vruntime.toNat = t / n * d := by rw [h.vruntime _ u hu, turns_next]
  refine (pick_eq_some_iff rq _).mpr ⟨u, hu, h.runnable _ u hu, ?_, ?_⟩
  · intro j b hb _
    rw [UInt64.le_iff_toNat_le, hv, h.vruntime j b hb]
    exact Nat.mul_le_mul_right d (turns_ge n j t)
  · intro j b hj hb _
    rw [UInt64.lt_iff_toNat_lt, hv, h.vruntime j b hb, turns_before hj]
    exact Nat.mul_lt_mul_of_pos_right (Nat.lt_succ_self _) hd

/-- One tick is one turn, as long as the vruntime of the picked task does not wrap. -/
theorem Balanced.step {n d : ℕ} {w : UInt64} {t : ℕ} {rq : CfsRq} {m : Mode}
    (h : Balanced n d w t rq) (hn : 0 < n) (hd : 0 < d)
    (hdelta : ∀ state, (m.delta state TICK_NS w.toUInt32).toNat = d)
    (hwrap : (t / n + 1) * d < 2 ^ 64) : Balanced n d w (t + 1) (m.tick rq) := by
  have hpick := h.pick hn hd
  -- every task of the next state comes from one of this state
  have key : ∀ (i : ℕ) (u' : CfsTask), (m.tick rq).tasks[i]? = some u' → u'.runnable = 1 ∧ u'.weight = w ∧
      u'.vruntime.toNat = turns n i (t + 1) * d ∧
      u'.execRuntime = UInt64.ofNat (turns n i (t + 1) * TICK_NS.toNat) := by
    intro i u' hu'
    have hi : i < n := by
      rw [← h.length, ← tick_length m rq]
      exact (List.getElem?_eq_some_iff.mp hu').1
    obtain ⟨u, hu⟩ := h.get hi
    rw [turns_succ hi]
    by_cases hti : t % n = i
    · have hvu : u.vruntime.toNat = t / n * d := by rw [h.vruntime i u hu, ← hti, turns_next]
      have hadd : (t / n + 1) * d = t / n * d + d := by ring
      obtain ⟨u'', hu'', hw, hr, hv, he⟩ := tick_picked m hu (by rw [hpick, hti])
      obtain rfl : u'' = u' := Option.some.inj (hu''.symm.trans hu')
      rw [if_pos hti]
      refine ⟨hr.trans (h.runnable i u hu), hw.trans (h.weight i u hu), ?_, ?_⟩
      · rw [hv, h.weight i u hu, Word.toNat_add_of_lt (by rw [hdelta, hvu]; omega), hdelta,
          h.vruntime i u hu, Nat.add_mul, Nat.one_mul]
      · rw [he, h.execRuntime i u hu, Nat.add_mul, Nat.one_mul, UInt64.ofNat_add,
          UInt64.ofNat_toNat]
    · obtain ⟨u'', hu'', hw, hr, hv, he⟩ := tick_other m hu (by rw [hpick]; simpa using hti)
      obtain rfl : u'' = u' := Option.some.inj (hu''.symm.trans hu')
      rw [if_neg hti, Nat.add_zero, hv, he]
      exact ⟨hr.trans (h.runnable i u hu), hw.trans (h.weight i u hu), h.vruntime i u hu,
        h.execRuntime i u hu⟩
  exact ⟨(tick_length m rq).trans h.length, fun i u hu => (key i u hu).1,
    fun i u hu => (key i u hu).2.1, fun i u hu => (key i u hu).2.2.1,
    fun i u hu => (key i u hu).2.2.2⟩

theorem Balanced.run {n d : ℕ} {w : UInt64} {rq : CfsRq} {m : Mode} (h : Balanced n d w 0 rq)
    (hn : 0 < n) (hd : 0 < d) (hdelta : ∀ state, (m.delta state TICK_NS w.toUInt32).toNat = d)
    {t : ℕ} (hwrap : ∀ s < t, (s / n + 1) * d < 2 ^ 64) :
    Balanced n d w t (runOps rq (List.replicate t (.tick m))) := by
  induction t with
  | zero => exact h
  | succ t ih =>
    rw [List.replicate_succ', runOps, run_snoc]
    exact (ih fun s hs => hwrap s (by omega)).step hn hd hdelta (hwrap t (by omega))

theorem Balanced.isRunnable {n d : ℕ} {w : UInt64} {t : ℕ} {rq : CfsRq} (h : Balanced n d w t rq)
    {i : ℕ} (hi : i < n) : rq.isRunnable i := by
  obtain ⟨u, hu⟩ := h.get hi
  exact ⟨u, hu, h.runnable i u hu⟩

theorem Balanced.execRuntimeOf {n d : ℕ} {w : UInt64} {t : ℕ} {rq : CfsRq}
    (h : Balanced n d w t rq) {i : ℕ} (hi : i < n) :
    rq.execRuntimeOf i = turns n i t * TICK_NS.toNat % 2 ^ 64 := by
  obtain ⟨u, hu⟩ := h.get hi
  rw [CfsRq.execRuntimeOf, hu, Option.map_some, Option.getD_some, h.execRuntime i u hu,
    UInt64.toNat_ofNat']

theorem Balanced.noWrap {n d : ℕ} {w : UInt64} {t : ℕ} {rq : CfsRq} {m : Mode}
    (h : Balanced n d w t rq) (hn : 0 < n) (hd : 0 < d)
    (hdelta : ∀ state, (m.delta state TICK_NS w.toUInt32).toNat = d)
    (hwrap : (t / n + 1) * d < 2 ^ 64) : ∀ k ∈ (Op.tick m).pick rq,
      rq.vruntimeOf k + (m.delta rq.apafState TICK_NS (rq.weightOf k).toUInt32).toNat < 2 ^ 64 := by
  intro k hk
  obtain rfl : t % n = k := Option.some.inj ((h.pick hn hd).symm.trans hk)
  obtain ⟨u, hu⟩ := h.get (Nat.mod_lt t hn)
  rw [CfsRq.vruntimeOf, CfsRq.weightOf, hu, Option.map_some, Option.map_some, Option.getD_some,
    Option.getD_some, h.weight _ u hu, h.vruntime _ u hu, turns_next, hdelta]
  rwa [Nat.add_mul, Nat.one_mul] at hwrap

theorem balanced_fresh (ids : List ℤ) (nice mode : ℤ) (d : ℕ) :
    Balanced ids.length d (taskCreate 0 nice).weight 0
      (freshRq (ids.map fun id => (id, nice)) mode) := by
  have key : ∀ (i : ℕ) (u : CfsTask), (freshRq (ids.map fun id => (id, nice)) mode).tasks[i]? = some u →
      ∃ id, u = taskCreate id nice := by
    intro i u hu
    simp only [freshRq, rqInit, List.getElem?_map, Option.map_eq_some_iff, List.map_map] at hu
    obtain ⟨id, -, rfl⟩ := hu
    exact ⟨id, rfl⟩
  refine ⟨by simp [freshRq, rqInit], ?_, ?_, ?_, ?_⟩ <;> intro i u hu <;>
    obtain ⟨id, rfl⟩ := key i u hu
  · rfl
  · rfl
  · simp [taskCreate]
  · simp [taskCreate]

end ApexCfs
