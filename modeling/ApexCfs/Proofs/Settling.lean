import ApexCfs.Proofs.Controller
import ApexCfs.Proofs.JainIndex
import ApexCfs.Proofs.RoundRobin

/-! APAF settles on tasks of nice 0 that never block. They take turns, so their
runtimes differ by one tick at most and Jain's index is close to one from the
fourth round on; the controller then climbs at each of its ticks. -/

namespace ApexCfs

open Idealised Machine Turns

/-- The runqueue after `t` APAF ticks of nice-0 tasks that stay runnable. -/
def unitRun (ids : List ℤ) (t : ℕ) : CfsRq :=
  runOps (freshRq (ids.map fun id => (id, 0)) 3) (List.replicate t (.tick .apaf))

/-- Ticks that a task can run before its runtime, or its vruntime, wraps. -/
def UNIT_WRAP_TICKS : ℕ := 18446744073709

theorem unitRun_succ (ids : List ℤ) (t : ℕ) : unitRun ids (t + 1) = apafTick (unitRun ids t) := by
  rw [unitRun, List.replicate_succ', runOps, run_snoc]
  rfl

theorem unit_delta (state : ℤ) :
    (Mode.delta .apaf state TICK_NS (taskCreate 0 0).weight.toUInt32).toNat = 1000000 := by
  have hw : (taskCreate 0 0).weight = 1024 := by decide
  rw [hw, delta_unit]
  rfl

theorem unitRun_balanced {ids : List ℤ} (hn : 0 < ids.length) {t : ℕ}
    (ht : t ≤ ids.length * UNIT_WRAP_TICKS) :
    Balanced ids.length 1000000 (taskCreate 0 0).weight t (unitRun ids t) := by
  refine (balanced_fresh ids 0 3 1000000).run hn (by decide) unit_delta fun s hs => ?_
  have hdiv : s / ids.length < UNIT_WRAP_TICKS :=
    Nat.div_lt_of_lt_mul (hs.trans_le ht)
  simp only [UNIT_WRAP_TICKS] at hdiv
  omega

theorem turns_lt {n t : ℕ} (i : ℕ) (ht : t ≤ n * UNIT_WRAP_TICKS) :
    turns n i t ≤ UNIT_WRAP_TICKS := by
  rcases Nat.eq_zero_or_pos n with rfl | hn
  · have h0 : t = 0 := by simpa using ht
    rw [h0, turns_zero]
    exact Nat.zero_le _
  · rcases ht.lt_or_eq with hlt | rfl
    · exact (turns_le n i t).trans (Nat.div_lt_of_lt_mul hlt)
    · rw [turns, Nat.mul_div_cancel_left _ hn, Nat.mul_mod_right, if_neg (Nat.not_lt_zero i),
        Nat.add_zero]

theorem unitRun_execRuntime {ids : List ℤ} {t i : ℕ} (hi : i < ids.length)
    (ht : t ≤ ids.length * UNIT_WRAP_TICKS) :
    (unitRun ids t).execRuntimeOf i = turns ids.length i t * TICK_NS.toNat := by
  have hle := turns_lt i ht
  have hlt : turns ids.length i t * TICK_NS.toNat < 2 ^ 64 := by
    change turns ids.length i t * 1000000 < 2 ^ 64
    simp only [UNIT_WRAP_TICKS] at hle
    omega
  rw [(unitRun_balanced (by omega) ht).execRuntimeOf hi, Nat.mod_eq_of_lt hlt]

theorem unitRun_times {ids : List ℤ} (hn : 0 < ids.length) {t : ℕ}
    (ht : t ≤ ids.length * UNIT_WRAP_TICKS) :
    (runnableTimes (unitRun ids t).tasks).length = ids.length ∧
      ∀ x ∈ runnableTimes (unitRun ids t).tasks,
        t / ids.length * 1000000 ≤ x ∧ x ≤ (t / ids.length + 1) * 1000000 := by
  have hbal := unitRun_balanced hn ht
  have hall : ∀ u ∈ (unitRun ids t).tasks, u.runnable = 1 := by
    intro u hu
    obtain ⟨i, hi⟩ := List.mem_iff_getElem?.mp hu
    exact hbal.runnable i u hi
  have hfilter : (unitRun ids t).tasks.filter (fun t => t.runnable = 1) = (unitRun ids t).tasks :=
    List.filter_eq_self.mpr fun u hu => decide_eq_true (hall u hu)
  rw [runnableTimes, hfilter]
  refine ⟨by rw [List.length_map, hbal.length], fun x hx => ?_⟩
  obtain ⟨u, hu, rfl⟩ := List.mem_map.mp hx
  obtain ⟨i, hi⟩ := List.mem_iff_getElem?.mp hu
  have hlt : i < ids.length := hbal.length ▸ (List.getElem?_eq_some_iff.mp hi).1
  have hexec := unitRun_execRuntime hlt ht
  rw [CfsRq.execRuntimeOf, hi, Option.map_some, Option.getD_some] at hexec
  rw [hexec]
  exact ⟨Nat.mul_le_mul_right _ (turns_ge _ _ _), Nat.mul_le_mul_right _ (turns_le _ _ _)⟩

/-- The products of the index stay within 64 bits at every tick up to `t`. -/
def JainFits (ids : List ℤ) (t : ℕ) : Prop :=
  ∀ s ≤ t, ids.length * Jain.sumSq (runnableTimes (unitRun ids s).tasks) < 2 ^ 64

/-- The products leave 64 bits long before any counter wraps. -/
theorem lt_of_jainFits {ids : List ℤ} (hn : 2 ≤ ids.length) {t : ℕ} (hfit : JainFits ids t) :
    t < ids.length * 5000 := by
  by_contra hge
  have hpos : 0 < ids.length := by omega
  have hwrap : ids.length * 5000 ≤ ids.length * UNIT_WRAP_TICKS :=
    Nat.mul_le_mul_left _ (by decide)
  obtain ⟨hlen, htimes⟩ := unitRun_times hpos hwrap
  have hsq := Jain.length_mul_sq_le_sumSq fun x hx => (htimes x hx).1
  have hlt := hfit (ids.length * 5000) (not_lt.mp hge)
  rw [hlen, Nat.mul_div_cancel_left _ hpos] at hsq
  have hbig : 2 * (2 * (5000 * 1000000) ^ 2) ≤ ids.length * Jain.sumSq
      (runnableTimes (unitRun ids (ids.length * 5000)).tasks) :=
    Nat.mul_le_mul hn ((Nat.mul_le_mul_right _ hn).trans hsq)
  omega

theorem unitRun_jain {ids : List ℤ} (hn : 2 ≤ ids.length) {t : ℕ} (ht : 3 * ids.length ≤ t)
    (hfit : JainFits ids t) :
    ∃ q, fairnessJainIndex (unitRun ids t) = .fin q ∧ 48 / 49 ≤ q ∧ q ≤ 1 := by
  have hpos : 0 < ids.length := by omega
  have hwrap : t ≤ ids.length * UNIT_WRAP_TICKS :=
    (lt_of_jainFits hn hfit).le.trans (Nat.mul_le_mul_left _ (by decide))
  obtain ⟨hlen, htimes⟩ := unitRun_times hpos hwrap
  have hq : 3 ≤ t / ids.length := (Nat.le_div_iff_mul_le hpos).mpr ht
  generalize hxs : runnableTimes (unitRun ids t).tasks = xs at hlen htimes
  have hne : xs ≠ [] := by
    intro hnil
    rw [hnil, List.length_nil] at hlen
    omega
  have hx : ∃ x ∈ xs, x ≠ 0 := by
    obtain ⟨x, hmem⟩ := List.exists_mem_of_ne_nil xs hne
    have hle := (htimes x hmem).1
    exact ⟨x, hmem, by omega⟩
  have hindex : fairnessJainIndex (unitRun ids t) = .fin (Jain.index xs) := by
    rw [← hxs]
    refine jainIndex_eq (by rw [hxs, hlen]; exact hn) (by rw [hxs]; exact hx) ?_
    have hlt := hfit t le_rfl
    rwa [← hlen, ← hxs] at hlt
  have hrange := Jain.index_ge_of_range (by omega) hne htimes
  refine ⟨_, hindex, le_trans ?_ hrange, Jain.index_le_one hx⟩
  have hq' : (3 : ℚ) ≤ (t / ids.length : ℕ) := by exact_mod_cast hq
  push_cast
  generalize ((t / ids.length : ℕ) : ℚ) = q at hq'
  rw [div_le_div_iff₀ (by norm_num) (by positivity)]
  nlinarith

theorem unitRun_tick (ids : List ℤ) (t : ℕ) : (unitRun ids t).tick = UInt64.ofNat t := by
  induction t with
  | zero => rfl
  | succ t ih =>
    rw [unitRun_succ, UInt64.ofNat_add, ← ih]
    exact tick_tick .apaf _

theorem unitRun_range (ids : List ℤ) (t : ℕ) :
    0 ≤ (unitRun ids t).apafState ∧ (unitRun ids t).apafState ≤ 2 := by
  have hm : ∀ op ∈ List.replicate t (Op.tick .apaf), op.isMode .apaf := by
    intro op hop
    rw [List.eq_of_mem_replicate hop]
    rfl
  have h := after_range ((ids.map fun id => (id, 0)).map fun s => taskCreate s.1 s.2) 3 hm t
  rwa [CfsRq.after, List.take_of_length_le (by rw [List.length_replicate])] at h

theorem nextState_high {state : ℤ} (h0 : 0 ≤ state) (h2 : state ≤ 2) {q : ℚ} (hq : 48 / 49 ≤ q)
    (hq1 : q ≤ 1) : fairnessApafNextState state (.fin q) = min 2 (state + 1) := by
  have hclamp : (Double.fin q).clampUnit = .fin q := Double.clampUnit_fin (by linarith) hq1
  have hup : 95 / 100 < q ∧ 97 / 100 < q := ⟨by linarith, by linarith⟩
  have hdown : ¬ q < 93 / 100 ∧ ¬ q < 90 / 100 := ⟨by linarith, by linarith⟩
  simp only [fairnessApafNextState, hclamp, JAIN_LOOSE_TO_MEDIUM, JAIN_MEDIUM_TO_TIGHT,
    JAIN_MEDIUM_TO_LOOSE, JAIN_TIGHT_TO_MEDIUM, Double.fin_lt_fin, hup, hdown, if_true, if_false,
    APAF_LOOSE, APAF_MEDIUM, APAF_TIGHT]
  rcases (by omega : state = 0 ∨ state = 1 ∨ state = 2) with rfl | rfl | rfl <;> rfl

/-- One tick from the fourth round on: the index is recorded, and every fourth
tick climbs. -/
theorem unitRun_step {ids : List ℤ} (hn : 2 ≤ ids.length) {t : ℕ} (ht : 3 * ids.length ≤ t + 1)
    (hfit : JainFits ids (t + 1)) :
    (∃ q, (unitRun ids (t + 1)).jainIndex = .fin q ∧ 48 / 49 ≤ q ∧ q ≤ 1) ∧
      (unitRun ids (t + 1)).apafState =
        if (t + 1) % 4 = 0 then min 2 ((unitRun ids t).apafState + 1)
        else (unitRun ids t).apafState := by
  have hwrap : t + 1 ≤ ids.length * UNIT_WRAP_TICKS :=
    (lt_of_jainFits hn hfit).le.trans (Nat.mul_le_mul_left _ (by decide))
  have hpick := (unitRun_balanced (by omega) (Nat.le_of_succ_le hwrap)).pick (by omega) (by decide)
  have htick : unitRun ids (t + 1) = mirrorTick .apaf (unitRun ids t) := by
    rw [unitRun_succ]
    exact tick_of_pick .apaf hpick
  obtain ⟨q, hq, hq0, hq1⟩ := unitRun_jain hn ht hfit
  rw [htick, ← mirrorTick_jainIndex] at hq
  have hmon : ((unitRun ids t).tick + 1) % APAF_MONITOR_INTERVAL = 0 ↔ (t + 1) % 4 = 0 := by
    have hmod : (((unitRun ids t).tick + 1) % APAF_MONITOR_INTERVAL).toNat = (t + 1) % 4 := by
      rw [unitRun_tick, UInt64.toNat_mod, UInt64.toNat_add, UInt64.toNat_ofNat']
      change (t % 2 ^ 64 + 1) % 2 ^ 64 % 4 = (t + 1) % 4
      omega
    rw [← UInt64.toNat_inj, hmod]
    rfl
  obtain ⟨h0, h2⟩ := unitRun_range ids t
  refine ⟨⟨q, by rw [htick, hq], hq0, hq1⟩, ?_⟩
  rw [htick, mirrorTick_apafState, hq, nextState_high h0 h2 hq0 hq1]
  simp only [true_and, hmon]

theorem unitRun_climbs {ids : List ℤ} (hn : 2 ≤ ids.length) {t : ℕ} (ht : 3 * ids.length - 1 ≤ t)
    (hfit : JainFits ids t) :
    (min 2 (t / 4 - (3 * ids.length - 1) / 4) : ℕ) ≤ (unitRun ids t).apafState := by
  induction t, ht using Nat.le_induction with
  | base =>
    rw [Nat.sub_self, Nat.min_zero]
    exact (unitRun_range ids _).1
  | succ t hle ih =>
    have ih' := ih fun s hs => hfit s (by omega)
    obtain ⟨-, hstate⟩ := unitRun_step hn (by omega) hfit
    rw [hstate]
    split_ifs with hmod <;> omega

/-- Until a counter wraps the tasks have run for `t / n` or `t / n + 1` ticks; and
from tick `3n + 7` on, as long as the index does not overflow, the state is LOOSE
and the index at least 36/37. -/
theorem apaf_settles (ids : List ℤ) (hn : 2 ≤ ids.length) (t : ℕ) :
    (t ≤ ids.length * UNIT_WRAP_TICKS → ∀ i < ids.length,
      (unitRun ids t).execRuntimeOf i = t / ids.length * TICK_NS.toNat ∨
        (unitRun ids t).execRuntimeOf i = (t / ids.length + 1) * TICK_NS.toNat) ∧
    (3 * ids.length + 7 ≤ t → JainFits ids t →
      (unitRun ids t).apafState = APAF_LOOSE ∧
        ∃ q, (unitRun ids t).jainIndex = .fin q ∧ 36 / 37 ≤ q) := by
  refine ⟨fun ht i hi => ?_, fun ht hfit => ?_⟩
  · rw [unitRun_execRuntime hi ht, turns]
    split_ifs
    · exact Or.inr rfl
    · exact Or.inl rfl
  · obtain ⟨s, rfl⟩ : ∃ s, t = s + 1 := ⟨t - 1, by omega⟩
    obtain ⟨⟨q, hq, hq0, -⟩, -⟩ := unitRun_step hn (by omega) hfit
    have hclimb := unitRun_climbs hn (by omega) hfit
    have hrange := unitRun_range ids (s + 1)
    refine ⟨?_, q, hq, by linarith⟩
    rw [APAF_LOOSE]
    omega

theorem apaf_settles_two :
    (∀ i < 2, (unitRun [0, 1] 13).execRuntimeOf i = 13 / 2 * TICK_NS.toNat ∨
      (unitRun [0, 1] 13).execRuntimeOf i = (13 / 2 + 1) * TICK_NS.toNat) ∧
    ((unitRun [0, 1] 13).apafState = APAF_LOOSE ∧
      ∃ q, (unitRun [0, 1] 13).jainIndex = .fin q ∧ 36 / 37 ≤ q) :=
  ⟨(apaf_settles [0, 1] (by decide) 13).1 (by decide),
    (apaf_settles [0, 1] (by decide) 13).2 (by decide) (by unfold JainFits; decide +kernel)⟩

/-- At tick `2 * 18446744073709` the next turn wraps the vruntime of the first
task below that of the second one, which then loses its turn for good. -/
theorem turns_end_at_wrap :
    ¬ ∀ (ids : List ℤ), 2 ≤ ids.length → ∀ (t i : ℕ), i < ids.length →
      (unitRun ids t).execRuntimeOf i = t / ids.length * TICK_NS.toNat % 2 ^ 64 ∨
        (unitRun ids t).execRuntimeOf i = (t / ids.length + 1) * TICK_NS.toNat % 2 ^ 64 := by
  intro h
  have hbal : Balanced 2 1000000 (taskCreate 0 0).weight (2 * UNIT_WRAP_TICKS)
      (unitRun [0, 1] (2 * UNIT_WRAP_TICKS)) :=
    @unitRun_balanced [0, 1] (by decide) (2 * UNIT_WRAP_TICKS) le_rfl
  have hnext := h [0, 1] (by decide) (2 * UNIT_WRAP_TICKS + 1 + 1) 1 (by decide)
  rw [unitRun_succ, unitRun_succ] at hnext
  generalize unitRun [0, 1] (2 * UNIT_WRAP_TICKS) = rq at hbal hnext
  obtain ⟨a, ha⟩ := hbal.get (i := 0) (by decide)
  obtain ⟨b, hb⟩ := hbal.get (i := 1) (by decide)
  have hpick : exactPickNextTask rq = some 0 := hbal.pick (by decide) (by decide)
  obtain ⟨a', ha', -, hra, hva, -⟩ := tick_picked .apaf ha hpick
  obtain ⟨b', hb', -, hrb, hvb, heb⟩ := tick_other .apaf hb (by rw [hpick]; decide)
  have hlen := (tick_length .apaf rq).trans hbal.length
  -- the first task is behind again and picked a second time
  have hpick' : exactPickNextTask (apafTick rq) = some 0 := by
    have hle : a'.vruntime ≤ b'.vruntime := by
      rw [hva, hvb, hbal.weight 0 a ha, UInt64.le_iff_toNat_le, UInt64.toNat_add, unit_delta,
        hbal.vruntime 0 a ha, hbal.vruntime 1 b hb]
      decide
    refine (pick_eq_some_iff _ 0).mpr ⟨a', ha', hra.trans (hbal.runnable 0 a ha), ?_,
      fun j c hj => absurd hj (Nat.not_lt_zero j)⟩
    intro j c hc _
    have hlt : j < 2 := (List.getElem?_eq_some_iff.mp hc).1.trans_eq hlen
    rcases (by omega : j = 0 ∨ j = 1) with rfl | rfl
    · rw [Option.some.inj (hc.symm.trans ha')]
    · rwa [Option.some.inj (hc.symm.trans hb')]
  obtain ⟨b'', hb'', -, -, -, heb'⟩ := tick_other .apaf hb' (by
    change exactPickNextTask (apafTick rq) ≠ some 1
    rw [hpick']
    decide)
  have hexec : (apafTick (apafTick rq)).execRuntimeOf 1 = UNIT_WRAP_TICKS * TICK_NS.toNat := by
    change ((Mode.tick .apaf (Mode.tick .apaf rq)).tasks[1]?.map _).getD 0 = _
    rw [hb'', Option.map_some, Option.getD_some, heb', heb, hbal.execRuntime 1 b hb]
    decide
  rw [hexec] at hnext
  revert hnext
  decide

end ApexCfs
