import ApexCfs.Proofs.Spread
import ApexCfs.Proofs.WeightOrder

/-! A picked task ages. From weight 2 on every scaling of a tick is positive, so a task that
is picked over and over runs into any other runnable task; at weight 1 the inverse is
`2 ^ 32`, its cut to 32 bits is zero, and the task is picked for ever. -/

namespace ApexCfs

open Machine MinScan

theorem scaled_pos {d inv : ℕ} (h : 2 ^ 22 ≤ d * inv) : 0 < scaled d inv :=
  Nat.div_pos h (by norm_num)

theorem five_le_reciprocal {w : UInt32} (h0 : 0 < w.toNat) (hmax : w.toNat ≤ 2 ^ 29) (n : ℕ) :
    5 ≤ (bsaNewtonReciprocal w (n + 1)).toNat := by
  have herr := inverse_error h0 hmax n
  have hinv : (8 : ℚ) ≤ (2 ^ 32 / w.toNat : ℕ) := by
    exact_mod_cast (Nat.le_div_iff_mul_le h0).2 (by omega)
  have hpow : ((25 : ℚ) / 1024) ^ 2 ^ n ≤ 25 / 1024 :=
    pow_le_of_le_one (by norm_num) (by norm_num) (by positivity)
  generalize ((25 : ℚ) / 1024) ^ 2 ^ n = e at herr hpow
  generalize ((2 ^ 32 / w.toNat : ℕ) : ℚ) = inv at herr hinv
  have hmul := mul_le_mul_of_nonneg_right hpow (by linarith : 0 ≤ inv + 1)
  have hfive : (5 : ℚ) < (bsaNewtonReciprocal w (n + 1)).toNat := by linarith
  exact_mod_cast hfive.le

theorem inverse_range (m : Mode) (state : ℤ) {w : UInt32} (hw : 2 ≤ w.toNat)
    (hmax : w.toNat ≤ 2 ^ 29) : 5 ≤ m.inverse state w ∧ m.inverse state w ≤ 2 ^ 31 := by
  have hhalf : 2 ^ 32 / w.toNat ≤ 2 ^ 31 := Nat.div_le_div_left hw (by norm_num)
  cases m with
  | exact => exact ⟨(Nat.le_div_iff_mul_le (by omega)).2 (by omega), hhalf⟩
  | bsa => exact ⟨five_le_reciprocal (by omega) hmax 0, (reciprocal_fits hw hmax 0).trans hhalf⟩
  | clti =>
    have hclass : ∀ c ∈ cltiWeightClass, 5 ≤ 2 ^ 32 / c.toNat ∧ 2 ^ 32 / c.toNat ≤ 2 ^ 31 :=
      List.all_iff_forall_prop.1 (by decide)
    exact hclass _ (nearestClass_spec w).mem
  | apaf =>
    obtain ⟨n, hn⟩ := apafIters_succ state
    simp only [Mode.inverse, hn]
    exact ⟨five_le_reciprocal (by omega) hmax n, (reciprocal_fits hw hmax n).trans hhalf⟩

theorem toNat_tick : TICK_NS.toNat = 1000000 := by decide

theorem delta_tick_range (m : Mode) (state : ℤ) {w : UInt32} (hw : 2 ≤ w.toNat)
    (hmax : w.toNat ≤ 2 ^ 29) :
    0 < (m.delta state TICK_NS w).toNat ∧ (m.delta state TICK_NS w).toNat < 2 ^ 30 := by
  obtain ⟨hlo, hhi⟩ := inverse_range m state hw hmax
  rw [toNat_delta m state (by decide) (fun _ => by decide) hw hmax, toNat_tick]
  refine ⟨scaled_pos (by omega), ?_⟩
  exact (scaled_mono hhi).trans_lt (by decide)

theorem delta_pos (m : Mode) (state : ℤ) {w : UInt32} {d : UInt64} (hw : 2 ≤ w.toNat)
    (hmax : w.toNat ≤ 2 ^ 29) (hlo : TICK_NS ≤ d) (hhi : d.toNat < 2 ^ 54) :
    0 < m.delta state d w := by
  have hlo' := UInt64.le_iff_toNat_le.1 hlo
  rw [UInt64.lt_iff_toNat_lt, UInt64.toNat_zero]
  by_cases hm : m = .exact
  · subst hm
    have htick := (delta_tick_range .exact state hw hmax).1
    simp only [Mode.delta] at htick ⊢
    rw [toNat_exactCalcDeltaFair hw (target_fits (by decide) _)] at htick
    rw [toNat_exactCalcDeltaFair hw (target_fits hhi _)]
    exact htick.trans_le (exactDelta_mono hlo' w.toNat)
  · have hfive := (inverse_range m state hw hmax).1
    rw [toNat_tick] at hlo'
    rw [toNat_delta m state hhi (fun h => absurd h hm) hw hmax]
    refine scaled_pos ?_
    have hprod := Nat.mul_le_mul hlo' hfive
    omega

theorem mulShr_zero (a : UInt64) (shift : ℕ) : exactMulU64U32Shr a 0 shift = 0 := by
  rw [exactMulU64U32Shr, UInt32.toNat_zero, Nat.mul_zero, Nat.zero_shiftRight]
  rfl

/-- At weight 1 all but CLTI, whose class is 16, charge nothing. -/
theorem delta_weight_one {m : Mode} (hm : m ≠ .clti) (state : ℤ) (d : UInt64) :
    m.delta state d 1 = 0 := by
  have hne : (1 : UInt32) ≠ NICE_0_LOAD := by decide
  have h0 : (1 : UInt32) ≠ 0 := by decide
  cases m with
  | clti => exact absurd rfl hm
  | exact =>
    have hinv : (WMULT_CONST / (1 : UInt32).toUInt64).toUInt32 = 0 := by decide
    simp only [Mode.delta, exactCalcDeltaFair, if_neg hne, if_neg h0, hinv, mulShr_zero]
    split_ifs <;> rfl
  | bsa =>
    have hinv : (bsaNewtonReciprocal 1 BSA_NEWTON_ITERS).toUInt32 = 0 := by decide
    simp only [Mode.delta, bsaVruntimeDelta, if_neg hne, if_neg h0, hinv, mulShr_zero]
  | apaf =>
    have htight : (bsaNewtonReciprocal 1 APAF_TIGHT_NEWTON_ITERS).toUInt32 = 0 := by decide
    have hloose : (bsaNewtonReciprocal 1 APAF_LOOSE_NEWTON_ITERS).toUInt32 = 0 := by decide
    have hmedium : (bsaNewtonReciprocal 1 APAF_MEDIUM_NEWTON_ITERS).toUInt32 = 0 := by decide
    simp only [Mode.delta, apafVruntimeDelta, if_neg hne, if_neg h0]
    split_ifs
    · rw [htight, mulShr_zero]
    · rw [hloose, mulShr_zero]
    · rw [hmedium, mulShr_zero]

def PicksOnly (k : ℕ) : CfsRq → List Op → Prop :=
  Along Op.apply fun rq op => op.isTick → op.picks k rq

instance (k : ℕ) (rq : CfsRq) (ops : List Op) : Decidable (PicksOnly k rq ops) :=
  decidableAlong _ _ _

/-- Each tick moves the picked task up by at least one, but never above the waiting one by
more than one increment: so there are at most as many ticks as the two are apart. -/
theorem ticks_le_of_picksOnly {i j : ℕ} (hij : i ≠ j) {w : UInt32} (hw : 2 ≤ w.toNat)
    (hmax : w.toNat ≤ 2 ^ 29) {rq : CfsRq} {ops : List Op} (hweight : (rq.weightOf i).toUInt32 = w)
    (hroom : rq.vruntimeOf j + 2 ^ 30 ≤ 2 ^ 64) (hpick : PicksOnly i rq ops)
    (hrun : RunnableAtTicks j rq ops) :
    ops.countP Op.isTick ≤ rq.vruntimeOf j + 1 - rq.vruntimeOf i := by
  induction ops generalizing rq with
  | nil => exact Nat.zero_le _
  | cons op ops ih =>
    rw [PicksOnly, along_cons] at hpick
    rw [RunnableAtTicks, along_cons] at hrun
    obtain ⟨m, hm⟩ := op.exists_isMode
    have hwait : ¬op.picks j rq := fun hj =>
      hij (picks_unique (hpick.1 (pick_of_picks hj).1) hj)
    have hj := vruntimeOf_apply_of_not_picks hm hwait
    have hrest := ih (by rw [weightOf_apply hm, hweight]) (by rw [hj]; exact hroom) hpick.2 hrun.2
    rw [hj] at hrest
    by_cases htick : op.isTick
    · have hi := hpick.1 htick
      have hle := vruntimeOf_le_of_picks hi (hrun.1 htick)
      obtain ⟨hpos, hlt⟩ := delta_tick_range m rq.apafState hw hmax
      have hgain := vruntimeOf_apply_of_picks hm hi (by rw [hweight]; omega)
      rw [hweight] at hgain
      rw [List.countP_cons_of_pos htick]
      omega
    · have hidle : ¬op.picks i rq := fun hi => htick (pick_of_picks hi).1
      rw [vruntimeOf_apply_of_not_picks hm hidle] at hrest
      rwa [List.countP_cons_of_neg htick]

def CfsTask.queued (t : CfsTask) : CfsTask := { t.sched with execRuntime := 0 }

theorem pick_eq_queued (rq : CfsRq) : exactPickNextTask rq =
    (scan (fun t : CfsTask => t.runnable = 1) CfsTask.vruntime
      (rq.tasks.map CfsTask.queued)).map Prod.fst := by
  rw [pick_eq_scan, scan_map CfsTask.queued (fun _ => Iff.rfl) (fun _ => rfl)]
  rfl

theorem pick_tick_of_delta_zero {m : Mode} {rq : CfsRq} {i : ℕ} (hp : exactPickNextTask rq = some i)
    (hzero : m.delta rq.apafState TICK_NS (rq.weightOf i).toUInt32 = 0) :
    exactPickNextTask (m.tick rq) = some i := by
  have hqueued : ∀ l : List CfsTask, l.map CfsTask.queued =
      (l.map CfsTask.sched).map fun t => { t with execRuntime := 0 } := by
    intro l
    rw [List.map_map]
    rfl
  have hsame : (charged m rq).map CfsTask.queued = rq.tasks.map CfsTask.queued := by
    refine List.ext_getElem? fun k => ?_
    simp only [charged, hp, List.getElem?_map, List.getElem?_modify]
    rcases hk : rq.tasks[k]? with _ | t
    · rfl
    · by_cases hik : i = k
      · subst hik
        have hweight : rq.weightOf i = t.weight := by simp [CfsRq.weightOf, hk]
        rw [hweight] at hzero
        simp [CfsTask.queued, CfsTask.sched, CfsTask.charge, hzero]
      · simp [hik]
  rw [pick_eq_queued, hqueued, tick_sched, ← hqueued, hsame, ← pick_eq_queued, hp]

/-- A task of weight 1 that is picked once is picked for ever. -/
theorem weight_one_never_yields {m : Mode} (hm : m ≠ .clti) {rq : CfsRq} {i : ℕ}
    (hp : exactPickNextTask rq = some i) (hweight : (rq.weightOf i).toUInt32 = 1) (n : ℕ) :
    exactPickNextTask (m.tick^[n] rq) = some i := by
  have hinv : exactPickNextTask (m.tick^[n] rq) = some i ∧
      ((m.tick^[n] rq).weightOf i).toUInt32 = 1 := by
    induction n with
    | zero => exact ⟨hp, hweight⟩
    | succ n ih =>
      rw [Function.iterate_succ_apply']
      refine ⟨pick_tick_of_delta_zero ih.1 ?_, ?_⟩
      · rw [ih.2, delta_weight_one hm]
      · have hkeep : (m.tick (m.tick^[n] rq)).weightOf i = (m.tick^[n] rq).weightOf i :=
          weightOf_apply (show (Op.tick m).isMode m from rfl) (m.tick^[n] rq) i
        rw [hkeep, ih.2]
  exact hinv.1

/-- A tick or more is charged by all four scalings in every state exactly when the weight is
not 1. Then no history of more ticks than two tasks are apart picks the one at every tick
while the other is runnable, short of a wrap of the vruntimes; at weight 1 all but CLTI
pick the task for ever. -/
theorem picked_task_progresses (w : UInt32) (d : UInt64) (hpos : 1 ≤ w.toNat)
    (hmax : w.toNat ≤ 2 ^ 29) (hlo : TICK_NS ≤ d) (hhi : d.toNat < 2 ^ 54) :
    ((∀ (m : Mode) (state : ℤ), 0 < m.delta state d w) ↔ w ≠ 1) ∧
      (w ≠ 1 → ∀ (rq : CfsRq) (ops : List Op) (i j : ℕ), i ≠ j → (rq.weightOf i).toUInt32 = w →
        rq.vruntimeOf j + 2 ^ 30 ≤ 2 ^ 64 → RunnableAtTicks j rq ops → PicksOnly i rq ops →
        ops.countP Op.isTick ≤ rq.vruntimeOf j + 1 - rq.vruntimeOf i) ∧
      (w = 1 → ∀ m ≠ Mode.clti, ∀ (rq : CfsRq) (i : ℕ), (rq.weightOf i).toUInt32 = w →
        exactPickNextTask rq = some i → ∀ n, exactPickNextTask (m.tick^[n] rq) = some i) := by
  have htwo : w ≠ 1 → 2 ≤ w.toNat := fun hne => by
    have hnat : w.toNat ≠ 1 := fun h => hne (UInt32.toNat_inj.1 h)
    omega
  refine ⟨⟨fun hall h => ?_, fun hne m state => delta_pos m state (htwo hne) hmax hlo hhi⟩,
    fun hne rq ops i j hij hweight hroom hrun hpick =>
      ticks_le_of_picksOnly hij (htwo hne) hmax hweight hroom hpick hrun, ?_⟩
  · have hzero := hall .exact APAF_MEDIUM
    rw [h, delta_weight_one (by decide)] at hzero
    exact absurd hzero (by decide)
  · rintro rfl m hm rq i hweight hp n
    exact weight_one_never_yields hm hp hweight n

/-- A nice 1 task that was blocked while the other ran for two ticks. -/
def behindRq : CfsRq := runOps (freshRq [(0, 1), (1, 0)] 0)
  [.setRunnable 0 0, .tick .exact, .tick .exact, .setRunnable 0 1]

theorem picked_task_progresses_820 : 0 < Mode.apaf.delta APAF_LOOSE TICK_NS 820 ∧
    [Op.tick .exact, .tick .exact].countP Op.isTick ≤
      behindRq.vruntimeOf 1 + 1 - behindRq.vruntimeOf 0 := by
  obtain ⟨hpos, hrun, -⟩ :=
    picked_task_progresses 820 TICK_NS (by decide) (by decide) (by decide) (by decide)
  refine ⟨hpos.2 (by decide) .apaf APAF_LOOSE, ?_⟩
  exact hrun (by decide) behindRq [.tick .exact, .tick .exact] 0 1 (by decide) (by decide +kernel)
    (by decide +kernel) (by decide +kernel) (by decide +kernel)

theorem weight_one_stands_still :
    ¬∀ (w : UInt32) (d : UInt64), 1 ≤ w.toNat → w.toNat ≤ 2 ^ 29 → TICK_NS ≤ d →
      d.toNat < 2 ^ 54 → ∀ (m : Mode) (state : ℤ), 0 < m.delta state d w := by
  intro h
  exact absurd (h 1 TICK_NS (by decide) (by decide) (by decide) (by decide) .exact APAF_MEDIUM)
    (by decide)

end ApexCfs
