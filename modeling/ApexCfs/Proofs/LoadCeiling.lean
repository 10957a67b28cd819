import ApexCfs.Proofs.LoadSum

/-! The ceiling of the exact load sum. The largest level that one period and one
weight reproduce bounds the load sum of every history, and an always runnable
task climbs to it; at weight 1024 it is the divider of the load average. -/

namespace ApexCfs

open Machine Leaky

/-- The level at which one period takes exactly one weight. -/
def loadCeiling (w : ℕ) : ℕ := (w - 1) * 2 ^ 32 / (2 ^ 32 - 0xfa83b2da) + 1

theorem ceiling_climbs {w e : ℕ} (hw : 1 ≤ w) (h : e < loadCeiling w) : e < exactPeriod e + w := by
  rw [loadCeiling, Nat.lt_succ_iff, Nat.le_div_iff_mul_le (by norm_num), Nat.mul_sub] at h
  have hperiod : (e + 1 - w) * 2 ^ 32 ≤ e * 0xfa83b2da := by omega
  have hle : e + 1 - w ≤ exactPeriod e := (Nat.le_div_iff_mul_le (by norm_num)).mpr hperiod
  omega

theorem ceiling_invariant {w e : ℕ} (hw : 1 ≤ w) (h : e ≤ loadCeiling w) :
    exactPeriod e + w ≤ loadCeiling w := by
  unfold loadCeiling at h ⊢
  unfold exactPeriod
  omega

theorem ceiling_fixed {w : ℕ} (hw : 1 ≤ w) : exactPeriod (loadCeiling w) + w = loadCeiling w := by
  refine le_antisymm (ceiling_invariant hw le_rfl) ?_
  unfold exactPeriod loadCeiling
  omega

def runnableLevel (w n : ℕ) : ℕ := (fun e => exactPeriod e + w)^[n] 0

theorem runnableLevel_le {w : ℕ} (hw : 1 ≤ w) (n : ℕ) : runnableLevel w n ≤ loadCeiling w := by
  induction n with
  | zero => exact Nat.zero_le _
  | succ n ih =>
    rw [runnableLevel, Function.iterate_succ_apply']
    exact ceiling_invariant hw ih

theorem runnableLevel_eq {w n : ℕ} (hw : 1 ≤ w) (hn : loadCeiling w ≤ n) :
    runnableLevel w n = loadCeiling w := by
  have hstay : ∀ l, loadCeiling w ≤ l → loadCeiling w ≤ exactPeriod l + w := by
    intro l hl
    calc loadCeiling w = exactPeriod (loadCeiling w) + w := (ceiling_fixed hw).symm
      _ ≤ exactPeriod l + w :=
          Nat.add_le_add_right (Nat.div_le_div_right (Nat.mul_le_mul_right _ hl)) _
  have h := iterate_climbs (fun l hl => ceiling_climbs hw hl) hstay n
  rw [min_eq_left hn] at h
  exact le_antisymm (runnableLevel_le hw n) h

/-- The level strictly climbs until it is at the ceiling for good. -/
theorem runnableLevel_climbs {w : ℕ} (hw : 1 ≤ w) (n : ℕ) :
    runnableLevel w n < runnableLevel w (n + 1) ∨ ∀ k ≥ n, runnableLevel w k = loadCeiling w := by
  rcases Nat.lt_or_ge (runnableLevel w n) (loadCeiling w) with h | h
  · left
    rw [runnableLevel, runnableLevel, Function.iterate_succ_apply']
    exact ceiling_climbs hw h
  · right
    intro k hk
    have heq : (fun e => exactPeriod e + w)^[n] 0 = loadCeiling w :=
      le_antisymm (runnableLevel_le hw n) h
    obtain ⟨d, rfl⟩ := Nat.exists_eq_add_of_le' hk
    rw [runnableLevel, Function.iterate_add_apply, heq, Function.iterate_fixed (ceiling_fixed hw)]

theorem loadCeiling_lt {w : ℕ} (hw : w < 2 ^ 32) : loadCeiling w < 2 ^ 38 := by
  unfold loadCeiling
  omega

theorem loadCeiling_nice0 : loadCeiling 1024 = LOAD_AVG_MAX.toNat := by
  decide

theorem clamp_idle {s : UInt64} (h : s.toNat ≤ LOAD_AVG_MAX.toNat) :
    ¬ 1024 * s / LOAD_AVG_MAX > 1024 := by
  have hmax : LOAD_AVG_MAX.toNat = 47742 := by decide
  have h1024 : (1024 : UInt64).toNat = 1024 := by decide
  rw [hmax] at h
  have hmul : ((1024 : UInt64) * s).toNat = 1024 * s.toNat := by
    rw [Word.toNat_mul_of_lt (by rw [h1024]; omega), h1024]
  rw [gt_iff_lt, UInt64.lt_iff_toNat_lt, UInt64.toNat_div, hmul, hmax, h1024]
  omega

/-- The invariant of the exact update: the load sum is below the ceiling. -/
structure Ceiled (w : UInt64) (t : CfsTask) : Prop where
  weight : t.weight = w
  loadSum : t.loadSum.toNat ≤ loadCeiling w.toNat

section Weight

variable {w : UInt64} (hw : 1 ≤ w.toNat) (hw32 : w.toNat < 2 ^ 32) (state : ℤ)

include hw hw32

theorem toNat_nextLoadSum_exact {t : CfsTask} (ht : Ceiled w t) :
    (t.nextLoadSum (Mode.exact.decay state)).toNat =
      exactPeriod t.loadSum.toNat + contribution w.toNat t.runnable := by
  have hle := ceiling_invariant hw ht.loadSum
  have hlt := loadCeiling_lt hw32
  unfold CfsTask.nextLoadSum contribution
  rw [ht.weight]
  split_ifs
  · rw [Word.toNat_add_of_lt (by rw [decay_one]; simp only [Mode.period]; omega), decay_one]
    rfl
  · rw [UInt64.add_zero, decay_one, Nat.add_zero]
    rfl

theorem Ceiled.onTask {t : CfsTask} (ht : Ceiled w t) {op : LoadOp} (hop : op.isMode .exact) :
    Ceiled w (op.onTask state t) := by
  cases op with
  | update m =>
    obtain rfl : m = .exact := hop
    have hle := ceiling_invariant hw ht.loadSum
    have hc := contribution_le w.toNat t.runnable
    rw [LoadOp.onTask, updateLoad_eq]
    refine ⟨ht.weight, ?_⟩
    change (t.nextLoadSum (Mode.exact.decay state)).toNat ≤ _
    rw [toNat_nextLoadSum_exact hw hw32 state ht]
    omega
  | setRunnable r =>
    change Ceiled w (taskSetRunnable t r)
    unfold taskSetRunnable
    split_ifs <;> exact ⟨ht.weight, ht.loadSum⟩

theorem Ceiled.run {t : CfsTask} (ht : Ceiled w t) {ops : List LoadOp}
    (hops : ∀ op ∈ ops, op.isMode .exact) :
    Ceiled w (Machine.run (LoadOp.onTask state) t ops) := by
  induction ops generalizing t with
  | nil => exact ht
  | cons op ops ih =>
    exact ih (ht.onTask hw hw32 state (hops op (by simp))) fun op' h => hops op' (by simp [h])

theorem Ceiled.updates {t : CfsTask} (ht : Ceiled w t) (n : ℕ) :
    Ceiled w (Machine.run (LoadOp.onTask state) t (List.replicate n (.update .exact))) := by
  refine ht.run hw hw32 state fun op hop => ?_
  rw [List.eq_of_mem_replicate hop]
  rfl

theorem run_runnable {t : CfsTask} (ht : Ceiled w t) (hrun : t.runnable = 1) (n : ℕ) :
    let u := Machine.run (LoadOp.onTask state) t (List.replicate n (.update .exact))
    u.runnable = 1 ∧ u.loadSum.toNat = (fun e => exactPeriod e + w.toNat)^[n] t.loadSum.toNat ∧
      (0 < n → u.loadAvg = clampedLoadAvg u.weight u.loadSum) := by
  induction n with
  | zero => exact ⟨hrun, rfl, fun h => absurd h (lt_irrefl 0)⟩
  | succ n ih =>
    obtain ⟨hr, hsum, -⟩ := ih
    have hc := ht.updates hw hw32 state n
    rw [List.replicate_succ', run_snoc, LoadOp.onTask, updateLoad_eq]
    refine ⟨hr, ?_, fun _ => rfl⟩
    rw [Function.iterate_succ_apply', ← hsum]
    exact (toNat_nextLoadSum_exact hw hw32 state hc).trans (by rw [contribution, if_pos hr])

end Weight

theorem loadSumOf_runnable {rq : CfsRq} {i : ℕ} {t : CfsTask} (ht : rq.tasks[i]? = some t)
    (hw : 1 ≤ t.weight.toNat) (hw32 : t.weight.toNat < 2 ^ 32) (h0 : t.loadSum = 0)
    (hrun : t.runnable = 1) (n : ℕ) :
    (runLoad i rq (List.replicate n (.update .exact))).loadSumOf i =
      runnableLevel t.weight.toNat n := by
  have hc : Ceiled t.weight t := ⟨rfl, by rw [h0]; exact Nat.zero_le _⟩
  have h := (run_runnable hw hw32 rq.apafState hc hrun n).2.1
  rw [h0] at h
  rw [CfsRq.loadSumOf, runLoad_task ht, Option.map_some, Option.getD_some]
  exact h

theorem loadAvgOf_runnable {rq : CfsRq} {i : ℕ} {t : CfsTask} (ht : rq.tasks[i]? = some t)
    (hw : t.weight = 1024) (h0 : t.loadSum = 0) (hrun : t.runnable = 1) {n : ℕ} (hn : 0 < n)
    (hsum : (runLoad i rq (List.replicate n (.update .exact))).loadSumOf i = loadCeiling 1024) :
    (runLoad i rq (List.replicate n (.update .exact))).loadAvgOf i = 1024 := by
  have h1 : 1 ≤ t.weight.toNat := by rw [hw]; decide
  have h32 : t.weight.toNat < 2 ^ 32 := by rw [hw]; decide
  have hc : Ceiled t.weight t := ⟨rfl, by rw [h0]; exact Nat.zero_le _⟩
  have havg := (run_runnable h1 h32 rq.apafState hc hrun n).2.2 hn
  have hweight := (hc.updates h1 h32 rq.apafState n).weight
  rw [CfsRq.loadSumOf, runLoad_task ht, Option.map_some, Option.getD_some, loadCeiling_nice0] at hsum
  rw [CfsRq.loadAvgOf, runLoad_task ht, Option.map_some, Option.getD_some, havg, hweight, hw,
    UInt64.toNat_inj.mp hsum]
  decide

/-- The load sum of every exact history from 0 is below the ceiling of its weight,
which an always runnable task climbs to and keeps. At weight 1024 the ceiling is
`LOAD_AVG_MAX`: the clamp never fires, and the load average ends at 1024. -/
theorem exact_load_ceiling (rq : CfsRq) (i : ℕ) (t : CfsTask) (ht : rq.tasks[i]? = some t)
    (hw : 1 ≤ t.weight.toNat) (hw32 : t.weight.toNat < 2 ^ 32) (h0 : t.loadSum = 0) :
    (∀ ops : List LoadOp, (∀ op ∈ ops, op.isMode .exact) →
      (runLoad i rq ops).loadSumOf i ≤ loadCeiling t.weight.toNat) ∧
    (t.runnable = 1 →
      (∀ n : ℕ, (runLoad i rq (List.replicate n (.update .exact))).loadSumOf i <
            (runLoad i rq (List.replicate (n + 1) (.update .exact))).loadSumOf i ∨
          ∀ k ≥ n, (runLoad i rq (List.replicate k (.update .exact))).loadSumOf i =
            loadCeiling t.weight.toNat) ∧
      ∃ n : ℕ, ∀ k ≥ n, (runLoad i rq (List.replicate k (.update .exact))).loadSumOf i =
        loadCeiling t.weight.toNat) ∧
    loadCeiling 1024 = LOAD_AVG_MAX.toNat ∧
    (t.weight = 1024 →
      (∀ ops : List LoadOp, (∀ op ∈ ops, op.isMode .exact) →
        ∀ u, (runLoad i rq ops).tasks[i]? = some u →
          ¬ u.weight * u.loadSum / LOAD_AVG_MAX > u.weight) ∧
      (t.runnable = 1 → ∃ n : ℕ, ∀ k ≥ n,
        (runLoad i rq (List.replicate k (.update .exact))).loadAvgOf i = 1024)) := by
  have hc : Ceiled t.weight t := ⟨rfl, by rw [h0]; exact Nat.zero_le _⟩
  have hceil : ∀ ops : List LoadOp, (∀ op ∈ ops, op.isMode .exact) →
      Ceiled t.weight (Machine.run (LoadOp.onTask rq.apafState) t ops) := fun ops hops =>
    hc.run hw hw32 rq.apafState hops
  refine ⟨fun ops hops => ?_, fun hrun => ⟨fun n => ?_, ?_⟩, loadCeiling_nice0, fun h1024 => ⟨?_, ?_⟩⟩
  · rw [CfsRq.loadSumOf, runLoad_task ht, Option.map_some, Option.getD_some]
    exact (hceil ops hops).loadSum
  · simp only [loadSumOf_runnable ht hw hw32 h0 hrun]
    exact runnableLevel_climbs hw n
  · simp only [loadSumOf_runnable ht hw hw32 h0 hrun]
    exact ⟨_, fun k hk => runnableLevel_eq hw hk⟩
  · intro ops hops u hu
    rw [runLoad_task ht] at hu
    obtain rfl := Option.some.inj hu
    have hsum := (hceil ops hops).loadSum
    rw [h1024] at hsum
    rw [(hceil ops hops).weight, h1024]
    exact clamp_idle (hsum.trans loadCeiling_nice0.le)
  · intro hrun
    refine ⟨loadCeiling t.weight.toNat + 1, fun k hk => ?_⟩
    refine loadAvgOf_runnable ht h1024 h0 hrun (by omega) ?_
    rw [loadSumOf_runnable ht hw hw32 h0 hrun, runnableLevel_eq hw (by omega), h1024]
    rfl

theorem exact_load_ceiling_nice0 :
    (∀ ops : List LoadOp, (∀ op ∈ ops, op.isMode .exact) →
      (runLoad 0 (freshRq [(0, 0)] 0) ops).loadSumOf 0 ≤ loadCeiling (taskCreate 0 0).weight.toNat) ∧
    ∃ n : ℕ, ∀ k ≥ n, (runLoad 0 (freshRq [(0, 0)] 0)
      (List.replicate k (.update .exact))).loadAvgOf 0 = 1024 :=
  have h := exact_load_ceiling (freshRq [(0, 0)] 0) 0 (taskCreate 0 0) (by decide)
    (by decide) (by decide) (by decide)
  ⟨h.1, (h.2.2.2 (by decide)).2 (by decide)⟩

end ApexCfs
