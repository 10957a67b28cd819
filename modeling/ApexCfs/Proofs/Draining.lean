import ApexCfs.Proofs.LoadSum

/-! The load of a task that stays blocked. The exact and the APAF decay take
something from every load and drain it; the BSA and the CLTI one leave small
loads alone, so a residue stays for ever. -/

namespace ApexCfs

open Machine Leaky

/-- The largest load sum that one period of a mode leaves alone. -/
def residue : Mode → ℕ
  | .exact => 0
  | .bsa => 31
  | .clti => 36
  | .apaf => 0

theorem period_fixed (m : Mode) (state : ℤ) {l : ℕ} (h : l ≤ residue m) : m.period state l = l := by
  cases m with
  | exact =>
    obtain rfl : l = 0 := Nat.le_zero.mp h
    rfl
  | bsa =>
    simp only [residue] at h
    simp only [Mode.period, bsaPeriod]
    omega
  | clti =>
    simp only [residue] at h
    simp only [Mode.period, cltiPeriod]
    omega
  | apaf =>
    obtain rfl : l = 0 := Nat.le_zero.mp h
    simp [Mode.period]

/-- Above the residue a period takes something, and it never goes below. -/
theorem period_drops (m : Mode) (state : ℤ) {l : ℕ} (h : residue m < l) :
    residue m ≤ m.period state l ∧ m.period state l < l := by
  cases m with
  | exact =>
    simp only [residue] at h
    simp only [Mode.period, exactPeriod, residue]
    omega
  | bsa =>
    simp only [residue] at h
    simp only [Mode.period, bsaPeriod, residue]
    omega
  | clti =>
    simp only [residue] at h
    simp only [Mode.period, cltiPeriod, residue]
    omega
  | apaf =>
    obtain ⟨-, h1⟩ := apafFactor_range state
    have hpos : (0 : ℚ) < l := by exact_mod_cast h
    refine ⟨Nat.zero_le _, ?_⟩
    simp only [Mode.period]
    rw [Nat.floor_lt' (by simp only [residue] at h; omega)]
    exact mul_lt_of_lt_one_right hpos (by linarith)

theorem period_lt_iff (m : Mode) (state : ℤ) (l : ℕ) : m.period state l < l ↔ residue m < l := by
  refine ⟨?_, ?_⟩
  · intro h
    by_contra hle
    rw [period_fixed m state (not_lt.mp hle)] at h
    exact lt_irrefl _ h
  · exact fun h => (period_drops m state h).2

theorem run_blocked (m : Mode) (state : ℤ) {t : CfsTask} (ht : t.runnable ≠ 1) (n : ℕ) :
    let u := run (LoadOp.onTask state) t (List.replicate n (.update m))
    u.runnable ≠ 1 ∧ u.loadSum.toNat = (m.period state)^[n] t.loadSum.toNat ∧
      (0 < n → u.loadAvg = clampedLoadAvg u.weight u.loadSum) := by
  induction n with
  | zero => exact ⟨ht, rfl, fun h => absurd h (lt_irrefl 0)⟩
  | succ n ih =>
    obtain ⟨hrun, hsum, -⟩ := ih
    rw [List.replicate_succ', run_snoc, LoadOp.onTask, updateLoad_eq]
    refine ⟨hrun, ?_, fun _ => rfl⟩
    rw [Function.iterate_succ_apply', ← hsum, ← decay_one]
    simp only [CfsTask.nextLoadSum, if_neg hrun, UInt64.add_zero]

def Drains (m : Mode) (rq : CfsRq) (i : ℕ) : Prop :=
  ∃ n, (runLoad i rq (List.replicate n (.update m))).loadSumOf i = 0 ∧
    (runLoad i rq (List.replicate n (.update m))).loadAvgOf i = 0

theorem loadSumOf_blocked (m : Mode) {rq : CfsRq} {i : ℕ} {t : CfsTask}
    (ht : rq.tasks[i]? = some t) (hblocked : t.runnable ≠ 1) (n : ℕ) :
    (runLoad i rq (List.replicate n (.update m))).loadSumOf i =
      (m.period rq.apafState)^[n] t.loadSum.toNat := by
  rw [CfsRq.loadSumOf, runLoad_task ht, Option.map_some, Option.getD_some]
  exact (run_blocked m rq.apafState hblocked n).2.1

theorem loadAvgOf_blocked (m : Mode) {rq : CfsRq} {i : ℕ} {t : CfsTask}
    (ht : rq.tasks[i]? = some t) (hblocked : t.runnable ≠ 1) {n : ℕ} (hn : 0 < n)
    (hsum : (runLoad i rq (List.replicate n (.update m))).loadSumOf i = 0) :
    (runLoad i rq (List.replicate n (.update m))).loadAvgOf i = 0 := by
  rw [CfsRq.loadSumOf, runLoad_task ht, Option.map_some, Option.getD_some] at hsum
  have hzero := UInt64.toNat_inj.mp (hsum.trans UInt64.toNat_zero.symm)
  rw [CfsRq.loadAvgOf, runLoad_task ht, Option.map_some, Option.getD_some,
    (run_blocked m rq.apafState hblocked n).2.2 hn, hzero, clampedLoadAvg_zero, UInt64.toNat_zero]

theorem residue_remains (m : Mode) {rq : CfsRq} {i : ℕ} {t : CfsTask}
    (ht : rq.tasks[i]? = some t) (hblocked : t.runnable ≠ 1) :
    ∃ N, ∀ n ≥ N, (runLoad i rq (List.replicate n (.update m))).loadSumOf i =
      min t.loadSum.toNat (residue m) := by
  obtain ⟨N, hN⟩ := iterate_settles (fun l hl => period_fixed m rq.apafState hl)
    (fun l hl => period_drops m rq.apafState hl) t.loadSum.toNat
  exact ⟨N, fun n hn => (loadSumOf_blocked m ht hblocked n).trans (hN n hn)⟩

theorem drains_iff (m : Mode) {rq : CfsRq} {i : ℕ} {t : CfsTask} (ht : rq.tasks[i]? = some t)
    (hblocked : t.runnable ≠ 1) : Drains m rq i ↔ residue m = 0 ∨ t.loadSum = 0 := by
  obtain ⟨N, hN⟩ := residue_remains m ht hblocked
  refine ⟨?_, ?_⟩
  · rintro ⟨n, hsum, -⟩
    -- once at 0 the load sum stays there, so the residue is 0 as well
    have hstay := hN (N + n) (by omega)
    rw [loadSumOf_blocked m ht hblocked] at hsum hstay
    rw [Function.iterate_add_apply, hsum,
      Function.iterate_fixed (period_fixed m rq.apafState (Nat.zero_le _))] at hstay
    rcases Nat.min_eq_zero_iff.mp hstay.symm with h | h
    · exact Or.inr (UInt64.toNat_inj.mp (h.trans UInt64.toNat_zero.symm))
    · exact Or.inl h
  · intro h
    have hzero : min t.loadSum.toNat (residue m) = 0 := by
      rcases h with h | h
      · rw [h, Nat.min_zero]
      · rw [h, UInt64.toNat_zero, Nat.zero_min]
    have hsum := (hN (N + 1) (by omega)).trans hzero
    exact ⟨N + 1, hsum, loadAvgOf_blocked m ht hblocked (by omega) hsum⟩

theorem decay_one_lt_iff (m : Mode) (state : ℤ) (load : UInt64) :
    m.decay state load 1 < load ↔ residue m < load.toNat := by
  rw [UInt64.lt_iff_toNat_lt, decay_one, period_lt_iff]

/-- One BSA period takes something from a load of 32 on, one CLTI period from 37
on. So under either a blocked task drains only if it has no load sum to begin
with, and otherwise 31, or 36, of it remain; under the exact decay it drains. -/
theorem blocked_load_drains_iff (load : UInt64) (hload : 0 < load) (rq : CfsRq) (i : ℕ) (t : CfsTask)
    (ht : rq.tasks[i]? = some t) (hblocked : t.runnable ≠ 1) :
    ((bsaDecayLoad load 1 < load ↔ 32 ≤ load) ∧ (cltiDecayLoad load 1 < load ↔ 37 ≤ load)) ∧
    ((Drains .bsa rq i ↔ t.loadSum = 0) ∧ (Drains .clti rq i ↔ t.loadSum = 0)) ∧
    (∃ N, ∀ n ≥ N, (runLoad i rq (List.replicate n (.update .bsa))).loadSumOf i =
      min t.loadSum.toNat 31) ∧
    (∃ N, ∀ n ≥ N, (runLoad i rq (List.replicate n (.update .clti))).loadSumOf i =
      min t.loadSum.toNat 36) ∧
    Drains .exact rq i ∧ exactDecayLoad load 1 < load := by
  refine ⟨⟨?_, ?_⟩, ⟨?_, ?_⟩, residue_remains .bsa ht hblocked, residue_remains .clti ht hblocked,
    (drains_iff .exact ht hblocked).mpr (Or.inl rfl), ?_⟩
  · rw [UInt64.le_iff_toNat_le]
    exact decay_one_lt_iff .bsa 0 load
  · rw [UInt64.le_iff_toNat_le]
    exact decay_one_lt_iff .clti 0 load
  · rw [drains_iff .bsa ht hblocked]
    simp [residue]
  · rw [drains_iff .clti ht hblocked]
    simp [residue]
  · exact (decay_one_lt_iff .exact 0 load).mpr (UInt64.lt_iff_toNat_lt.mp hload)

/-- A nice 0 runqueue whose task has blocked after one runnable period. -/
def blockedRq : CfsRq :=
  runLoad 0 (freshRq [(0, 0)] 1) [.setRunnable 1, .update .bsa, .setRunnable 0]

theorem blocked_load_drains_iff_small :
    (bsaDecayLoad 31 1 < 31 ↔ (32 : UInt64) ≤ 31) ∧ (cltiDecayLoad 31 1 < 31 ↔ (37 : UInt64) ≤ 31) ∧
      (Drains .bsa blockedRq 0 ↔ (blockedRq.tasks.headD (taskCreate 0 0)).loadSum = 0) :=
  have h := blocked_load_drains_iff 31 (by decide) blockedRq 0 (blockedRq.tasks.headD (taskCreate 0 0))
    (by decide) (by decide)
  ⟨h.1.1, h.1.2, h.2.1.1⟩

/-- Neither decay takes anything from a load of 31, and the task above keeps its
residue for ever. -/
theorem blocked_load_stays :
    ¬ ((∀ load : UInt64, 0 < load → bsaDecayLoad load 1 < load ∧ cltiDecayLoad load 1 < load) ∨
      Drains .bsa blockedRq 0) := by
  have htask : blockedRq.tasks[0]? = some (blockedRq.tasks.headD (taskCreate 0 0)) := by
    decide
  rintro (h | h)
  · exact absurd (h 31 (by decide)).1 (by decide)
  · rcases (drains_iff .bsa htask (by decide)).mp h with h | h
    · exact absurd h (by decide)
    · exact absurd h (by decide)

end ApexCfs
