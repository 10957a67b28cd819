import ApexCfs.Proofs.LoadError

/-! Load averages and weights. The load sum already counts the weight, and the
average multiplies it in once more, so averages grow with the square of the
weight: only weight 1024 and tasks that never run keep them proportional. -/

namespace ApexCfs

open Machine Leaky

/-- The averages of a task of weight `w` and of one of weight 1024 are in
proportion, up to the rounding of the two divisions. -/
def Proportional (w avg avg1024 : ℕ) : Prop :=
  |1024 * (avg : ℤ) - w * (avg1024 : ℤ)| ≤ max w 1024

theorem proportional_iff (w avg avg1024 : ℕ) :
    1024 * avg ≤ w * avg1024 + max w 1024 ∧ w * avg1024 ≤ 1024 * avg + max w 1024 ↔
      Proportional w avg avg1024 := by
  rw [Proportional, abs_le]
  generalize hp : w * avg1024 = p
  have hp' : (w : ℤ) * avg1024 = p := by exact_mod_cast hp
  rw [hp']
  omega

instance (w avg avg1024 : ℕ) : Decidable (Proportional w avg avg1024) :=
  decidable_of_iff _ (proportional_iff w avg avg1024)

def exactAvg (w : ℕ) (flags : List ℤ) : ℕ :=
  min w (w * track exactPeriod (flags.map (contribution w)) / 47742)

theorem loadHistory_avg {rq : CfsRq} {i : ℕ} {id nice : ℤ} {w : UInt64} (hw : w.toNat ≤ 88761)
    (hi : rq.tasks[i]? = some (freshTask id nice w)) (flags : List ℤ) :
    (runLoad i rq (loadHistory .exact flags)).loadAvgOf i = exactAvg w.toNat flags := by
  have ht := (loadBounded_fresh id nice w).run rq.apafState hw (loadHistory .exact flags)
  have hsum := loadHistory_track .exact hw hi flags
  rw [CfsRq.loadSumOf, runLoad_task hi, Option.map_some, Option.getD_some] at hsum
  rw [CfsRq.loadAvgOf, runLoad_task hi, Option.map_some, Option.getD_some, ht.loadAvg,
    toNat_clampedLoadAvg, hsum]
  · rfl
  · calc w.toNat * _ ≤ 88761 * (49 * 88761) :=
          Nat.mul_le_mul hw (ht.loadSum.trans (Nat.mul_le_mul_left 49 hw))
      _ < 2 ^ 64 := by norm_num

theorem track_blocked (w : ℕ) {flags : List ℤ} (h : ∀ r ∈ flags, r ≠ 1) :
    track exactPeriod (flags.map (contribution w)) = 0 := by
  refine track_inv flags (I := fun e => e = 0) rfl ?_
  rintro r hr e rfl
  rw [contribution, if_neg (h r hr)]
  rfl

theorem exactAvg_blocked (w : ℕ) {flags : List ℤ} (h : ∀ r ∈ flags, r ≠ 1) :
    exactAvg w flags = 0 := by
  rw [exactAvg, track_blocked w h, Nat.mul_zero, Nat.zero_div, Nat.min_zero]

theorem exactAvg_first (w : ℕ) {pre : List ℤ} (h : ∀ r ∈ pre, r ≠ 1) :
    exactAvg w (pre ++ [1]) = min w (w * w / 47742) := by
  rw [exactAvg, List.map_append, List.map_singleton, track_snoc, track_blocked w h]
  have hc : exactPeriod 0 + contribution w 1 = w := by simp [exactPeriod, contribution]
  rw [hc]

/-- One runnable period already breaks the proportion of a weight from 46 on. -/
theorem first_period_disproportional : ∀ w ∈ niceToWeight, 46 ≤ w.toNat → w ≠ 1024 →
    ¬ Proportional w.toNat (min w.toNat (w.toNat * w.toNat / 47742))
      (min 1024 (1024 * 1024 / 47742)) :=
  forall_niceToWeight (by decide)

/-- Five runnable periods break that of every other weight of the table. -/
theorem five_periods_disproportional : ∀ w ∈ niceToWeight, w ≠ 1024 →
    ¬ Proportional w.toNat (exactAvg w.toNat (List.replicate 5 1))
      (exactAvg 1024 (List.replicate 5 1)) :=
  forall_niceToWeight (by decide)

theorem blocked_of_proportional {w : UInt64} (hw : w ∈ niceToWeight) (h46 : 46 ≤ w.toNat)
    (hne : w ≠ 1024) {flags : List ℤ} (hall : ∀ n, Proportional w.toNat
      (exactAvg w.toNat (flags.take n)) (exactAvg 1024 (flags.take n))) : ∀ r ∈ flags, r ≠ 1 := by
  rintro r hr rfl
  -- the history up to and including its first runnable period
  obtain ⟨pre, post, rfl, hpre⟩ := List.eq_append_cons_of_mem hr
  have hblocked : ∀ r ∈ pre, r ≠ 1 := fun r hr h1 => hpre (h1 ▸ hr)
  have hfirst := hall (pre.length + 1)
  have htake : (pre ++ 1 :: post).take (pre.length + 1) = pre ++ [1] := by
    simp [List.take_append]
  rw [htake, exactAvg_first _ hblocked, exactAvg_first _ hblocked] at hfirst
  exact first_period_disproportional w hw h46 hne hfirst

theorem proportional_self (avg : ℕ) : Proportional 1024 avg avg := by
  simp [Proportional]

theorem proportional_zero (w : ℕ) : Proportional w 0 0 := by
  simp [Proportional]

theorem track_climbs {w : ℕ} (hw : 1024 ≤ w) (n : ℕ) :
    min 47742 n ≤ track exactPeriod ((List.replicate n (1 : ℤ)).map (contribution w)) := by
  rw [List.map_replicate, track_replicate, show contribution w 1 = w from if_pos rfl]
  refine iterate_climbs (fun l hl => ?_) (fun l hl => ?_) n
  all_goals
    unfold exactPeriod
    omega

theorem exactAvg_reaches {w n : ℕ} (hw : 1024 ≤ w) (hn : 47742 ≤ n) :
    exactAvg w (List.replicate n 1) = w := by
  have h := track_climbs hw n
  rw [min_eq_left hn] at h
  have hle : w ≤ w * track exactPeriod ((List.replicate n (1 : ℤ)).map (contribution w)) / 47742 := by
    rw [Nat.le_div_iff_mul_le (by norm_num)]
    exact Nat.mul_le_mul_left w h
  rw [exactAvg, min_eq_left hle]

theorem exactAvg_lt {w : ℕ} (h0 : 0 < w) (hw : w ≤ 1000) (flags : List ℤ) :
    exactAvg w flags < w := by
  have h := track_exact_level w flags
  refine (min_le_right _ _).trans_lt ?_
  rw [Nat.div_lt_iff_lt_mul (by norm_num)]
  exact Nat.mul_lt_mul_of_pos_left (by omega) h0

def ProportionalAfter (rq rq' : CfsRq) (i j : ℕ) (w : UInt64) (flags : List ℤ) : Prop :=
  Proportional w.toNat ((runLoad i rq (loadHistory .exact flags)).loadAvgOf i)
    ((runLoad j rq' (loadHistory .exact flags)).loadAvgOf j)

/-- Averages stay proportional at every step where the weight is 1024 or the task
has not run; from weight 46 on one runnable period is enough to lose that, and
weight 1024 is the only one that keeps it through all histories. An always
runnable task reaches its weight from 1024 on only. -/
theorem load_avg_proportional_iff (rq rq' : CfsRq) (i j : ℕ) (id nice id' nice' : ℤ) (w : UInt64)
    (hw : w ∈ niceToWeight) (hi : rq.tasks[i]? = some (freshTask id nice w))
    (hj : rq'.tasks[j]? = some (freshTask id' nice' 1024)) :
    (∀ flags : List ℤ, (w = 1024 ∨ ∀ r ∈ flags, r ≠ 1) →
      ∀ n : ℕ, ProportionalAfter rq rq' i j w (flags.take n)) ∧
    (46 ≤ w.toNat → ∀ flags : List ℤ,
      (∀ n : ℕ, ProportionalAfter rq rq' i j w (flags.take n)) → w = 1024 ∨ ∀ r ∈ flags, r ≠ 1) ∧
    ((∀ flags : List ℤ, ProportionalAfter rq rq' i j w flags) ↔ w = 1024) ∧
    ((∃ N : ℕ, ∀ n ≥ N,
      (runLoad i rq (loadHistory .exact (List.replicate n 1))).loadAvgOf i = w.toNat) ↔
        1024 ≤ w.toNat) := by
  have hrange : ∀ v ∈ niceToWeight, v.toNat ≤ 88761 ∧ 0 < v.toNat ∧
      (v.toNat < 1024 → v.toNat ≤ 1000) := forall_niceToWeight (by decide)
  obtain ⟨hle, hpos, hgap⟩ := hrange w hw
  have havg : ∀ flags, (runLoad i rq (loadHistory .exact flags)).loadAvgOf i =
      exactAvg w.toNat flags := loadHistory_avg hle hi
  have havg' : ∀ flags, (runLoad j rq' (loadHistory .exact flags)).loadAvgOf j =
      exactAvg 1024 flags := loadHistory_avg (by decide) hj
  have hprop : ∀ flags, ProportionalAfter rq rq' i j w flags ↔
      Proportional w.toNat (exactAvg w.toNat flags) (exactAvg 1024 flags) := by
    intro flags
    rw [ProportionalAfter, havg, havg']
  refine ⟨?_, ?_, ?_, ?_⟩
  · intro flags hcond n
    rw [hprop]
    rcases hcond with rfl | hblocked
    · exact proportional_self _
    · have htake : ∀ r ∈ flags.take n, r ≠ 1 := fun r hr => hblocked r (List.mem_of_mem_take hr)
      rw [exactAvg_blocked _ htake, exactAvg_blocked _ htake]
      exact proportional_zero _
  · intro h46 flags hall
    by_cases hne : w = 1024
    · exact Or.inl hne
    · exact Or.inr (blocked_of_proportional hw h46 hne fun n => (hprop _).1 (hall n))
  · refine ⟨?_, ?_⟩
    · intro hall
      by_contra hne
      exact five_periods_disproportional w hw hne ((hprop _).mp (hall _))
    · rintro rfl flags
      rw [hprop]
      exact proportional_self _
  · refine ⟨?_, ?_⟩
    · rintro ⟨N, hN⟩
      by_contra hlt
      have hreach := hN N le_rfl
      rw [havg] at hreach
      exact (exactAvg_lt hpos (hgap (not_le.mp hlt)) _).ne hreach
    · intro hge
      exact ⟨47742, fun n hn => by rw [havg, exactAvg_reaches hge hn]⟩

theorem load_avg_proportional_nice5 :
    (∀ flags : List ℤ, ((335 : UInt64) = 1024 ∨ ∀ r ∈ flags, r ≠ 1) →
      ∀ n : ℕ, ProportionalAfter (freshRq [(0, 5)] 0) (freshRq [(1, 0)] 0) 0 0 335 (flags.take n)) ∧
    (46 ≤ (335 : UInt64).toNat → ∀ flags : List ℤ,
      (∀ n : ℕ, ProportionalAfter (freshRq [(0, 5)] 0) (freshRq [(1, 0)] 0) 0 0 335 (flags.take n)) →
        (335 : UInt64) = 1024 ∨ ∀ r ∈ flags, r ≠ 1) ∧
    ((∀ flags : List ℤ,
      ProportionalAfter (freshRq [(0, 5)] 0) (freshRq [(1, 0)] 0) 0 0 335 flags) ↔
        (335 : UInt64) = 1024) ∧
    ((∃ N : ℕ, ∀ n ≥ N, (runLoad 0 (freshRq [(0, 5)] 0)
      (loadHistory .exact (List.replicate n 1))).loadAvgOf 0 = (335 : UInt64).toNat) ↔
        1024 ≤ (335 : UInt64).toNat) :=
  load_avg_proportional_iff (freshRq [(0, 5)] 0) (freshRq [(1, 0)] 0) 0 0 0 5 1 0 335
    (by decide) (by decide) (by decide)

/-- A nice 1 task after one runnable period: 14 against 21 at weights 820 and 1024. -/
theorem load_avg_disproportional :
    ¬ ∀ (nice : ℤ) (flags : List ℤ), ProportionalAfter (freshRq [(0, nice)] 0) (freshRq [(1, 0)] 0)
      0 0 (taskCreate 0 nice).weight flags := by
  intro h
  have hfirst := h 1 [1]
  revert hfirst
  unfold ProportionalAfter
  decide

end ApexCfs
