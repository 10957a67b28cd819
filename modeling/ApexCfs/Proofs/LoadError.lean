import ApexCfs.Proofs.LoadSum

/-! The load sums of the modes side by side. All three accumulators receive the
same contributions, so their distance obeys a recurrence of its own: it decays
with them and grows by the difference of the decays and the roundings. -/

namespace ApexCfs

open Leaky

theorem exactPeriod_le_cltiPeriod {e c : ℕ} (h : e ≤ c) : exactPeriod e ≤ cltiPeriod c := by
  unfold exactPeriod cltiPeriod
  omega

theorem cltiPeriod_level {w c : ℕ} (h : 5 * c ≤ 242 * w + 500) :
    5 * (cltiPeriod c + w) ≤ 242 * w + 500 := by
  unfold cltiPeriod
  omega

theorem cltiPeriod_gap {w e c : ℕ} (hlevel : 5 * c ≤ 242 * w + 500)
    (hgap : 100 * c ≤ 100 * e + 153 * w + 8500) :
    100 * cltiPeriod c ≤ 100 * exactPeriod e + 153 * w + 8500 := by
  unfold cltiPeriod exactPeriod
  omega

theorem exactPeriod_level {w e : ℕ} (h : 1000 * e ≤ 46669 * w) :
    1000 * (exactPeriod e + w) ≤ 46669 * w := by
  unfold exactPeriod
  omega

theorem bsaPeriod_le_exactPeriod {e b : ℕ} (h : b ≤ e + 31) :
    bsaPeriod b ≤ exactPeriod e + 31 := by
  unfold bsaPeriod exactPeriod
  omega

theorem bsaPeriod_gap {w e b : ℕ} (hlevel : 1000 * e ≤ 46669 * w) (hgap : 10 * e ≤ 10 * b + 147 * w) :
    10 * exactPeriod e ≤ 10 * bsaPeriod b + 147 * w := by
  unfold bsaPeriod exactPeriod
  omega

section Tracks

variable (w : ℕ) (flags : List ℤ)

theorem track_exact_le_clti : track exactPeriod (flags.map (contribution w)) ≤
    track cltiPeriod (flags.map (contribution w)) := by
  refine track_rel flags (R := fun e c => e ≤ c) le_rfl fun r _ e c h => ?_
  exact Nat.add_le_add_right (exactPeriod_le_cltiPeriod h) _

theorem track_clti_gap : 100 * track cltiPeriod (flags.map (contribution w)) ≤
    100 * track exactPeriod (flags.map (contribution w)) + 153 * w + 8500 := by
  have h : 5 * track cltiPeriod (flags.map (contribution w)) ≤ 242 * w + 500 ∧
      100 * track cltiPeriod (flags.map (contribution w)) ≤
        100 * track exactPeriod (flags.map (contribution w)) + 153 * w + 8500 := by
    refine track_rel flags (R := fun c e =>
      5 * c ≤ 242 * w + 500 ∧ 100 * c ≤ 100 * e + 153 * w + 8500) (by omega) ?_
    rintro r - c e ⟨hlevel, hgap⟩
    have hw := contribution_le w r
    have hl := cltiPeriod_level hlevel
    have hg := cltiPeriod_gap hlevel hgap
    omega
  exact h.2

theorem track_exact_level :
    1000 * track exactPeriod (flags.map (contribution w)) ≤ 46669 * w := by
  refine track_inv flags (I := fun e => 1000 * e ≤ 46669 * w) (by omega) fun r _ e h => ?_
  have hw := contribution_le w r
  have hl := exactPeriod_level h
  omega

theorem track_bsa_le_exact : track bsaPeriod (flags.map (contribution w)) ≤
    track exactPeriod (flags.map (contribution w)) + 31 := by
  refine track_rel flags (R := fun b e => b ≤ e + 31) (by omega) fun r _ b e h => ?_
  have hb := bsaPeriod_le_exactPeriod h
  omega

theorem track_bsa_gap : 10 * track exactPeriod (flags.map (contribution w)) ≤
    10 * track bsaPeriod (flags.map (contribution w)) + 147 * w := by
  have h : 1000 * track exactPeriod (flags.map (contribution w)) ≤ 46669 * w ∧
      10 * track exactPeriod (flags.map (contribution w)) ≤
        10 * track bsaPeriod (flags.map (contribution w)) + 147 * w := by
    refine track_rel flags (R := fun e b => 1000 * e ≤ 46669 * w ∧ 10 * e ≤ 10 * b + 147 * w)
      (by omega) ?_
    rintro r - e b ⟨hlevel, hgap⟩
    have hw := contribution_le w r
    have hl := exactPeriod_level hlevel
    have hg := bsaPeriod_gap hlevel hgap
    omega
  exact h.2

end Tracks

/-- Three copies of a fresh task under one history of flags: the CLTI load sum
is never below the exact one and the BSA one hardly above it, and both stay
within a fixed number of weights of it. -/
theorem load_sums_close (rq : CfsRq) (i : ℕ) (id nice : ℤ) (w : UInt64) (flags : List ℤ)
    (hw : 1 ≤ w.toNat ∧ w.toNat ≤ 88761) (hi : rq.tasks[i]? = some (freshTask id nice w)) :
    let E := ((runLoad i rq (loadHistory .exact flags)).loadSumOf i : ℚ)
    let B := ((runLoad i rq (loadHistory .bsa flags)).loadSumOf i : ℚ)
    let C := ((runLoad i rq (loadHistory .clti flags)).loadSumOf i : ℚ)
    (0 ≤ C - E ∧ C - E ≤ 1.53 * w.toNat + 85) ∧ (-31 ≤ E - B ∧ E - B ≤ 14.7 * w.toNat) := by
  intro E B C
  have hE : E = track exactPeriod (flags.map (contribution w.toNat)) := by
    exact congrArg (fun n : ℕ => (n : ℚ)) (loadHistory_track .exact hw.2 hi flags)
  have hB : B = track bsaPeriod (flags.map (contribution w.toNat)) := by
    exact congrArg (fun n : ℕ => (n : ℚ)) (loadHistory_track .bsa hw.2 hi flags)
  have hC : C = track cltiPeriod (flags.map (contribution w.toNat)) := by
    exact congrArg (fun n : ℕ => (n : ℚ)) (loadHistory_track .clti hw.2 hi flags)
  have h1 : E ≤ C := by
    rw [hE, hC]
    exact_mod_cast track_exact_le_clti w.toNat flags
  have h2 : 100 * C ≤ 100 * E + 153 * w.toNat + 8500 := by
    rw [hE, hC]
    exact_mod_cast track_clti_gap w.toNat flags
  have h3 : B ≤ E + 31 := by
    rw [hE, hB]
    exact_mod_cast track_bsa_le_exact w.toNat flags
  have h4 : 10 * E ≤ 10 * B + 147 * w.toNat := by
    rw [hE, hB]
    exact_mod_cast track_bsa_gap w.toNat flags
  refine ⟨⟨?_, ?_⟩, ?_, ?_⟩ <;> linarith

theorem load_sums_close_nice0 :
    let E := ((runLoad 0 (freshRq [(0, 0)] 0) (loadHistory .exact [1, 1, 0, 1])).loadSumOf 0 : ℚ)
    let B := ((runLoad 0 (freshRq [(0, 0)] 0) (loadHistory .bsa [1, 1, 0, 1])).loadSumOf 0 : ℚ)
    let C := ((runLoad 0 (freshRq [(0, 0)] 0) (loadHistory .clti [1, 1, 0, 1])).loadSumOf 0 : ℚ)
    (0 ≤ C - E ∧ C - E ≤ 1.53 * (1024 : UInt64).toNat + 85) ∧
      (-31 ≤ E - B ∧ E - B ≤ 14.7 * (1024 : UInt64).toNat) :=
  load_sums_close (freshRq [(0, 0)] 0) 0 0 0 1024 [1, 1, 0, 1] (by decide) (by decide)

end ApexCfs
