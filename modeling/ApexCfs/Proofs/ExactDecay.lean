import ApexCfs.Proofs.Decay

/-! The exact decay is monotone in the load and antitone in the periods, across
every half-life and the cut-off. -/

namespace ApexCfs

open HalfLife

theorem decayFactor_succ : ∀ r < 31, decayFactor (r + 1) ≤ decayFactor r := by
  decide

theorem half_le_decayFactor : 2 ^ 31 ≤ decayFactor 31 := by
  decide

theorem decayFactor_lt : ∀ r < 32, 0 < r → decayFactor r < 2 ^ 32 := by
  decide

theorem exactRest_mono (r : ℕ) : Monotone (exactRest r) := fun _ _ hab =>
  Nat.div_le_div_right (Nat.mul_le_mul_right _ hab)

theorem exactRest_succ {r : ℕ} (hr : r + 1 < 32) (load : ℕ) :
    exactRest (r + 1) load ≤ exactRest r load :=
  Nat.div_le_div_right (Nat.mul_le_mul_left _ (decayFactor_succ r (by omega)))

theorem exactRest_half (load : ℕ) : exactRest 0 (load / 2) ≤ exactRest 31 load := by
  have h := Nat.mul_le_mul_left load half_le_decayFactor
  rw [exactRest_zero, exactRest]
  omega

theorem exactRest_lt {r : ℕ} (h0 : 0 < r) (hr : r < 32) {load : ℕ} (hload : 0 < load) :
    exactRest r load < load := by
  have h := Nat.mul_lt_mul_of_pos_left (decayFactor_lt r hr h0) hload
  rw [exactRest, Nat.div_lt_iff_lt_mul (by norm_num)]
  exact h

theorem exactDecay_mono (n : ℕ) : Monotone (exactDecay n) :=
  decay_mono (by norm_num) (fun r _ => exactRest_mono r) n

theorem exactDecay_antitone (load : ℕ) : Antitone fun n => exactDecay n load :=
  decay_antitone (by norm_num) (fun _ hr => exactRest_succ hr) exactRest_half load

theorem exactDecay_lt {n load : ℕ} (hn : 0 < n) (hload : 0 < load) : exactDecay n load < load :=
  decay_lt (by norm_num) exactRest_zero (fun _ h0 hr _ hl => exactRest_lt h0 hr hl)
    (fun r => by simp [exactRest]) hn hload

/-- Smaller loads and more periods never leave more, every period takes something
from a load, and the table product is taken in full: it fits in 128 bits and its
quotient in 64. -/
theorem exact_decay_monotone :
    (∀ (a b : UInt64) (m n : ℕ), a ≤ b → m ≤ n → exactDecayLoad a n ≤ exactDecayLoad b m) ∧
    (∀ (b : UInt64) (n : ℕ), 0 < b → 0 < n → exactDecayLoad b n < b) ∧
    (∀ (load : UInt64) (n : ℕ), n < 2016 → n % 32 ≠ 0 →
      (exactDecayLoad load n).toNat =
        load.toNat / 2 ^ (n / 32) * (runnableAvgYNInv.getD (n % 32) 0).toNat / 2 ^ 32 ∧
      load.toNat / 2 ^ (n / 32) * (runnableAvgYNInv.getD (n % 32) 0).toNat < 2 ^ 128) := by
  refine ⟨fun a b m n hab hmn => ?_, fun b n hb hn => ?_, fun load n hn hr => ⟨?_, ?_⟩⟩
  · rw [UInt64.le_iff_toNat_le, toNat_exactDecayLoad, toNat_exactDecayLoad]
    calc exactDecay n a.toNat ≤ exactDecay n b.toNat :=
          exactDecay_mono n (UInt64.le_iff_toNat_le.mp hab)
      _ ≤ exactDecay m b.toNat := exactDecay_antitone b.toNat hmn
  · rw [UInt64.lt_iff_toNat_lt, UInt64.toNat_zero] at hb
    rw [UInt64.lt_iff_toNat_lt, toNat_exactDecayLoad]
    exact exactDecay_lt hn hb
  · rw [toNat_exactDecayLoad, exactDecay, decay_of_lt hn, exactRest, decayFactor, if_neg hr]
  · calc load.toNat / 2 ^ (n / 32) * (runnableAvgYNInv.getD (n % 32) 0).toNat
        ≤ load.toNat * (runnableAvgYNInv.getD (n % 32) 0).toNat :=
          Nat.mul_le_mul_right _ (Nat.div_le_self _ _)
      _ < 2 ^ 64 * 2 ^ 32 := Nat.mul_lt_mul'' (Word.toNat_lt load) (UInt32.toNat_lt _)
      _ < 2 ^ 128 := by norm_num

theorem exact_decay_monotone_boundary :
    exactDecayLoad 999 32 ≤ exactDecayLoad 1000 31 ∧ exactDecayLoad 1000 32 < 1000 ∧
      (exactDecayLoad 1000 33).toNat =
        (1000 : UInt64).toNat / 2 ^ (33 / 32) * (runnableAvgYNInv.getD (33 % 32) 0).toNat / 2 ^ 32 :=
  ⟨exact_decay_monotone.1 999 1000 31 32 (by decide) (by decide),
    exact_decay_monotone.2.1 1000 32 (by decide) (by decide),
    (exact_decay_monotone.2.2 1000 33 (by decide) (by decide)).1⟩

end ApexCfs
