import ApexCfs.Lib.Machine
import ApexCfs.Lib.Segments
import ApexCfs.Proofs.KernelMirror

/-! The load tracking of the kernel, over any history of updates of an entity. The
sum of the runnable time never exceeds the maximum that its comment states for the
position in the period, and the averages never exceed the weight and the capacity
by more than one. -/

namespace ApexCfs

open Kernel Segments Machine

def kernelDecay (p level : ℕ) : ℕ := level / 2 ^ (p / 32) * kernelFactor (p % 32) / 2 ^ 32

theorem kernelFactor_lt (r : ℕ) : kernelFactor r < 2 ^ 32 := UInt32.toNat_lt _

theorem kernelFactor_le {r : ℕ} (h : r < 32) (h0 : 0 < r) : kernelFactor r ≤ 4202935002 := by
  have hall : ∀ r < 32, 0 < r → kernelFactor r ≤ 4202935002 := by decide
  exact hall r h h0

theorem kernelDecay_superadditive (p a b : ℕ) :
    kernelDecay p a + kernelDecay p b ≤ kernelDecay p (a + b) := by
  unfold kernelDecay
  calc a / 2 ^ (p / 32) * kernelFactor (p % 32) / 2 ^ 32 +
        b / 2 ^ (p / 32) * kernelFactor (p % 32) / 2 ^ 32
      ≤ (a / 2 ^ (p / 32) * kernelFactor (p % 32) + b / 2 ^ (p / 32) * kernelFactor (p % 32)) /
          2 ^ 32 := Nat.div_add_div_le_add_div
    _ = (a / 2 ^ (p / 32) + b / 2 ^ (p / 32)) * kernelFactor (p % 32) / 2 ^ 32 := by rw [Nat.add_mul]
    _ ≤ (a + b) / 2 ^ (p / 32) * kernelFactor (p % 32) / 2 ^ 32 :=
        Nat.div_le_div_right (Nat.mul_le_mul_right _ (Nat.div_add_div_le_add_div))

theorem period_cases {p : ℕ} (hp : 0 < p) :
    2 ^ (p / 32) = 1 ∧ kernelFactor (p % 32) ≤ 4202935002 ∨ 2 ≤ 2 ^ (p / 32) := by
  rcases Nat.eq_zero_or_pos (p / 32) with h | h
  · exact Or.inl ⟨by rw [h, pow_zero], kernelFactor_le (Nat.mod_lt p (by norm_num)) (by omega)⟩
  · exact Or.inr (Nat.le_self_pow h.ne' 2)

theorem kernelDecay_full {p : ℕ} (hp : 0 < p) : kernelDecay p 47742 + 1024 ≤ 47742 := by
  have hf := kernelFactor_lt (p % 32)
  unfold kernelDecay
  rcases period_cases hp with ⟨hk, hle⟩ | hk
  · rw [hk]
    omega
  · have hhalf : 47742 / 2 ^ (p / 32) ≤ 23871 := Nat.div_le_div_left hk (by norm_num)
    have hprod := Nat.mul_le_mul hhalf hf.le
    omega

/-- Truncation lets a scaled level exceed the scaled one by less than the slack. -/
theorem kernelDecay_scaled {p : ℕ} (hp : 0 < p) :
    kernelDecay p (1024 * 47742 + 47883) ≤ 1024 * kernelDecay p 47742 + 47883 := by
  have hf := kernelFactor_lt (p % 32)
  unfold kernelDecay
  rcases period_cases hp with ⟨hk, hle⟩ | hk
  · rw [hk]
    omega
  · generalize 2 ^ (p / 32) = k at hk ⊢
    generalize kernelFactor (p % 32) = f at hf ⊢
    -- the rest of the shift, and the slack, are small
    have hrest : (1024 * 47742 + 47883) / k ≤ 1024 * (47742 / k) + 24965 := by
      have hdiv := Nat.div_add_mod 47742 k
      have hmod := Nat.mod_lt 47742 (by omega : k > 0)
      refine Nat.div_le_of_le_mul ?_
      rw [Nat.mul_add, Nat.mul_left_comm]
      omega
    have hprod := Nat.mul_le_mul_right f hrest
    have hsmall : 24965 * f ≤ 24965 * 2 ^ 32 := Nat.mul_le_mul_left _ hf.le
    rw [Nat.add_mul, Nat.mul_assoc] at hprod
    omega

/-- A sum is within the maximum for the time used up of the current period. -/
def Room (scale slack used level : ℕ) : Prop := level ≤ scale * (47742 - 1024 + used) + slack

structure PeltBounded (sa : SchedAvg) : Prop where
  contrib : sa.periodContrib.toNat < 1024
  load : Room 1 0 sa.periodContrib.toNat sa.loadSum.toNat
  runnable : Room 1024 47883 sa.periodContrib.toNat sa.runnableSum.toNat
  util : Room 1024 47883 sa.periodContrib.toNat sa.utilSum.toNat

theorem room_within {scale slack used level time : ℕ} (h : Room scale slack used level) (on : Prop)
    [Decidable on] :
    Room scale slack (used + time) (level + if on then scale * time else 0) := by
  have hmul : scale * (47742 - 1024 + (used + time)) =
      scale * (47742 - 1024 + used) + scale * time := by ring
  unfold Room at h ⊢
  rw [hmul]
  split_ifs <;> omega

/-- The two scales that occur: their truncated decay stays below the scaled one. -/
def GoodScale (scale slack : ℕ) : Prop :=
  ∀ p, 0 < p → kernelDecay p (scale * 47742 + slack) ≤ scale * kernelDecay p 47742 + slack

theorem goodScale_one : GoodScale 1 0 := fun p _ => by simp

theorem goodScale_capacity : GoodScale 1024 47883 := fun _ => kernelDecay_scaled

theorem room_across {scale slack used level filled p contrib : ℕ} (hgood : GoodScale scale slack)
    (hp : 0 < p) (hused : used < 1024) (h : Room scale slack used level) {on : Prop} [Decidable on]
    (hcontrib : on → contrib = contribution (kernelDecay p) 47742 1024 (1024 - used) filled) :
    Room scale slack filled (kernelDecay p level + if on then scale * contrib else 0) := by
  have hsup := kernelDecay_superadditive p
  have hfull := kernelDecay_full hp
  unfold Room at h ⊢
  split_ifs with hon
  · rw [hcontrib hon]
    exact busy_le hsup hfull (hgood p hp) (by omega) h
  · have hlevel : level ≤ scale * 47742 + slack :=
      h.trans (Nat.add_le_add_right (Nat.mul_le_mul_left _ (by omega)) _)
    exact idle_le hsup (hgood p hp) hlevel hfull

theorem PeltBounded.lt {sa : SchedAvg} (h : PeltBounded sa) : sa.loadSum.toNat < 2 ^ 32 ∧
    sa.runnableSum.toNat < 2 ^ 32 ∧ sa.utilSum.toNat < 2 ^ 32 := by
  obtain ⟨hc, hl, hr, hu⟩ := h
  unfold Room at hl hr hu
  refine ⟨?_, ?_, ?_⟩ <;> omega

theorem toNat_accumulate {periods : UInt64} (d1 d3 : UInt32) (hp : 0 < periods.toNat)
    (h1 : d1.toNat ≤ 1024) (h3 : d3.toNat ≤ 1024) :
    (accumulatePeltSegments periods d1 d3).toNat =
      contribution (kernelDecay periods.toNat) 47742 1024 d1.toNat d3.toNat := by
  have hfull := kernelDecay_full hp
  have hle : contribution (kernelDecay periods.toNat) 47742 1024 d1.toNat d3.toNat ≤ 47742 :=
    contribution_le (kernelDecay_superadditive periods.toNat) hfull (by omega) h3
  have hmax : LOAD_AVG_MAX.toNat = 47742 := rfl
  have hc1 : (decayLoad d1.toUInt64 periods).toNat = kernelDecay periods.toNat d1.toNat := by
    rw [toNat_kernelDecay (by rw [UInt32.toNat_toUInt64]; omega), UInt32.toNat_toUInt64]
    rfl
  have hmaxDecay : (decayLoad LOAD_AVG_MAX periods).toNat = kernelDecay periods.toNat 47742 := by
    rw [toNat_kernelDecay (by rw [hmax]; norm_num), hmax]
    rfl
  have hc2 : (LOAD_AVG_MAX - decayLoad LOAD_AVG_MAX periods - 1024).toNat =
      47742 - kernelDecay periods.toNat 47742 - 1024 := by
    have hsub : (LOAD_AVG_MAX - decayLoad LOAD_AVG_MAX periods).toNat =
        47742 - kernelDecay periods.toNat 47742 := by
      rw [UInt64.toNat_sub_of_le _ _ (UInt64.le_iff_toNat_le.mpr (by rw [hmax, hmaxDecay]; omega)),
        hmax, hmaxDecay]
    have h1024 : (1024 : UInt64).toNat = 1024 := rfl
    rw [UInt64.toNat_sub_of_le _ _ (UInt64.le_iff_toNat_le.mpr (by rw [hsub, h1024]; omega)), hsub,
      h1024]
  unfold contribution at hle ⊢
  simp only [accumulatePeltSegments, UInt32.toNat_add, UInt64.toNat_toUInt32, hc1, hc2]
  omega

/-- The sums decay by `D`, and those of the states the entity is in grow by `x`. -/
structure Accrued (D : ℕ → ℕ) (x : ℕ) (a b c : Bool) (sa sa' : SchedAvg) : Prop where
  load : sa'.loadSum.toNat = D sa.loadSum.toNat + if a then 1 * x else 0
  runnable : sa'.runnableSum.toNat = D sa.runnableSum.toNat + if b then 1024 * x else 0
  util : sa'.utilSum.toNat = D sa.utilSum.toNat + if c then 1024 * x else 0

theorem toNat_capacity64 {x : UInt64} (hx : x.toNat ≤ 47742) :
    (x <<< UInt64.ofNat SCHED_CAPACITY_SHIFT).toNat = 1024 * x.toNat := by
  have hten : (UInt64.ofNat SCHED_CAPACITY_SHIFT).toNat = 10 := rfl
  rw [UInt64.toNat_shiftLeft, hten, Nat.shiftLeft_eq, Nat.mod_eq_of_lt (by norm_num : 10 < 64)]
  omega

theorem toNat_capacity32 {x : UInt32} (hx : x.toNat ≤ 47742) :
    (x <<< UInt32.ofNat SCHED_CAPACITY_SHIFT).toUInt64.toNat = 1024 * x.toNat := by
  have hten : (UInt32.ofNat SCHED_CAPACITY_SHIFT).toNat = 10 := rfl
  rw [UInt32.toNat_toUInt64, UInt32.toNat_shiftLeft, hten, Nat.shiftLeft_eq,
    Nat.mod_eq_of_lt (by norm_num : 10 < 32)]
  omega

theorem accrued_accrue (sa : SchedAvg) (hl : sa.loadSum.toNat < 2 ^ 32)
    (hr : sa.runnableSum.toNat < 2 ^ 32) (hu : sa.utilSum.toNat < 2 ^ 32) {contrib : UInt32}
    {a b c : Bool} (hcontrib : a → contrib.toNat ≤ 47742) (hb : b → a) (hc : c → a) :
    Accrued id contrib.toNat a b c sa
      (sa.accrue (if a then 1 else 0) (if b then 1 else 0) (if c then 1 else 0) contrib) := by
  have hone : (1 : UInt64) * contrib.toUInt64 = contrib.toUInt64 := UInt64.one_mul _
  have h64 : contrib.toUInt64.toNat = contrib.toNat := UInt32.toNat_toUInt64 _
  have h1 : (1 : UInt64) ≠ 0 := by decide
  refine ⟨?_, ?_, ?_⟩
  · cases a with
    | false => simp [SchedAvg.accrue]
    | true =>
      have hle := hcontrib rfl
      simp only [SchedAvg.accrue, if_true]
      rw [if_pos h1, hone, Word.toNat_add_of_lt (by omega), h64, Nat.one_mul, id]
  · cases b with
    | false => simp [SchedAvg.accrue]
    | true =>
      have hle := hcontrib (hb rfl)
      have hterm := toNat_capacity64 (h64.trans_le hle)
      rw [h64] at hterm
      simp only [SchedAvg.accrue, if_true]
      rw [if_pos h1, hone, Word.toNat_add_of_lt (by omega), hterm, id]
  · cases c with
    | false => simp [SchedAvg.accrue]
    | true =>
      have hterm := toNat_capacity32 (hcontrib (hc rfl))
      have hle := hcontrib (hc rfl)
      have hone' : (1 : ℤ) ≠ 0 := by decide
      simp only [SchedAvg.accrue, if_true]
      rw [if_pos hone', Word.toNat_add_of_lt (by omega), hterm, id]

theorem kernelDecay_le (p level : ℕ) : kernelDecay p level ≤ level := by
  have hf := kernelFactor_lt (p % 32)
  refine Nat.div_le_of_le_mul ?_
  rw [Nat.mul_comm]
  exact Nat.mul_le_mul hf.le (Nat.div_le_self _ _)

theorem accrued_decay_accrue {sa : SchedAvg} (h : PeltBounded sa) {periods : UInt64}
    {contrib : UInt32} {a b c : Bool} (hcontrib : a → contrib.toNat ≤ 47742) (hb : b → a)
    (hc : c → a) (now : UInt64) :
    Accrued (kernelDecay periods.toNat) contrib.toNat a b c sa
      ({ sa.decay periods with periodContrib := now }.accrue (if a then 1 else 0)
        (if b then 1 else 0) (if c then 1 else 0) contrib) := by
  obtain ⟨hl, hr, hu⟩ := h.lt
  have hdl : (sa.decay periods).loadSum.toNat = kernelDecay periods.toNat sa.loadSum.toNat :=
    toNat_kernelDecay hl
  have hdr : (sa.decay periods).runnableSum.toNat =
      kernelDecay periods.toNat sa.runnableSum.toNat := toNat_kernelDecay hr
  have hdu : (sa.decay periods).utilSum.toNat = kernelDecay periods.toNat sa.utilSum.toNat :=
    toNat_kernelDecay hu
  obtain ⟨h1, h2, h3⟩ := accrued_accrue { sa.decay periods with periodContrib := now }
    ((hdl.trans_le (kernelDecay_le _ _)).trans_lt hl)
    ((hdr.trans_le (kernelDecay_le _ _)).trans_lt hr)
    ((hdu.trans_le (kernelDecay_le _ _)).trans_lt hu) hcontrib hb hc
  exact ⟨h1.trans (by rw [id, hdl]), h2.trans (by rw [id, hdr]), h3.trans (by rw [id, hdu])⟩

theorem accumulateSum_cases {sa : SchedAvg} (h : PeltBounded sa) {delta : UInt64}
    (hdelta : delta.toNat < 2 ^ 54) {a b c : Bool} (hb : b → a) (hc : c → a) :
    let sa' := (accumulateSum delta sa (if a then 1 else 0) (if b then 1 else 0)
      (if c then 1 else 0)).1
    let used := sa.periodContrib.toNat
    (used + delta.toNat < 1024 ∧ sa'.periodContrib.toNat = used + delta.toNat ∧
        Accrued id delta.toNat a b c sa sa') ∨
      ∃ p x, 0 < p ∧ sa'.periodContrib.toNat = (used + delta.toNat) % 1024 ∧
        (a → x = contribution (kernelDecay p) 47742 1024 (1024 - used)
          ((used + delta.toNat) % 1024)) ∧
        Accrued (kernelDecay p) x a b c sa sa' := by
  obtain ⟨hl, hr, hu⟩ := h.lt
  have hused := h.contrib
  have h1024 : (1024 : UInt64).toNat = 1024 := rfl
  have h0 : (0 : UInt64).toNat = 0 := rfl
  have hsum : (delta + sa.periodContrib).toNat = sa.periodContrib.toNat + delta.toNat := by
    rw [Word.toNat_add_of_lt (by omega), Nat.add_comm]
  have hperiods : ((delta + sa.periodContrib) / 1024).toNat =
      (sa.periodContrib.toNat + delta.toNat) / 1024 := by rw [UInt64.toNat_div, hsum, h1024]
  simp only [accumulateSum]
  generalize (delta + sa.periodContrib) / 1024 = periods at hperiods ⊢
  by_cases hp : periods ≠ 0
  · right
    have hpos : 0 < periods.toNat := by
      rw [Ne, ← UInt64.toNat_inj, h0] at hp
      omega
    have hrest : (1024 - sa.periodContrib).toUInt32.toNat = 1024 - sa.periodContrib.toNat := by
      rw [UInt64.toNat_toUInt32, UInt64.toNat_sub_of_le _ _ (UInt64.le_iff_toNat_le.mpr (by omega)),
        h1024]
      omega
    have hfilled : ((delta + sa.periodContrib) % 1024).toNat =
        (sa.periodContrib.toNat + delta.toNat) % 1024 := by rw [UInt64.toNat_mod, hsum, h1024]
    have hfilled32 : ((delta + sa.periodContrib) % 1024).toUInt32.toNat =
        (sa.periodContrib.toNat + delta.toNat) % 1024 := by
      rw [UInt64.toNat_toUInt32, hfilled]
      omega
    have hacc := toNat_accumulate (1024 - sa.periodContrib).toUInt32
      ((delta + sa.periodContrib) % 1024).toUInt32 hpos (by omega) (by omega)
    rw [hrest, hfilled32] at hacc
    rw [if_pos hp]
    -- the contribution is computed for an entity on the runqueue only
    generalize hx : (if (if a then (1 : UInt64) else 0) ≠ 0 then _ else delta.toUInt32) = contrib
    have hcontrib : a → contrib.toNat = contribution (kernelDecay periods.toNat) 47742 1024
        (1024 - sa.periodContrib.toNat) ((sa.periodContrib.toNat + delta.toNat) % 1024) := by
      intro ha
      rw [← hx, ha, if_pos rfl, if_pos (by decide), hacc]
    have hle := contribution_le (kernelDecay_superadditive _) (kernelDecay_full hpos)
      (Nat.sub_le 1024 sa.periodContrib.toNat |>.trans (by norm_num))
      (Nat.mod_lt (sa.periodContrib.toNat + delta.toNat) (by norm_num : 1024 > 0)).le
    exact ⟨periods.toNat, contrib.toNat, hpos, hfilled, hcontrib,
      accrued_decay_accrue h (fun ha => (hcontrib ha).trans_le hle) hb hc _⟩
  · left
    have hwithin : sa.periodContrib.toNat + delta.toNat < 1024 := by
      rw [not_not, ← UInt64.toNat_inj, h0] at hp
      omega
    have hcontrib : delta.toUInt32.toNat = delta.toNat := by
      rw [UInt64.toNat_toUInt32]
      omega
    have hle : a → delta.toUInt32.toNat ≤ 47742 := fun _ => by omega
    have hacc := accrued_accrue { sa with periodContrib := delta + sa.periodContrib } hl hr hu
      hle hb hc
    rw [hcontrib] at hacc
    rw [if_neg hp]
    exact ⟨hwithin, hsum, hacc.load, hacc.runnable, hacc.util⟩

theorem bounded_accumulateSum {sa : SchedAvg} (h : PeltBounded sa) {delta : UInt64}
    (hdelta : delta.toNat < 2 ^ 54) {a b c : Bool} (hb : b → a) (hc : c → a) :
    PeltBounded (accumulateSum delta sa (if a then 1 else 0) (if b then 1 else 0)
      (if c then 1 else 0)).1 := by
  have hused := h.contrib
  rcases accumulateSum_cases h hdelta hb hc with ⟨hlt, hnow, hacc⟩ | ⟨p, x, hp, hnow, hx, hacc⟩
  · refine ⟨by omega, ?_, ?_, ?_⟩
    · rw [hnow, hacc.load]
      exact room_within h.load _
    · rw [hnow, hacc.runnable]
      exact room_within h.runnable _
    · rw [hnow, hacc.util]
      exact room_within h.util _
  · refine ⟨by omega, ?_, ?_, ?_⟩
    · rw [hnow, hacc.load]
      exact room_across goodScale_one hp hused h.load hx
    · rw [hnow, hacc.runnable]
      exact room_across goodScale_capacity hp hused h.runnable fun ho => hx (hb ho)
    · rw [hnow, hacc.util]
      exact room_across goodScale_capacity hp hused h.util fun ho => hx (hc ho)

/-- The running time is part of the runnable time, which weighs as the load. -/
structure PeltOrdered (sa : SchedAvg) : Prop where
  load : 1024 * sa.loadSum.toNat ≤ sa.runnableSum.toNat
  util : sa.utilSum.toNat ≤ sa.runnableSum.toNat

theorem ordered_of_accrued {D : ℕ → ℕ} (hsup : ∀ a b, D a + D b ≤ D (a + b)) {sa sa' : SchedAvg}
    (h : PeltOrdered sa) {x : ℕ} {a b c : Bool} (hab : a = b) (hc : c → b)
    (hacc : Accrued D x a b c sa sa') : PeltOrdered sa' := by
  have hmono := mono_of_superadditive hsup
  have hload := (mul_le_of_superadditive hsup 1024 sa.loadSum.toNat).trans (hmono h.load)
  have hutil := hmono h.util
  refine ⟨?_, ?_⟩
  · rw [hacc.load, hacc.runnable, hab]
    split_ifs <;> omega
  · rw [hacc.util, hacc.runnable]
    split_ifs with h1 h2 h2
    · omega
    · exact absurd (hc h1) h2
    · omega
    · omega

structure PeltSums (sa : SchedAvg) : Prop where
  bounded : PeltBounded sa
  ordered : PeltOrdered sa

theorem sums_accumulateSum {sa : SchedAvg} (h : PeltSums sa) {delta : UInt64}
    (hdelta : delta.toNat < 2 ^ 54) {a c : Bool} (hc : c → a) :
    PeltSums (accumulateSum delta sa (if a then 1 else 0) (if a then 1 else 0)
      (if c then 1 else 0)).1 := by
  refine ⟨bounded_accumulateSum h.bounded hdelta id hc, ?_⟩
  rcases accumulateSum_cases h.bounded hdelta id hc with ⟨-, -, hacc⟩ | ⟨p, x, -, -, -, hacc⟩
  · exact ordered_of_accrued (fun _ _ => le_rfl) h.ordered rfl hc hacc
  · exact ordered_of_accrued (kernelDecay_superadditive p) h.ordered rfl hc hacc

theorem PeltSums.setTime {sa : SchedAvg} (h : PeltSums sa) (now : UInt64) :
    PeltSums { sa with lastUpdateTime := now } := by
  obtain ⟨⟨h1, h2, h3, h4⟩, h5, h6⟩ := h
  exact ⟨⟨h1, h2, h3, h4⟩, h5, h6⟩

/-- Time that goes backwards, or that has not advanced by a unit, leaves the sums. -/
theorem sums_updateLoadSum {sa : SchedAvg} (h : PeltSums sa) (now : UInt64) {a : Bool}
    {runnable : UInt64} (hrunnable : a → runnable = 1) (c : Bool) :
    PeltSums (updateLoadSum now sa (if a then 1 else 0) runnable (if c then 1 else 0)).1 := by
  unfold updateLoadSum
  by_cases hback : (now - sa.lastUpdateTime).toNat ≥ 2 ^ 63
  · simp only [if_pos hback]
    exact h.setTime now
  · simp only [if_neg hback]
    by_cases hunit : (now - sa.lastUpdateTime) >>> 10 = 0
    · rw [if_pos hunit]
      exact h
    · have hdelta : ((now - sa.lastUpdateTime) >>> 10).toNat < 2 ^ 54 := by
        have hten : (10 : UInt64).toNat % 64 = 10 := rfl
        rw [UInt64.toNat_shiftRight, hten, Nat.shiftRight_eq_div_pow]
        omega
      have hsa := h.setTime (sa.lastUpdateTime + ((now - sa.lastUpdateTime) >>> 10) <<< 10)
      rw [if_neg hunit]
      cases a with
      | false => exact sums_accumulateSum (a := false) (c := false) hsa hdelta id
      | true =>
        rw [hrunnable rfl]
        exact sums_accumulateSum (a := true) (c := c) hsa hdelta fun _ => rfl

theorem apply_cases (getDivider : SchedAvg → UInt32) (w : UInt64) (sa : SchedAvg) (u : PeltUpdate) :
    ∃ now runnable, ∃ a c : Bool, (a → runnable = 1) ∧
      let sa' := (updateLoadSum now sa (if a then 1 else 0) runnable (if c then 1 else 0)).1
      u.apply getDivider w sa = Kernel.updateLoadAvg getDivider sa' w ∨
        u.apply getDivider w sa = sa' := by
  cases u with
  | se now onRq isCurr =>
    refine ⟨now, 1, onRq, isCurr, fun _ => rfl, ?_⟩
    simp only [PeltUpdate.apply, updateLoadAvgSe]
    generalize updateLoadSum now sa (if onRq then 1 else 0) 1 (if isCurr then 1 else 0) = p
    split_ifs
    · exact Or.inl rfl
    · exact Or.inr rfl
  | blockedSe now =>
    refine ⟨now, 0, false, false, by simp, ?_⟩
    simp only [PeltUpdate.apply, updateLoadAvgBlockedSe, Bool.false_eq_true, if_false]
    generalize updateLoadSum now sa 0 0 0 = p
    split_ifs
    · exact Or.inl rfl
    · exact Or.inr rfl

theorem PeltSums.setAvgs {sa : SchedAvg} (h : PeltSums sa) (getDivider : SchedAvg → UInt32)
    (w : UInt64) : PeltSums (Kernel.updateLoadAvg getDivider sa w) := by
  obtain ⟨⟨h1, h2, h3, h4⟩, h5, h6⟩ := h
  exact ⟨⟨h1, h2, h3, h4⟩, h5, h6⟩

theorem sums_apply {sa : SchedAvg} (h : PeltSums sa) (getDivider : SchedAvg → UInt32) (w : UInt64)
    (u : PeltUpdate) : PeltSums (u.apply getDivider w sa) := by
  obtain ⟨now, runnable, a, c, hrunnable, he | he⟩ := apply_cases getDivider w sa u
  · rw [he]
    exact (sums_updateLoadSum h now hrunnable c).setAvgs getDivider w
  · rw [he]
    exact sums_updateLoadSum h now hrunnable c

theorem sums_zero (now : UInt64) : PeltSums (SchedAvg.zero now) :=
  ⟨⟨by norm_num [SchedAvg.zero], Nat.zero_le _, Nat.zero_le _, Nat.zero_le _⟩, Nat.zero_le _,
    Nat.zero_le _⟩

/-- The comment of `___update_load_avg` is right in integers: with any divider, clock
and history, the sum of an entity is at most `LOAD_AVG_MAX - 1024 + period_contrib`. The
other two, scaled by 1024, may exceed that by a little in truncation, and stay in order. -/
theorem pelt_sums (getDivider : SchedAvg → UInt32) (w start : UInt64) (updates : List PeltUpdate) :
    let sa := run (PeltUpdate.apply getDivider w) (SchedAvg.zero start) updates
    let max := LOAD_AVG_MAX.toNat - 1024 + sa.periodContrib.toNat
    sa.periodContrib.toNat < 1024 ∧ sa.loadSum.toNat ≤ max ∧
      1024 * sa.loadSum.toNat ≤ sa.runnableSum.toNat ∧
      sa.utilSum.toNat ≤ sa.runnableSum.toNat ∧ sa.runnableSum.toNat ≤ 1024 * max + 47883 := by
  intro sa max
  have h : PeltSums sa := run_invariant (sums_zero start) (fun s u _ hs => sums_apply hs _ w u)
    (Q := fun _ _ => True) (fun _ _ _ _ => trivial)
  have hmax : max = 47742 - 1024 + sa.periodContrib.toNat := rfl
  have hload := h.bounded.load
  have hrunnable := h.bounded.runnable
  unfold Room at hload hrunnable
  exact ⟨h.bounded.contrib, by omega, h.ordered.load, h.ordered.util, by omega⟩

/-- The divider of the stub is no bound: a long wait gives 46 times the weight. -/
example : (run (PeltUpdate.apply peltDividerStub 1) (SchedAvg.zero 0)
    [.se 1000000000 true false]).loadAvg = 46 := by decide

/-- The averages with the divider of the position in the period. -/
structure PeltAvgs (w : UInt64) (sa : SchedAvg) : Prop where
  load : sa.loadAvg.toNat ≤ w.toNat
  util : sa.utilAvg.toNat ≤ sa.runnableAvg.toNat
  runnable : sa.runnableAvg.toNat ≤ 1025

theorem toNat_getPeltDivider {sa : SchedAvg} (h : sa.periodContrib.toNat < 1024) :
    (getPeltDivider sa).toUInt64.toNat = 47742 - 1024 + sa.periodContrib.toNat := by
  have hmin : PELT_MIN_DIVIDER.toNat = 47742 - 1024 := rfl
  rw [getPeltDivider, UInt32.toNat_toUInt64, UInt64.toNat_toUInt32,
    Word.toNat_add_of_lt (by omega), hmin]
  omega

theorem avgs_updateLoadAvg {sa : SchedAvg} (h : PeltSums sa) {w : UInt64} (hw : w.toNat < 2 ^ 48) :
    PeltAvgs w (Kernel.updateLoadAvg getPeltDivider sa w) := by
  have hdivider := toNat_getPeltDivider h.bounded.contrib
  have hcontrib := h.bounded.contrib
  have hload := h.bounded.load
  have hrunnable := h.bounded.runnable
  unfold Room at hload hrunnable
  rw [Nat.one_mul, Nat.add_zero, ← hdivider] at hload
  rw [← hdivider] at hrunnable
  have hprod : w.toNat * sa.loadSum.toNat < 2 ^ 64 :=
    calc w.toNat * sa.loadSum.toNat ≤ w.toNat * 2 ^ 16 := Nat.mul_le_mul_left _ (by omega)
      _ < 2 ^ 64 := by omega
  refine ⟨?_, ?_, ?_⟩
  · simp only [Kernel.updateLoadAvg]
    rw [UInt64.toNat_div, Word.toNat_mul_of_lt hprod]
    exact Nat.div_le_of_le_mul (by rw [Nat.mul_comm]; exact Nat.mul_le_mul_right _ hload)
  · simp only [Kernel.updateLoadAvg]
    rw [UInt64.toNat_div, UInt64.toNat_div]
    exact Nat.div_le_div_right h.ordered.util
  · simp only [Kernel.updateLoadAvg]
    rw [UInt64.toNat_div]
    refine Nat.le_of_lt_succ (Nat.div_lt_of_lt_mul ?_)
    omega

theorem avgs_updateLoadSum {sa : SchedAvg} {w : UInt64} (h : PeltAvgs w sa)
    (now load runnable : UInt64) (running : ℤ) :
    PeltAvgs w (updateLoadSum now sa load runnable running).1 := by
  obtain ⟨h1, h2, h3⟩ := h
  unfold updateLoadSum accumulateSum
  dsimp only
  split_ifs <;> exact ⟨h1, h2, h3⟩

theorem avgs_apply {sa : SchedAvg} (hsums : PeltSums sa) {w : UInt64} (hw : w.toNat < 2 ^ 48)
    (h : PeltAvgs w sa) (u : PeltUpdate) : PeltAvgs w (u.apply getPeltDivider w sa) := by
  obtain ⟨now, runnable, a, c, hrunnable, he | he⟩ := apply_cases getPeltDivider w sa u
  · rw [he]
    exact avgs_updateLoadAvg (sums_updateLoadSum hsums now hrunnable c) hw
  · rw [he]
    exact avgs_updateLoadSum h _ _ _ _

/-- With the divider of `pelt.h` the load of an entity is at most its weight, and its
utilisation at most its runnable average, which is at most one more than the capacity. -/
theorem pelt_avgs {w : UInt64} (hw : w.toNat < 2 ^ 48) (start : UInt64)
    (updates : List PeltUpdate) :
    let sa := run (PeltUpdate.apply getPeltDivider w) (SchedAvg.zero start) updates
    sa.loadAvg.toNat ≤ w.toNat ∧ sa.utilAvg.toNat ≤ sa.runnableAvg.toNat ∧
      sa.runnableAvg.toNat ≤ 2 ^ SCHED_CAPACITY_SHIFT + 1 := by
  intro sa
  have h : PeltSums sa ∧ PeltAvgs w sa := run_invariant
    (I := fun s => PeltSums s ∧ PeltAvgs w s) (Q := fun _ _ => True)
    ⟨sums_zero start, Nat.zero_le _, Nat.zero_le _, Nat.zero_le _⟩
    (fun s u _ hs => ⟨sums_apply hs.1 _ w u, avgs_apply hs.1 hw hs.2 u⟩)
    (fun _ _ _ _ => trivial)
  exact ⟨h.2.load, h.2.util, h.2.runnable⟩

theorem pelt_avgs_blocked : (1024 : UInt64).toNat < 2 ^ 48 ∧
    let sa := run (PeltUpdate.apply getPeltDivider 1024) (SchedAvg.zero 0)
      [.se 5120000 true true, .se 5222400 true false, .blockedSe 9216000]
    (sa.loadAvg, sa.runnableAvg, sa.utilAvg) = (96, 96, 94) ∧
      sa.loadAvg.toNat ≤ (1024 : UInt64).toNat ∧ sa.utilAvg.toNat ≤ sa.runnableAvg.toNat ∧
      sa.runnableAvg.toNat ≤ 2 ^ SCHED_CAPACITY_SHIFT + 1 :=
  ⟨by decide, by decide, pelt_avgs (by decide) 0 _⟩

end ApexCfs
