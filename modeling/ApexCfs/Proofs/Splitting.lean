import ApexCfs.Lib.Truncated
import ApexCfs.Proofs.Periods

/-! The BSA decay of an interval against the decays of its two parts. Below a
half-life the loop and the shifts commute up to rounding; where the rests of the
parts add up to a half-life, one side halves the load and the other multiplies it
32 times by 31/32, which is hardly more than a third. -/

namespace ApexCfs

open HalfLife Truncated

theorem bsaPeriod_mono : Monotone bsaPeriod := by
  intro a b hab
  unfold bsaPeriod
  omega

theorem bsaPeriod_le (l : ℕ) : bsaPeriod l ≤ l := Nat.sub_le _ _

theorem bsaPeriod_add_le (a d : ℕ) : bsaPeriod (a + d) ≤ bsaPeriod a + d := by
  unfold bsaPeriod
  omega

theorem bsaPeriod_subadditive (a d : ℕ) : bsaPeriod (a + d) ≤ bsaPeriod a + bsaPeriod d := by
  unfold bsaPeriod
  omega

theorem bsaRest_mono (r : ℕ) : Monotone (bsaRest r) := bsaPeriod_mono.iterate r

theorem bsaRest_le (r l : ℕ) : bsaRest r l ≤ l :=
  Function.iterate_le_id_of_le_id (f := bsaPeriod) bsaPeriod_le r l

/-- A shift before the round leaves at most one more than a shift after it, and
never less. -/
theorem bsaPeriod_shift (c x : ℕ) :
    bsaPeriod x / 2 ^ c ≤ bsaPeriod (x / 2 ^ c) ∧
      bsaPeriod (x / 2 ^ c) ≤ bsaPeriod x / 2 ^ c + 1 := by
  have hpos : 0 < 2 ^ c := Nat.two_pow_pos c
  generalize 2 ^ c = p at hpos
  -- one round is 31/32, rounded up
  have hround : ∀ l, 31 * l ≤ 32 * bsaPeriod l ∧ 32 * bsaPeriod l ≤ 31 * l + 31 := by
    intro l
    unfold bsaPeriod
    omega
  obtain ⟨hx1, hx2⟩ := hround x
  obtain ⟨hk1, hk2⟩ := hround (x / p)
  have hk := Nat.div_add_mod x p
  have hr := Nat.mod_lt x hpos
  have hu1 := Nat.div_mul_le_self (bsaPeriod x) p
  have hu2 := Nat.lt_mul_div_succ (bsaPeriod x) hpos
  generalize bsaPeriod x / p = u at hu1 hu2 ⊢
  refine ⟨?_, ?_⟩
  · have hle : p * (32 * u) ≤ p * (31 * (x / p) + 31) := by
      calc p * (32 * u) = 32 * (u * p) := by ring
        _ ≤ 31 * x + 31 := by omega
        _ ≤ 31 * (p * (x / p)) + 31 * p := by omega
        _ = p * (31 * (x / p) + 31) := by ring
    have := Nat.le_of_mul_le_mul_left hle hpos
    omega
  · have hlt : p * (31 * (x / p)) < p * (32 * (u + 1)) := by
      calc p * (31 * (x / p)) = 31 * (p * (x / p)) := by ring
        _ ≤ 32 * bsaPeriod x := by omega
        _ < 32 * (p * (u + 1)) := by omega
        _ = p * (32 * (u + 1)) := by ring
    have := Nat.lt_of_mul_lt_mul_left hlt
    omega

theorem split_bounds (la lb c x : ℕ) :
    bsaRest lb (bsaRest la x / 2 ^ c) ≤ bsaRest (lb + la) (x / 2 ^ c) ∧
      bsaRest (lb + la) (x / 2 ^ c) ≤ bsaRest lb (bsaRest la x / 2 ^ c) + la := by
  have hadd : bsaRest (lb + la) (x / 2 ^ c) = bsaRest lb (bsaRest la (x / 2 ^ c)) :=
    Function.iterate_add_apply _ _ _ _
  rw [hadd]
  refine ⟨?_, ?_⟩
  · have hcomp := bsaPeriod_mono.le_iterate_comp_of_le (h := fun x => x / 2 ^ c)
      (fun x => (bsaPeriod_shift c x).1) la x
    exact bsaRest_mono lb hcomp
  · exact iterate_le_add bsaPeriod_mono bsaPeriod_add_le
      (iterate_commute bsaPeriod_mono bsaPeriod_add_le (g := fun x => x / 2 ^ c)
        (fun x => (bsaPeriod_shift c x).2) la x) lb

/-- `r` rounds are `r` factors 31/32, up to a rounding of less than a whole one's worth. -/
theorem bsaRest_power (r l : ℕ) :
    (31 / 32 : ℚ) ^ r * l ≤ bsaRest r l ∧ (bsaRest r l : ℚ) ≤ (31 / 32) ^ r * l + 31 := by
  have hround : ∀ l : ℕ, (31 / 32 : ℚ) * l ≤ bsaPeriod l ∧
      (bsaPeriod l : ℚ) ≤ 31 / 32 * l + 31 / 32 := by
    intro l
    have hle : 31 * l ≤ 32 * bsaPeriod l := by unfold bsaPeriod; omega
    have hge : 32 * bsaPeriod l ≤ 31 * l + 31 := by unfold bsaPeriod; omega
    have hle' : (31 : ℚ) * l ≤ 32 * bsaPeriod l := by exact_mod_cast hle
    have hge' : (32 : ℚ) * bsaPeriod l ≤ 31 * l + 31 := by exact_mod_cast hge
    refine ⟨?_, ?_⟩ <;> linarith
  refine ⟨?_, ?_⟩
  · have h := iterate_ge (f := bsaPeriod) (y := 31 / 32) (c := 0) (by norm_num) (by norm_num) le_rfl
      (fun l => by linarith [(hround l).1]) r l
    rwa [zero_div, sub_zero] at h
  · have h := iterate_le (f := bsaPeriod) (y := 31 / 32) (c := 31 / 32) (by norm_num) (by norm_num) (by norm_num)
      (fun l => (hround l).2) r l
    norm_num at h ⊢
    exact h

/-- A half-life of rounds leaves hardly more than a third of the load. -/
theorem bsaRest_half (y : ℕ) :
    bsaRest 32 y ≤ y / 2 + 32 ∧ y / 2 ≤ bsaRest 32 y + 138 * y / 1000 := by
  obtain ⟨hlow, hhigh⟩ := bsaRest_power 32 y
  have hy : (0 : ℚ) ≤ y := by positivity
  refine ⟨?_, ?_⟩
  · have h : (2 * bsaRest 32 y : ℚ) ≤ y + 62 := by
      have := mul_le_mul_of_nonneg_right (by norm_num : (31 / 32 : ℚ) ^ 32 ≤ 1 / 2) hy
      linarith
    have hnat : 2 * bsaRest 32 y ≤ y + 62 := by exact_mod_cast h
    omega
  · have h : (362 * y : ℚ) ≤ 1000 * bsaRest 32 y := by
      have := mul_le_mul_of_nonneg_right (by norm_num : (362 / 1000 : ℚ) ≤ (31 / 32) ^ 32) hy
      linarith
    have hnat : 362 * y ≤ 1000 * bsaRest 32 y := by exact_mod_cast h
    omega

theorem carry_bounds (q y : ℕ) :
    bsaRest (q + 32) y ≤ bsaRest q (y / 2) + 32 ∧
      bsaRest q (y / 2) ≤ bsaRest (q + 32) y + bsaRest q (138 * y / 1000) := by
  obtain ⟨hlow, hhigh⟩ := bsaRest_half y
  have hadd : bsaRest (q + 32) y = bsaRest q (bsaRest 32 y) := Function.iterate_add_apply _ _ _ _
  rw [hadd]
  refine ⟨?_, ?_⟩
  · exact iterate_le_add bsaPeriod_mono bsaPeriod_add_le hlow q
  · exact (bsaRest_mono q hhigh).trans
      (iterate_subadditive bsaPeriod_mono bsaPeriod_subadditive q _ _)

/-- From 51 half-lives and 11 periods on so little is left that the difference is
within the rounding. -/
theorem late_difference {c q y : ℕ} (hn : 1643 ≤ 32 * (c + 1) + q) (hq : q < 32)
    (hy : y * 2 ^ c < 2 ^ 64) : bsaRest q (138 * y / 1000) ≤ 1600 := by
  rcases Nat.lt_or_ge 50 c with hc | hc
  · have hpow : y * 2 ^ 51 ≤ y * 2 ^ c :=
      Nat.mul_le_mul_left y (Nat.pow_le_pow_right (by norm_num) hc)
    have hle := bsaRest_le q (138 * y / 1000)
    omega
  · obtain rfl : c = 50 := by omega
    have hq11 : bsaRest q (138 * y / 1000) ≤ bsaRest 11 (138 * y / 1000) :=
      Function.antitone_iterate_of_le_id (f := bsaPeriod) bsaPeriod_le (by omega) _
    have hmono : bsaRest 11 (138 * y / 1000) ≤ bsaRest 11 2260 := bsaRest_mono 11 (by omega)
    have hval : bsaRest 11 2260 = 1598 := by decide
    omega

/-- The decay of the whole interval is that of its parts up to one for every
period, and decaying for longer leaves no more up to the same. -/
def SplitsEvenly (load : UInt64) (a b : ℕ) : Prop :=
  |((bsaDecayLoad (bsaDecayLoad load a) b).toNat : ℤ) - (bsaDecayLoad load (a + b)).toNat| ≤
      (a + b : ℕ) ∧
    (bsaDecayLoad load (a + b)).toNat ≤ (bsaDecayLoad load a).toNat + (a + b)

theorem splitsEvenly_of_close {load : UInt64} {a b f g : ℕ}
    (hf : (bsaDecayLoad (bsaDecayLoad load a) b).toNat = f)
    (hg : (bsaDecayLoad load (a + b)).toNat = g) (hfg : f ≤ g + (a + b)) (hgf : g ≤ f + (a + b)) :
    SplitsEvenly load a b := by
  have hle : f ≤ (bsaDecayLoad load a).toNat := by
    rw [← hf, toNat_bsaDecayLoad, bsaDecay]
    generalize (bsaDecayLoad load a).toNat = l
    unfold HalfLife.decay
    split_ifs
    · exact (bsaRest_le _ _).trans (Nat.div_le_self _ _)
    · exact Nat.zero_le _
  rw [SplitsEvenly, hf, hg, abs_le]
  push_cast
  omega

theorem toNat_split (load : UInt64) {a b : ℕ} (hn : a + b < 2016) :
    (bsaDecayLoad (bsaDecayLoad load a) b).toNat =
        bsaRest (b % 32) (bsaRest (a % 32) (load.toNat / 2 ^ (a / 32)) / 2 ^ (b / 32)) ∧
      (bsaDecayLoad load (a + b)).toNat =
        bsaRest ((a + b) % 32) (load.toNat / 2 ^ ((a + b) / 32)) := by
  rw [toNat_bsaDecayLoad, toNat_bsaDecayLoad, toNat_bsaDecayLoad, bsaDecay, decay_of_lt (by omega),
    decay_of_lt (by omega), decay_of_lt hn]
  exact ⟨rfl, rfl⟩

theorem splitsEvenly_of_no_carry (load : UInt64) {a b : ℕ} (hn : a + b < 2016)
    (h : a % 32 + b % 32 < 32) : SplitsEvenly load a b := by
  obtain ⟨hf, hg⟩ := toNat_split load hn
  obtain ⟨hle, hge⟩ := split_bounds (a % 32) (b % 32) (b / 32) (load.toNat / 2 ^ (a / 32))
  have hmod : (a + b) % 32 = b % 32 + a % 32 := by omega
  have hdiv : (a + b) / 32 = a / 32 + b / 32 := by omega
  rw [hmod, hdiv, pow_add, ← Nat.div_div_eq_div_mul] at hg
  exact splitsEvenly_of_close hf hg (by omega) (by omega)

theorem carry_split (load : UInt64) {a b : ℕ} (hn : a + b < 2016) (h : 32 ≤ a % 32 + b % 32) :
    (bsaDecayLoad (bsaDecayLoad load a) b).toNat ≤ (bsaDecayLoad load (a + b)).toNat + 32 ∧
      (bsaDecayLoad load (a + b)).toNat ≤ (bsaDecayLoad (bsaDecayLoad load a) b).toNat + 31 +
        bsaRest ((a + b) % 32) (138 * (load.toNat / 2 ^ (a / 32 + b / 32)) / 1000) := by
  obtain ⟨hf, hg⟩ := toNat_split load hn
  obtain ⟨hle, hge⟩ := split_bounds (a % 32) (b % 32) (b / 32) (load.toNat / 2 ^ (a / 32))
  have hrounds : b % 32 + a % 32 = (a + b) % 32 + 32 := by omega
  have hdiv : (a + b) / 32 = a / 32 + b / 32 + 1 := by omega
  rw [hdiv, pow_succ, ← Nat.div_div_eq_div_mul] at hg
  rw [hrounds, Nat.div_div_eq_div_mul, ← pow_add] at hle hge
  obtain ⟨hlow, hhigh⟩ := carry_bounds ((a + b) % 32) (load.toNat / 2 ^ (a / 32 + b / 32))
  rw [hf, hg]
  omega

theorem splitsEvenly_of_late (load : UInt64) {a b : ℕ} (hn : a + b < 2016)
    (h : 32 ≤ a % 32 + b % 32) (hlate : 1643 ≤ a + b) : SplitsEvenly load a b := by
  obtain ⟨hfg, hgf⟩ := carry_split load hn h
  have hlarge := (Nat.div_mul_le_self load.toNat (2 ^ (a / 32 + b / 32))).trans_lt
    (Word.toNat_lt load)
  have hdiff := late_difference (c := a / 32 + b / 32) (q := (a + b) % 32) (by omega) (by omega) hlarge
  exact splitsEvenly_of_close rfl rfl (by omega) (by omega)

theorem largest_load_shift {c : ℕ} (hc : c ≤ 64) : (2 ^ 64 - 1) / 2 ^ c = 2 ^ (64 - c) - 1 := by
  have hpow : 2 ^ c * 2 ^ (64 - c) = 2 ^ 64 := by rw [← pow_add, Nat.add_sub_cancel' hc]
  have h := Nat.mul_sub_div 0 (2 ^ c) (2 ^ (64 - c)) (by positivity)
  rwa [hpow, Nat.zero_div, Nat.zero_add] at h

/-- Half of a load after `q` rounds against all of it after 32 more: twice the 32nd power
of 31/32 is less than 0.7242. -/
theorem halving_gap (q : ℕ) {P : ℕ} (hP : 1 ≤ P) :
    ((31 / 32) ^ q * (0.2758 * P - 1) : ℚ) + bsaRest (q + 32) (P * 2 - 1) ≤
      bsaRest q (P - 1) + 31 := by
  have hrounds := (bsaRest_power (q + 32) (P * 2 - 1)).2
  have hhalf := (bsaRest_power q (P - 1)).1
  push_cast [Nat.cast_sub hP, Nat.cast_sub (show 1 ≤ P * 2 by omega)] at hrounds hhalf
  have hP' : (1 : ℚ) ≤ P := by exact_mod_cast hP
  have hpow : ((31 / 32) ^ 32 * (P * 2 - 1) : ℚ) ≤ 0.3621 * (P * 2) :=
    mul_le_mul (by norm_num) (by linarith) (by linarith) (by norm_num)
  have hmul := mul_le_mul_of_nonneg_left hpow (by positivity : (0 : ℚ) ≤ (31 / 32) ^ q)
  rw [pow_add, mul_assoc] at hrounds
  linarith

/-- At the largest load, halving and 32 more rounds differ by more than the rounding
for every interval with a carry before that. -/
theorem largest_load_differs {c q : ℕ} (hc : c < 51) (hq : q < 31) (hn : 32 * (c + 1) + q < 1642) :
    32 * (c + 1) + q + bsaRest (q + 32) ((2 ^ 64 - 1) / 2 ^ c) <
      bsaRest q ((2 ^ 64 - 1) / 2 ^ (c + 1)) := by
  rw [largest_load_shift (by omega), largest_load_shift (by omega),
    show 64 - c = 63 - c + 1 by omega, show 64 - (c + 1) = 63 - c by omega, pow_succ]
  have hgap := halving_gap q (Nat.one_le_two_pow : 1 ≤ 2 ^ (63 - c))
  have hlarge : ∀ r k : ℕ, q ≤ r → 2 ≤ k → k ≤ 63 - c → (32 * (c + 1) + q + 31 : ℚ) <
      (31 / 32) ^ r * (0.2758 * 2 ^ k - 1) →
      32 * (c + 1) + q + bsaRest (q + 32) (2 ^ (63 - c) * 2 - 1) <
        bsaRest q (2 ^ (63 - c) - 1) := by
    intro r k hqr hk2 hk hlt
    have hload : (0.2758 * 2 ^ k - 1 : ℚ) ≤ 0.2758 * (2 ^ (63 - c) : ℕ) - 1 := by
      push_cast
      gcongr
      norm_num
    have hpow : ((31 / 32) ^ r : ℚ) ≤ (31 / 32) ^ q :=
      pow_le_pow_of_le_one (by norm_num) (by norm_num) hqr
    have hfour : (2 ^ 2 : ℚ) ≤ 2 ^ k := pow_le_pow_right₀ (by norm_num) hk2
    have hpos : (0 : ℚ) ≤ 0.2758 * 2 ^ k - 1 := by linarith
    have hmul := mul_le_mul hpow hload hpos (by positivity)
    have hrat : (32 * (c + 1) + q + bsaRest (q + 32) (2 ^ (63 - c) * 2 - 1) : ℚ) <
        bsaRest q (2 ^ (63 - c) - 1) := by linarith
    exact_mod_cast hrat
  rcases Nat.lt_or_ge c 50 with h | h
  · have hn' : (32 * (c + 1) + q : ℚ) ≤ 1630 := by exact_mod_cast (by omega : 32 * (c + 1) + q ≤ 1630)
    refine hlarge 30 14 (by omega) (by norm_num) (by omega) ?_
    norm_num
    linarith
  · have hn' : (32 * (c + 1) + q : ℚ) ≤ 1641 := by exact_mod_cast (by omega : 32 * (c + 1) + q ≤ 1641)
    refine hlarge 9 13 (by omega) (by norm_num) (by omega) ?_
    norm_num
    linarith

theorem not_splitsEvenly_of_gap {load : UInt64} {a b f g : ℕ}
    (hf : (bsaDecayLoad (bsaDecayLoad load a) b).toNat = f)
    (hg : (bsaDecayLoad load (a + b)).toNat = g) (h : a + b + f < g) : ¬ SplitsEvenly load a b := by
  rw [SplitsEvenly, hf, hg, abs_le]
  push_cast
  omega

theorem not_splitsEvenly {a b : ℕ} (h : 32 ≤ a % 32 + b % 32) (hn : a + b < 1642) :
    ¬ SplitsEvenly 0xffffffffffffffff a b := by
  obtain ⟨hf, hg⟩ := toNat_split 0xffffffffffffffff (a := a) (b := b) (by omega)
  obtain ⟨hle, -⟩ := split_bounds (a % 32) (b % 32) (b / 32)
    ((0xffffffffffffffff : UInt64).toNat / 2 ^ (a / 32))
  have hload : (0xffffffffffffffff : UInt64).toNat = 2 ^ 64 - 1 := by decide
  have hdiff := largest_load_differs (c := a / 32 + b / 32) (q := (a + b) % 32) (by omega) (by omega)
    (by omega)
  have hrounds : b % 32 + a % 32 = (a + b) % 32 + 32 := by omega
  have hdiv : (a + b) / 32 = a / 32 + b / 32 + 1 := by omega
  rw [hrounds, Nat.div_div_eq_div_mul, ← pow_add, hload] at hle
  rw [hload, hdiv] at hg
  exact not_splitsEvenly_of_gap hf hg (by rw [hload]; omega)

/-- The decay of 1642 periods, split after `32 * c + r` of them with a carry. -/
def lastSplit (c r x : ℕ) : ℕ := bsaRest (42 - r) (bsaRest r (x / 2 ^ c) / 2 ^ (50 - c))

/-- The splits of 1642 periods that one load still shows. -/
def LastShown (a : ℕ) : Prop :=
  a / 32 ≤ 46 ∧ 22 ≤ a % 32 ∨ a / 32 ≤ 47 ∧ 24 ≤ a % 32 ∨ a / 32 ≤ 48 ∧ 26 ≤ a % 32

theorem lastSplit_mono (c r : ℕ) : Monotone (lastSplit c r) := fun _ _ h =>
  bsaRest_mono _ (Nat.div_le_div_right (bsaRest_mono _ (Nat.div_le_div_right h)))

theorem lastSplit_le {c c' r r' : ℕ} (hc : c ≤ c') (hc' : c' ≤ 50) (hr : r' ≤ r) (hr' : r ≤ 42)
    (x : ℕ) : lastSplit c r x ≤ lastSplit c' r' x := by
  obtain ⟨e, rfl⟩ := Nat.exists_eq_add_of_le hc
  obtain ⟨d, rfl⟩ := Nat.exists_eq_add_of_le' hr
  have hshift : bsaRest (d + r') (x / 2 ^ c) / 2 ^ e ≤ bsaRest (d + r') (x / 2 ^ (c + e)) := by
    have hle := (split_bounds (d + r') 0 e (x / 2 ^ c)).1
    rwa [Nat.zero_add, Nat.div_div_eq_div_mul, ← pow_add] at hle
  have hrounds := (split_bounds d (42 - (d + r')) (50 - (c + e)) (bsaRest r' (x / 2 ^ (c + e)))).1
  calc lastSplit c (d + r') x
      = bsaRest (42 - (d + r')) (bsaRest (d + r') (x / 2 ^ c) / 2 ^ e / 2 ^ (50 - (c + e))) := by
        rw [lastSplit, Nat.div_div_eq_div_mul, ← pow_add, show e + (50 - (c + e)) = 50 - c by omega]
    _ ≤ bsaRest (42 - (d + r')) (bsaRest (d + r') (x / 2 ^ (c + e)) / 2 ^ (50 - (c + e))) :=
        bsaRest_mono _ (Nat.div_le_div_right hshift)
    _ ≤ lastSplit (c + e) r' x := by
        rw [show bsaRest (d + r') (x / 2 ^ (c + e)) = bsaRest d (bsaRest r' (x / 2 ^ (c + e)))
          from Function.iterate_add_apply _ _ _ _]
        rw [show 42 - (d + r') + d = 42 - r' by omega] at hrounds
        exact hrounds

theorem toNat_lastSplit (load : UInt64) {a b : ℕ} (hn : a + b = 1642) (h : 32 ≤ a % 32 + b % 32) :
    (bsaDecayLoad (bsaDecayLoad load a) b).toNat = lastSplit (a / 32) (a % 32) load.toNat ∧
      (bsaDecayLoad load (a + b)).toNat = bsaRest 10 (load.toNat / 2 ^ 51) := by
  obtain ⟨hf, hg⟩ := toNat_split load (show a + b < 2016 by omega)
  rw [show b % 32 = 42 - a % 32 by omega, show b / 32 = 50 - a / 32 by omega] at hf
  rw [show (a + b) % 32 = 10 by omega, show (a + b) / 32 = 51 by omega] at hg
  exact ⟨hf, hg⟩

theorem lastShown_differs : ∀ p ∈ [(46, 22), (47, 24), (48, 26)],
    lastSplit p.1 p.2 (8187 * 2 ^ 51) + 1642 < bsaRest 10 (8187 * 2 ^ 51 / 2 ^ 51) := by
  decide

theorem not_splitsEvenly_last {a b : ℕ} (hn : a + b = 1642) (h : 32 ≤ a % 32 + b % 32)
    (hshown : LastShown a) : ¬ SplitsEvenly 0xffd8000000000000 a b := by
  obtain ⟨hf, hg⟩ := toNat_lastSplit 0xffd8000000000000 hn h
  have hload : (0xffd8000000000000 : UInt64).toNat = 8187 * 2 ^ 51 := by decide
  rw [hload] at hf hg
  obtain ⟨p, hp, hc, hc50, hr⟩ : ∃ p ∈ [(46, 22), (47, 24), (48, 26)],
      a / 32 ≤ p.1 ∧ p.1 ≤ 50 ∧ p.2 ≤ a % 32 := by
    rcases hshown with ⟨hc, hr⟩ | ⟨hc, hr⟩ | ⟨hc, hr⟩
    · exact ⟨(46, 22), by decide, hc, by norm_num, hr⟩
    · exact ⟨(47, 24), by decide, hc, by norm_num, hr⟩
    · exact ⟨(48, 26), by decide, hc, by norm_num, hr⟩
  have hle := lastSplit_le hc hc50 hr (by omega) (8187 * 2 ^ 51)
  have hdiff := lastShown_differs p hp
  exact not_splitsEvenly_of_gap hf hg (by omega)

/-- Between these loads, in multiples of `2 ^ 51`, the other splits have room. -/
def lastBreakpoints : List ℕ :=
  [2253, 3891, 5078, 5937, 6562, 7015, 7340, 7573, 7745, 7869, 7957, 8021, 8069, 8105, 8132,
    8150, 8164, 8176, 8179, 8181, 8183, 8185, 8187, 8189, 8190, 8192]

theorem lastSplit_chain : ∀ p ∈ [(0, 21), (47, 23), (48, 25), (49, 31)], p.2 ≤ 42 ∧
    (0 :: lastBreakpoints).IsChain fun lo hi =>
      bsaRest 10 (hi - 1) ≤ lastSplit p.1 p.2 (lo * 2 ^ 51) + 1642 := by
  decide

theorem splitsEvenly_last {a b : ℕ} (load : UInt64) (hn : a + b = 1642)
    (h : 32 ≤ a % 32 + b % 32) (hshown : ¬LastShown a) : SplitsEvenly load a b := by
  obtain ⟨hfg, -⟩ := carry_split load (by omega) h
  obtain ⟨hf, hg⟩ := toNat_lastSplit load hn h
  have hword := Word.toNat_lt load
  -- the split that has the least room among those with as many shifts and rounds
  obtain ⟨p, hp, hc, hr⟩ : ∃ p ∈ [(0, 21), (47, 23), (48, 25), (49, 31)],
      p.1 ≤ a / 32 ∧ a % 32 ≤ p.2 := by
    unfold LastShown at hshown
    rcases Nat.lt_or_ge (a % 32) 22 with hr | hr
    · exact ⟨(0, 21), by decide, Nat.zero_le _, Nat.le_of_lt_succ hr⟩
    rcases Nat.lt_or_ge (a % 32) 24 with hr | hr
    · exact ⟨(47, 23), by decide, by omega, Nat.le_of_lt_succ hr⟩
    rcases Nat.lt_or_ge (a % 32) 26 with hr | hr
    · exact ⟨(48, 25), by decide, by omega, Nat.le_of_lt_succ hr⟩
    · exact ⟨(49, 31), by decide, by omega, Nat.le_of_lt_succ (Nat.mod_lt a (by norm_num))⟩
  obtain ⟨hp42, hchain⟩ := lastSplit_chain p hp
  have hmono : Monotone fun m => lastSplit p.1 p.2 (m * 2 ^ 51) + 1642 := fun _ _ hle =>
    Nat.add_le_add_right (lastSplit_mono _ _ (Nat.mul_le_mul_right _ hle)) 1642
  have hroom : bsaRest 10 (load.toNat / 2 ^ 51) ≤
      lastSplit (a / 32) (a % 32) load.toNat + 1642 := by
    calc bsaRest 10 (load.toNat / 2 ^ 51)
        ≤ lastSplit p.1 p.2 (load.toNat / 2 ^ 51 * 2 ^ 51) + 1642 :=
          le_of_breakpoints hmono (bsaRest_mono 10) hchain (Nat.zero_le _)
            (show load.toNat / 2 ^ 51 < 8192 by omega)
      _ ≤ lastSplit p.1 p.2 load.toNat + 1642 :=
          Nat.add_le_add_right (lastSplit_mono _ _ (Nat.div_mul_le_self _ _)) 1642
      _ ≤ lastSplit (a / 32) (a % 32) load.toNat + 1642 :=
          Nat.add_le_add_right (lastSplit_le hc (by omega) hr hp42 _) 1642
  exact splitsEvenly_of_close rfl rfl (by omega) (by omega)

/-- A split never shows exactly if the rests of its parts do not carry, or if so many
periods leave little of any load; 1642 periods are the borderline. However an interval
is split, it never shows exactly if it is shorter than a half-life, leaves 31 periods
over, or is that long. -/
theorem splits_evenly_iff (a b : ℕ) (hn : a + b < 2016) :
    ((∀ load : UInt64, SplitsEvenly load a b) ↔
      a % 32 + b % 32 < 32 ∨ 1643 ≤ a + b ∨ a + b = 1642 ∧ ¬LastShown a) ∧
    ((∀ (load : UInt64) (c d : ℕ), c + d = a + b → SplitsEvenly load c d) ↔
      a + b < 32 ∨ (a + b) % 32 = 31 ∨ 1643 ≤ a + b) := by
  refine ⟨⟨fun hall => ?_, fun hcond load => ?_⟩, fun hall => ?_, fun hcond load c d hcd => ?_⟩
  · by_contra hcond
    simp only [not_or, not_and, not_not] at hcond
    obtain ⟨hcarry, hearly, hlast⟩ := hcond
    rcases Nat.lt_or_ge (a + b) 1642 with hlt | hge
    · exact not_splitsEvenly (by omega) hlt (hall _)
    · exact not_splitsEvenly_last (by omega) (by omega) (hlast (by omega)) (hall _)
  · rcases Nat.lt_or_ge (a % 32 + b % 32) 32 with h | h
    · exact splitsEvenly_of_no_carry load hn h
    · rcases hcond with hcond | hcond | ⟨hlen, hshown⟩
      · exact absurd hcond (by omega)
      · exact splitsEvenly_of_late load hn h hcond
      · exact splitsEvenly_last load hlen h hshown
  · by_contra hcond
    rcases Nat.lt_or_ge (a + b) 1642 with h | h
    · exact not_splitsEvenly (a := 31) (b := a + b - 31) (by omega) (by omega) (hall _ _ _ (by omega))
    · exact not_splitsEvenly_last (by norm_num) (by norm_num) (by unfold LastShown; omega)
        (hall _ 31 1611 (by omega))
  · rcases Nat.lt_or_ge (c % 32 + d % 32) 32 with h | h
    · exact splitsEvenly_of_no_carry load (by omega) h
    · exact splitsEvenly_of_late load (by omega) h (by omega)

theorem splits_evenly_iff_40 :
    ((∀ load : UInt64, SplitsEvenly load 20 20) ↔
      20 % 32 + 20 % 32 < 32 ∨ 1643 ≤ 20 + 20 ∨ 20 + 20 = 1642 ∧ ¬LastShown 20) ∧
    ((∀ (load : UInt64) (c d : ℕ), c + d = 20 + 20 → SplitsEvenly load c d) ↔
      20 + 20 < 32 ∨ (20 + 20) % 32 = 31 ∨ 1643 ≤ 20 + 20) :=
  splits_evenly_iff 20 20 (by norm_num)

/-- Twice 16 periods leave 17296 of 47742, and 32 periods leave 23871; so do more
periods than 31, which leave 17853. -/
theorem split_shows :
    ¬ (∀ (load : UInt64) (a b : ℕ), a + b < 2016 → SplitsEvenly load a b) := by
  intro h
  have hfail := (h 47742 16 16 (by norm_num)).1
  revert hfail
  decide +kernel

end ApexCfs
