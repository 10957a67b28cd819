import ApexCfs.Proofs.ApafDecay

/-! Whether a tighter APAF state decays more accurately. In most phases the curve of the
tighter state is nearer to the table, and then it is never off by more than one unit more.
In the others the looser curve happens to cross the table, and from some load on the
tighter state is the less accurate one. -/

namespace ApexCfs

open HalfLife Truncated

def apafDecayError (load : UInt64) (n : ℕ) (state : ℤ) : ℕ :=
  Nat.dist (apafDecayLoad load n state).toNat (exactDecayLoad load n).toNat

/-- From this load on, taken after the shift, MEDIUM can be better than TIGHT at `r` periods
by more than a unit; `2 ^ 64` where no load is that large. -/
def tightLimit : ℕ → ℕ
  | 3 => 7661
  | 16 => 4319
  | _ => 2 ^ 64

def mediumLimit : ℕ → ℕ
  | 1 => 886
  | 2 => 1863
  | 3 => 15910
  | 4 => 3181
  | 27 => 2037
  | 28 => 4387
  | 29 => 8385
  | 30 => 1829
  | 31 => 957
  | _ => 2 ^ 64

def restError (state : ℤ) (r load : ℕ) : ℕ := Nat.dist (apafRest state r load) (exactRest r load)

def factorGap (state : ℤ) (r : ℕ) : ℕ :=
  Nat.dist ((apafFraction state r).1 * 2 ^ 32) (decayFactor r * (apafFraction state r).2)

/-- The largest load at which a factor is off by no more than one unit. -/
def safeLoad (state : ℤ) (r : ℕ) : ℕ := (apafFraction state r).2 * 2 ^ 32 / factorGap state r

theorem abs_factor_sub (state : ℤ) {r : ℕ} (h0 : 0 < r) (h : r < 32) (load : ℕ) :
    |(load * ((apafFraction state r).1 / (apafFraction state r).2) -
        load * (decayFactor r / (2 ^ 32 : ℕ)) : ℚ)| =
      load * (factorGap state r / ((apafFraction state r).2 * (2 ^ 32 : ℕ))) := by
  obtain ⟨-, hden⟩ := apafFraction_range state h0 h
  rw [← mul_sub, abs_mul, Nat.abs_cast, abs_div_sub_div hden (by norm_num), factorGap]

theorem restError_le_of_nearer {s s' : ℤ} {r : ℕ} (h0 : 0 < r) (h : r < 32)
    (hnear : factorGap s r * (apafFraction s' r).2 ≤ factorGap s' r * (apafFraction s r).2)
    (load : ℕ) : restError s r load ≤ restError s' r load + 1 := by
  obtain ⟨-, hden⟩ := apafFraction_range s h0 h
  obtain ⟨-, hden'⟩ := apafFraction_range s' h0 h
  have hpos : (0 : ℚ) < (apafFraction s r).2 := by exact_mod_cast hden
  have hpos' : (0 : ℚ) < (apafFraction s' r).2 := by exact_mod_cast hden'
  simp only [restError, apafRest, if_neg h0.ne', exactRest]
  refine gap_le_of_nearer (isFloor_mul_div load _ hden) (isFloor_mul_div load _ (by norm_num))
    (isFloor_mul_div load _ hden') ?_
  rw [abs_factor_sub s h0 h, abs_factor_sub s' h0 h]
  refine mul_le_mul_of_nonneg_left ?_ (Nat.cast_nonneg load)
  rw [div_le_div_iff₀ (by positivity) (by positivity), ← mul_assoc, ← mul_assoc]
  refine mul_le_mul_of_nonneg_right ?_ (by positivity)
  exact_mod_cast hnear

theorem restError_le_one {state : ℤ} {r load : ℕ} (h0 : 0 < r) (h : r < 32)
    (hload : load ≤ safeLoad state r) : restError state r load ≤ 1 := by
  obtain ⟨-, hden⟩ := apafFraction_range state h0 h
  have hpos : (0 : ℚ) < (apafFraction state r).2 := by exact_mod_cast hden
  have hmul : load * factorGap state r ≤ (apafFraction state r).2 * 2 ^ 32 :=
    (Nat.mul_le_mul_right _ hload).trans (Nat.div_mul_le_self _ _)
  simp only [restError, apafRest, if_neg h0.ne', exactRest]
  refine gap_le_one (isFloor_mul_div load _ hden) (isFloor_mul_div load _ (by norm_num)) ?_
  rw [abs_factor_sub state h0 h, ← mul_div_assoc, div_le_one (by positivity)]
  exact_mod_cast hmul

/-- What the phases decide about two states: either the first is nearer to the table, or
their order is checked on the few loads between the safe ones and the limit, and fails there. -/
def OrderedUpTo (s s' : ℤ) (limit : ℕ → ℕ) : Prop :=
  ∀ r < 32, 0 < r →
    (limit r = 2 ^ 64 ∧
      factorGap s r * (apafFraction s' r).2 ≤ factorGap s' r * (apafFraction s r).2) ∨
    (limit r < 2 ^ 64 ∧
      (∀ k < limit r - (safeLoad s r + 1),
        restError s r (safeLoad s r + 1 + k) ≤ restError s' r (safeLoad s r + 1 + k) + 1) ∧
      restError s' r (limit r) + 1 < restError s r (limit r))

instance (s s' : ℤ) (limit : ℕ → ℕ) : Decidable (OrderedUpTo s s' limit) :=
  inferInstanceAs (Decidable (∀ r < 32, 0 < r → _))

theorem tight_orderedUpTo : OrderedUpTo APAF_TIGHT APAF_MEDIUM tightLimit := by decide

set_option maxRecDepth 2000 in
theorem medium_orderedUpTo : OrderedUpTo APAF_MEDIUM APAF_LOOSE mediumLimit := by decide

theorem restError_order {s s' : ℤ} {limit : ℕ → ℕ} (hord : OrderedUpTo s s' limit) {r load : ℕ}
    (h : r < 32) (hlt : load < limit r) : restError s r load ≤ restError s' r load + 1 := by
  rcases Nat.eq_zero_or_pos r with rfl | h0
  · exact Nat.le_succ _
  rcases hord r h h0 with ⟨-, hnear⟩ | ⟨-, hcheck, -⟩
  · exact restError_le_of_nearer h0 h hnear load
  · rcases Nat.lt_or_ge (safeLoad s r) load with hunsafe | hsafe
    · obtain ⟨k, rfl⟩ := Nat.exists_eq_add_of_le hunsafe
      exact hcheck k (by omega)
    · exact (restError_le_one h0 h hsafe).trans (Nat.le_add_left _ _)

theorem restError_limit {s s' : ℤ} {limit : ℕ → ℕ} (hord : OrderedUpTo s s' limit) {r : ℕ}
    (h0 : 0 < r) (h : r < 32) (hlt : limit r < 2 ^ 64) :
    restError s' r (limit r) + 1 < restError s r (limit r) := by
  rcases hord r h h0 with ⟨heq, -⟩ | ⟨-, -, hfail⟩
  · exact absurd hlt (Nat.not_lt.2 heq.ge)
  · exact hfail

theorem apafDecayError_eq (load : UInt64) {n : ℕ} (hn : n < 2016) (state : ℤ) :
    apafDecayError load n state = restError state (n % 32) (load.toNat / 2 ^ (n / 32)) := by
  rw [apafDecayError, toNat_apafDecayLoad, toNat_exactDecayLoad, apafDecay, exactDecay,
    decay_of_lt hn, decay_of_lt hn, restError]

theorem apafDecayError_order {s s' : ℤ} {limit : ℕ → ℕ} (hord : OrderedUpTo s s' limit)
    (hzero : limit 0 = 2 ^ 64) (load : UInt64) {n : ℕ} (hn : n < 2016) :
    (load.toNat / 2 ^ (n / 32) < limit (n % 32) →
        apafDecayError load n s ≤ apafDecayError load n s' + 1) ∧
      (load.toNat / 2 ^ (n / 32) = limit (n % 32) →
        apafDecayError load n s' + 1 < apafDecayError load n s) := by
  have hr : n % 32 < 32 := Nat.mod_lt n (by norm_num)
  have hload : load.toNat / 2 ^ (n / 32) < 2 ^ 64 := (Nat.div_le_self _ _).trans_lt (Word.toNat_lt load)
  rw [apafDecayError_eq load hn, apafDecayError_eq load hn]
  refine ⟨restError_order hord hr, fun hlimit => ?_⟩
  rw [hlimit] at hload ⊢
  have h0 : 0 < n % 32 := Nat.pos_of_ne_zero fun h => by
    rw [h, hzero] at hload
    exact absurd hload (lt_irrefl _)
  exact restError_limit hord h0 hr hload

/-- Tightening the state never makes the decay less accurate by more than one unit, as long
as the load left after the whole half-lives is below the limit of the phase. There is no
limit but in the two phases where the MEDIUM curve crosses the table and in the nine where
the LOOSE curve does, and these limits are the least ones. -/
theorem apaf_states_ordered (load : UInt64) (n : ℕ) (hmax : n < 2016) :
    (load.toNat / 2 ^ (n / 32) < tightLimit (n % 32) →
        apafDecayError load n APAF_TIGHT ≤ apafDecayError load n APAF_MEDIUM + 1) ∧
      (load.toNat / 2 ^ (n / 32) < mediumLimit (n % 32) →
        apafDecayError load n APAF_MEDIUM ≤ apafDecayError load n APAF_LOOSE + 1) ∧
      (load.toNat / 2 ^ (n / 32) = tightLimit (n % 32) →
        apafDecayError load n APAF_MEDIUM + 1 < apafDecayError load n APAF_TIGHT) ∧
      (load.toNat / 2 ^ (n / 32) = mediumLimit (n % 32) →
        apafDecayError load n APAF_LOOSE + 1 < apafDecayError load n APAF_MEDIUM) := by
  obtain ⟨htight, htight'⟩ := apafDecayError_order tight_orderedUpTo rfl load hmax
  obtain ⟨hmedium, hmedium'⟩ := apafDecayError_order medium_orderedUpTo rfl load hmax
  exact ⟨htight, hmedium, htight', hmedium'⟩

theorem apaf_states_ordered_47742 :
    apafDecayError 47742 8 APAF_TIGHT ≤ apafDecayError 47742 8 APAF_MEDIUM + 1 :=
  (apaf_states_ordered 47742 8 (by decide)).1 (by decide)

/-- Three periods of a load of 7661: TIGHT is two units off, MEDIUM hits the exact value. -/
theorem apaf_states_not_ordered :
    ¬∀ (load : UInt64) (n : ℕ), 1 ≤ n → n < 2016 →
      apafDecayError load n APAF_TIGHT ≤ apafDecayError load n APAF_MEDIUM + 1 ∧
        apafDecayError load n APAF_MEDIUM ≤ apafDecayError load n APAF_LOOSE + 1 := by
  intro h
  have hle := (h 7661 3 (by decide) (by decide)).1
  rw [apafDecayError_eq _ (by decide), apafDecayError_eq _ (by decide)] at hle
  exact absurd hle (by decide)

end ApexCfs
