import ApexCfs.Proofs.ClassScaling
import ApexCfs.Proofs.ExactScaling
import ApexCfs.Spec.Run

/-! A heavier task never ages faster. The Newton reciprocals fall from each weight to the
next, also where the nearest power of two doubles; the exact inverse and the nearest class
are monotone in the weight as they stand. -/

namespace ApexCfs

open Newton

/-- Neighbouring weights start from the same power of two, or the second of them from the
next one; then the first is half way between the two. -/
theorem nearestPow2_succ {p v p' v' w : ℕ} (hp : p * v = 2 ^ 31) (hp' : p' * v' = 2 ^ 31)
    (hw : 2 ≤ w) (hlo : 3 * p < 4 * w) (hhi : 2 * w ≤ 3 * p) (hlo' : 3 * p' < 4 * (w + 1))
    (hhi' : 2 * (w + 1) ≤ 3 * p') : p' = p ∨ ∃ r, w = 3 * r ∧ p = 2 * r ∧ p' = 4 * r := by
  obtain ⟨k, -, rfl⟩ := (Nat.dvd_prime_pow Nat.prime_two).1 ⟨v, hp.symm⟩
  obtain ⟨k', -, rfl⟩ := (Nat.dvd_prime_pow Nat.prime_two).1 ⟨v', hp'.symm⟩
  rcases lt_trichotomy k' k with h | h | h
  · have hdouble : 2 ^ (k' + 1) ≤ 2 ^ k := Nat.pow_le_pow_right (by norm_num) h
    rw [pow_succ] at hdouble
    omega
  · exact Or.inl (by rw [h])
  · right
    rcases Nat.eq_or_lt_of_le h with h | h
    · obtain ⟨j, rfl⟩ : ∃ j, k = j + 1 := by
        refine Nat.exists_eq_add_one_of_ne_zero fun h0 => ?_
        rw [h0, pow_zero] at hhi
        omega
      subst h
      rw [Nat.succ_eq_add_one, pow_succ 2 (j + 1), pow_succ] at *
      exact ⟨2 ^ j, by omega, by omega, by omega⟩
    · have hfour : 2 ^ (k + 2) ≤ 2 ^ k' := Nat.pow_le_pow_right (by norm_num) h
      rw [pow_add] at hfour
      omega

theorem affine_room {p v : ℕ} (hp : p * v = 2 ^ 31) (hlt : p < 2 ^ 17) : 2 * p + 6 ≤ 7 * v := by
  obtain ⟨k, -, rfl⟩ := (Nat.dvd_prime_pow Nat.prime_two).1 ⟨v, hp.symm⟩
  have hk : k < 17 := (Nat.pow_lt_pow_iff_right (by norm_num)).1 hlt
  have hle : 2 ^ k ≤ 2 ^ 16 := Nat.pow_le_pow_right (by norm_num) (by omega)
  have hv : 2 ^ 15 ≤ v := by
    by_contra hsmall
    have hstrict : 2 ^ k * v < 2 ^ 16 * 2 ^ 15 :=
      Nat.mul_lt_mul_of_le_of_lt hle (Nat.not_le.1 hsmall) (by norm_num)
    rw [hp] at hstrict
    norm_num at hstrict
  omega

theorem first_reciprocal_succ {w w' : UInt32} (h : w'.toNat = w.toNat + 1) (hw : 2 ≤ w.toNat)
    (hmax : w'.toNat ≤ 88761) :
    (bsaNewtonReciprocal w' 1).toNat ≤ (bsaNewtonReciprocal w 1).toNat := by
  obtain ⟨p, v, hp, hpv, -, hlo, hhi, hstart⟩ := bsaNewtonReciprocal_start
    (show 0 < w.toNat by omega) (by omega)
  obtain ⟨p', v', hp', hpv', -, hlo', hhi', hstart'⟩ := bsaNewtonReciprocal_start
    (show 0 < w'.toNat by omega) (by omega)
  rw [toNat_reciprocal_succ (by omega) (by omega) 0, toNat_reciprocal_succ (by omega) (by omega) 0,
    hstart, hstart']
  rw [h] at hlo' hhi' ⊢
  rcases nearestPow2_succ hpv hpv' hw hlo hhi hlo' hhi' with rfl | ⟨r, hr, rfl, rfl⟩
  · have hv : v' = v := Nat.eq_of_mul_eq_mul_left hp (hpv'.trans hpv.symm)
    have h32 : 2 * p' * v = 2 ^ 32 := by rw [mul_assoc, hpv]; norm_num
    have hfirst := first_step_succ_le hp (affine_room hpv (by omega)) hhi'
    rw [hv]
    rwa [h32] at hfirst
  · have hv : v = 2 * v' := by
      refine Nat.eq_of_mul_eq_mul_left hp ?_
      rw [hpv, ← hpv']
      ring
    have h32 : 8 * r * v' = 2 ^ 32 := by
      rw [show 8 * r * v' = 2 * (4 * r * v') by ring, hpv']
      norm_num
    have hv' : 0 < v' := Nat.pos_of_ne_zero fun h0 => by simp [h0] at hpv'
    have hswitch := first_step_switch_le (r := r) (by omega) hv'
    rwa [h32, ← hv, ← hr] at hswitch

theorem first_reciprocal_antitone {w w' : UInt32} (hw : 2 ≤ w.toNat) (hle : w ≤ w')
    (hmax : w'.toNat ≤ 88761) :
    (bsaNewtonReciprocal w' 1).toNat ≤ (bsaNewtonReciprocal w 1).toNat := by
  obtain ⟨k, hk⟩ := Nat.exists_eq_add_of_le (UInt32.le_iff_toNat_le.1 hle)
  clear hle
  induction k generalizing w' with
  | zero => rw [UInt32.toNat_inj.1 hk]
  | succ k ih =>
    have hmid : (UInt32.ofNat (w.toNat + k)).toNat = w.toNat + k := by
      rw [UInt32.toNat_ofNat', Nat.mod_eq_of_lt (by omega)]
    have hstep : (bsaNewtonReciprocal w' 1).toNat ≤
        (bsaNewtonReciprocal (UInt32.ofNat (w.toNat + k)) 1).toNat :=
      first_reciprocal_succ (by omega) (by omega) hmax
    exact hstep.trans (ih (by omega) hmid)

theorem reciprocal_antitone {w w' : UInt32} (hw : 2 ≤ w.toNat) (hle : w ≤ w')
    (hmax : w'.toNat ≤ 88761) (n : ℕ) :
    (bsaNewtonReciprocal w' (n + 1)).toNat ≤ (bsaNewtonReciprocal w (n + 1)).toNat := by
  have hle' := UInt32.le_iff_toNat_le.1 hle
  induction n with
  | zero => exact first_reciprocal_antitone hw hle hmax
  | succ n ih =>
    rw [toNat_reciprocal_succ (by omega) (by omega) (n + 1),
      toNat_reciprocal_succ (by omega) (by omega) (n + 1)]
    exact step_le_step hle' ih (reciprocal_succ_le (by omega) (by omega) n)

/-- Below weight 1024 the inverse makes up for the odd unit that halving drops. -/
theorem le_double_scaled {d w : ℕ} (hd : 2 ^ 32 ≤ d) (h0 : 0 < w) (hw : w < 1024) :
    d ≤ 2 * scaled (d / 2) (2 ^ 32 / w) := by
  have hinv : 4198404 ≤ 2 ^ 32 / w := (Nat.le_div_iff_mul_le h0).2 (by omega)
  have hmore : d / 2 + 1 ≤ scaled (d / 2) 4198404 := by
    rw [scaled, Nat.le_div_iff_mul_le (by norm_num)]
    omega
  have hmono := hmore.trans (scaled_mono hinv)
  omega

theorem double_scaled_le {d w : ℕ} (hw : 1024 ≤ w) : 2 * scaled (d / 2) (2 ^ 32 / w) ≤ d := by
  have hinv : 2 ^ 32 / w ≤ 2 ^ 22 := Nat.div_le_div_left hw (by norm_num)
  have hmono : scaled (d / 2) (2 ^ 32 / w) ≤ scaled (d / 2) (2 ^ 22) := scaled_mono hinv
  rw [scaled_nice0] at hmono
  omega

theorem exactDelta_antitone {w w' : ℕ} (h0 : 0 < w) (hle : w ≤ w') (d : ℕ) :
    exactDelta d w' ≤ exactDelta d w := by
  have hinv : 2 ^ 32 / w' ≤ 2 ^ 32 / w := Nat.div_le_div_left hle h0
  rcases Nat.lt_or_ge d (2 ^ 32) with hd | hd
  · have heq : ∀ w, exactDelta d w = scaled d (2 ^ 32 / w) := fun w => by
      rw [exactDelta, if_pos hd]
      split_ifs with h1024
      · rw [h1024]
        exact (scaled_nice0 d).symm
      · rfl
    rw [heq, heq]
    exact scaled_mono hinv
  · have heq : ∀ w, w ≠ 1024 → exactDelta d w = 2 * scaled (d / 2) (2 ^ 32 / w) := fun w hne => by
      rw [exactDelta, if_neg hne, if_neg (Nat.not_lt.2 hd)]
    have hnice0 : exactDelta d 1024 = d := if_pos rfl
    by_cases h : w = 1024
    · subst h
      by_cases h' : w' = 1024
      · rw [h']
      · rw [hnice0, heq w' h']
        exact double_scaled_le hle
    · by_cases h' : w' = 1024
      · subst h'
        rw [hnice0, heq w h]
        exact le_double_scaled hd h0 (by omega)
      · rw [heq w h, heq w' h']
        exact Nat.mul_le_mul_left 2 (scaled_mono hinv)

theorem target_fits {d : ℕ} (hd : d < 2 ^ 54) (w : ℕ) : 1024 * d / w < 2 ^ 64 :=
  (Nat.div_le_self _ _).trans_lt (by omega)

theorem apafIters_succ (state : ℤ) : ∃ n, apafIters state = n + 1 := by
  unfold apafIters
  split_ifs
  · exact ⟨1, rfl⟩
  · exact ⟨0, rfl⟩
  · exact ⟨1, rfl⟩

def Mode.inverse (m : Mode) (state : ℤ) (w : UInt32) : ℕ :=
  match m with
  | .exact => 2 ^ 32 / w.toNat
  | .bsa => (bsaNewtonReciprocal w 1).toNat
  | .clti => 2 ^ 32 / (nearestClass w).toNat
  | .apaf => (bsaNewtonReciprocal w (apafIters state)).toNat

/-- All four scale by their inverse, the exact one as long as it does not halve the delta. -/
theorem toNat_delta (m : Mode) (state : ℤ) {d : UInt64} {w : UInt32} (hd : d.toNat < 2 ^ 54)
    (hexact : m = .exact → d.toNat < 2 ^ 32) (hw : 2 ≤ w.toNat) (hmax : w.toNat ≤ 2 ^ 29) :
    (m.delta state d w).toNat = scaled d.toNat (m.inverse state w) := by
  cases m with
  | exact => exact toNat_exactDelta (hexact rfl) hw
  | bsa => exact toNat_bsaDelta hd hw hmax
  | clti => exact toNat_cltiDelta hd (by omega)
  | apaf =>
    obtain ⟨n, hn⟩ := apafIters_succ state
    rw [Mode.inverse, hn]
    exact toNat_apafDelta state hn hd hw hmax

theorem inverse_antitone (m : Mode) (state : ℤ) {w w' : UInt32} (hw : 2 ≤ w.toNat) (hle : w ≤ w')
    (hmax : w'.toNat ≤ 88761) : m.inverse state w' ≤ m.inverse state w := by
  cases m with
  | exact => exact Nat.div_le_div_left (UInt32.le_iff_toNat_le.1 hle) (by omega)
  | bsa => exact reciprocal_antitone hw hle hmax 0
  | clti =>
    obtain ⟨h16, -⟩ := class_inverse _ (nearestClass_spec w).mem
    exact Nat.div_le_div_left (UInt32.le_iff_toNat_le.1 (nearestClass_mono hle)) (by omega)
  | apaf =>
    obtain ⟨n, hn⟩ := apafIters_succ state
    simp only [Mode.inverse, hn]
    exact reciprocal_antitone hw hle hmax n

/-- A heavier task never ages faster: between weight 2 and the heaviest nice weight every
scheduler, in every APAF state, charges the heavier of two weights at most as much. -/
theorem heavier_ages_slower (m : Mode) (state : ℤ) (w₁ w₂ : UInt32) (d : UInt64)
    (hd : d.toNat < 2 ^ 54) (hw : 2 ≤ w₁.toNat) (hle : w₁ ≤ w₂) (hmax : w₂.toNat ≤ 88761) :
    m.delta state d w₂ ≤ m.delta state d w₁ := by
  have hle' := UInt32.le_iff_toNat_le.1 hle
  rw [UInt64.le_iff_toNat_le]
  by_cases hm : m = .exact
  · subst hm
    simp only [Mode.delta]
    rw [toNat_exactCalcDeltaFair (by omega) (target_fits hd _),
      toNat_exactCalcDeltaFair (by omega) (target_fits hd _)]
    exact exactDelta_antitone (by omega) hle' d.toNat
  · rw [toNat_delta m state hd (fun h => absurd h hm) (by omega) (by omega),
      toNat_delta m state hd (fun h => absurd h hm) (by omega) (by omega)]
    exact scaled_mono (inverse_antitone m state hw hle hmax)

/-- One tick at nice 1 against one at nice 0. -/
theorem heavier_ages_slower_820 :
    Mode.bsa.delta APAF_MEDIUM TICK_NS 1024 ≤ Mode.bsa.delta APAF_MEDIUM TICK_NS 820 :=
  heavier_ages_slower .bsa APAF_MEDIUM 820 1024 TICK_NS (by decide) (by decide) (by decide)
    (by decide)

end ApexCfs
