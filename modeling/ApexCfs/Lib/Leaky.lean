import Mathlib.Tactic

/-! Leaky accumulators: a level that decays by some map and then receives a
contribution, period after period. -/

namespace Leaky

variable {ι : Type*}

/-- The level after a list of contributions, from an empty start. -/
def track (period : ℕ → ℕ) (cs : List ℕ) : ℕ := cs.foldl (fun level c => period level + c) 0

@[simp] theorem track_nil (period : ℕ → ℕ) : track period [] = 0 := rfl

theorem track_snoc (period : ℕ → ℕ) (cs : List ℕ) (c : ℕ) :
    track period (cs ++ [c]) = period (track period cs) + c := by
  rw [track, List.foldl_append]
  rfl

theorem track_replicate (period : ℕ → ℕ) (c n : ℕ) :
    track period (List.replicate n c) = (fun level => period level + c)^[n] 0 := by
  induction n with
  | zero => rfl
  | succ n ih => rw [List.replicate_succ', track_snoc, ih, Function.iterate_succ_apply']

/-- The relational rule: what every period preserves holds between the levels
that two accumulators reach over one history. -/
theorem track_rel {R : ℕ → ℕ → Prop} {p q : ℕ → ℕ} {f g : ι → ℕ} (rs : List ι) (h0 : R 0 0)
    (hstep : ∀ r ∈ rs, ∀ a b, R a b → R (p a + f r) (q b + g r)) :
    R (track p (rs.map f)) (track q (rs.map g)) := by
  induction rs using List.reverseRecOn with
  | nil => exact h0
  | append_singleton rs r ih =>
    rw [List.map_append, List.map_append, List.map_singleton, List.map_singleton, track_snoc,
      track_snoc]
    exact hstep r (by simp) _ _ (ih fun s hs => hstep s (by simp [hs]))

theorem track_inv {I : ℕ → Prop} {p : ℕ → ℕ} {f : ι → ℕ} (rs : List ι) (h0 : I 0)
    (hstep : ∀ r ∈ rs, ∀ a, I a → I (p a + f r)) : I (track p (rs.map f)) :=
  track_rel (R := fun a _ => I a) (q := p) (g := f) rs h0 fun r hr a _ => hstep r hr a

/-- Without contributions a level that only drops above `c`, never below it, and
stays once it is there, ends at `c` or where it was. -/
theorem iterate_settles {f : ℕ → ℕ} {c : ℕ} (hfix : ∀ l ≤ c, f l = l)
    (hdrop : ∀ l, c < l → c ≤ f l ∧ f l < l) (l : ℕ) : ∃ N, ∀ n ≥ N, f^[n] l = min l c := by
  induction l using Nat.strong_induction_on with
  | _ l ih =>
    rcases Nat.lt_or_ge c l with h | h
    · obtain ⟨hle, hlt⟩ := hdrop l h
      obtain ⟨N, hN⟩ := ih (f l) hlt
      refine ⟨N + 1, fun n hn => ?_⟩
      obtain ⟨k, rfl⟩ : ∃ k, n = k + 1 := ⟨n - 1, by omega⟩
      rw [Function.iterate_succ_apply, hN k (by omega), min_eq_right hle, min_eq_right h.le]
    · refine ⟨0, fun n _ => ?_⟩
      rw [Function.iterate_fixed (hfix l h), min_eq_left h]

/-- A level that climbs below a ceiling and does not fall off it is there after as
many steps as the ceiling is high. -/
theorem iterate_climbs {f : ℕ → ℕ} {c : ℕ} (hclimb : ∀ l < c, l < f l) (hstay : ∀ l, c ≤ l → c ≤ f l)
    (n : ℕ) : min c n ≤ f^[n] 0 := by
  induction n with
  | zero => simp
  | succ n ih =>
    rw [Function.iterate_succ_apply']
    rcases Nat.lt_or_ge (f^[n] 0) c with h | h
    · have := hclimb _ h
      omega
    · have := hstay _ h
      omega

end Leaky
