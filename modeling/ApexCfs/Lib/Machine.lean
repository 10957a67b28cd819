import Mathlib.Logic.Relation
import Mathlib.Tactic

/-! Runs of a deterministic machine `step : σ → α → σ`: invariants, two-run
simulations, and properties of the single steps taken along a run. -/

namespace Machine

variable {σ τ α β : Type*} (step : σ → α → σ)

def run (s : σ) (as : List α) : σ := as.foldl step s

/-- Every input of the run is taken in a state that satisfies `Q`. -/
def Along (Q : σ → α → Prop) (s : σ) (as : List α) : Prop :=
  ∀ pre a post, as = pre ++ a :: post → Q (run step s pre) a

def countAlong (Q : σ → α → Bool) : σ → List α → ℕ
  | _, [] => 0
  | s, a :: as => (if Q s a then 1 else 0) + countAlong Q (step s a) as

variable {step}

@[simp] theorem run_nil (s : σ) : run step s [] = s := rfl

@[simp] theorem run_cons (s : σ) (a : α) (as : List α) :
    run step s (a :: as) = run step (step s a) as := rfl

theorem run_append (s : σ) (as bs : List α) :
    run step s (as ++ bs) = run step (run step s as) bs :=
  List.foldl_append

theorem run_snoc (s : σ) (as : List α) (a : α) :
    run step s (as ++ [a]) = step (run step s as) a := by
  rw [run_append, run_cons, run_nil]

theorem run_take_succ (s : σ) (as : List α) {k : ℕ} {a : α} (h : as[k]? = some a) :
    run step s (as.take (k + 1)) = step (run step s (as.take k)) a := by
  rw [List.take_add_one, h, Option.toList_some, run_snoc]

theorem along_nil (Q : σ → α → Prop) (s : σ) : Along step Q s [] := by
  intro pre a post h
  simp at h

theorem along_cons {Q : σ → α → Prop} {s : σ} {a : α} {as : List α} :
    Along step Q s (a :: as) ↔ Q s a ∧ Along step Q (step s a) as := by
  refine ⟨?_, ?_⟩
  · intro h
    refine ⟨h [] a as rfl, fun pre b post hb => ?_⟩
    have := h (a :: pre) b post (by rw [hb, List.cons_append])
    simpa using this
  · rintro ⟨h, hs⟩ pre b post hb
    cases pre with
    | nil =>
      obtain ⟨rfl, -⟩ := List.cons.inj hb
      exact h
    | cons c pre =>
      obtain ⟨rfl, htail⟩ := List.cons.inj hb
      exact hs pre b post htail

theorem along_append {Q : σ → α → Prop} {s : σ} {as bs : List α} :
    Along step Q s (as ++ bs) ↔ Along step Q s as ∧ Along step Q (run step s as) bs := by
  induction as generalizing s with
  | nil => simp [along_nil]
  | cons a as ih => simp only [List.cons_append, along_cons, ih, run_cons, and_assoc]

theorem along_snoc {Q : σ → α → Prop} {s : σ} {as : List α} {a : α} :
    Along step Q s (as ++ [a]) ↔ Along step Q s as ∧ Q (run step s as) a := by
  rw [along_append, along_cons]
  simp [along_nil]

theorem along_take {Q : σ → α → Prop} {s : σ} {as : List α} (k : ℕ)
    (h : Along step Q s as) : Along step Q s (as.take k) := by
  rw [← List.take_append_drop k as, along_append] at h
  exact h.1

theorem along_replicate {Q : σ → α → Prop} {s : σ} {a : α} {n : ℕ} :
    Along step Q s (List.replicate n a) ↔ ∀ k < n, Q (run step s (List.replicate k a)) a := by
  induction n with
  | zero => simp [along_nil]
  | succ n ih =>
    rw [List.replicate_succ', along_snoc, ih]
    refine ⟨?_, ?_⟩
    · rintro ⟨h, hn⟩ k hk
      rcases Nat.lt_succ_iff_lt_or_eq.mp hk with hlt | rfl
      · exact h k hlt
      · exact hn
    · intro h
      exact ⟨fun k hk => h k (by omega), h n (by omega)⟩

theorem Along.mono {Q R : σ → α → Prop} {s : σ} {as : List α} (h : Along step Q s as)
    (hQR : ∀ s a, Q s a → R s a) : Along step R s as :=
  fun pre a post he => hQR _ _ (h pre a post he)

theorem Along.and {Q R : σ → α → Prop} {s : σ} {as : List α} (hq : Along step Q s as)
    (hr : Along step R s as) : Along step (fun s a => Q s a ∧ R s a) s as :=
  fun pre a post he => ⟨hq pre a post he, hr pre a post he⟩

theorem along_of_invariant {I : σ → Prop} {s : σ} (as : List α) (h0 : I s)
    (hstep : ∀ s a, I s → I (step s a)) : Along step (fun s _ => I s) s as := by
  induction as generalizing s with
  | nil => exact along_nil _ _
  | cons a as ih => exact along_cons.mpr ⟨h0, ih (hstep s a h0)⟩

/-- The invariant rule: what every admitted step preserves holds at the end. -/
theorem run_invariant {Q : σ → α → Prop} {I : σ → Prop} {s : σ} {as : List α}
    (h0 : I s) (hstep : ∀ s a, Q s a → I s → I (step s a))
    (hQ : Along step Q s as) : I (run step s as) := by
  induction as generalizing s with
  | nil => exact h0
  | cons a as ih =>
    rw [along_cons] at hQ
    exact ih (hstep s a hQ.1 h0) hQ.2

theorem Along.and_invariant {Q : σ → α → Prop} {I : σ → Prop} {s : σ} {as : List α}
    (hQ : Along step Q s as) (h0 : I s) (hstep : ∀ s a, Q s a → I s → I (step s a)) :
    Along step (fun s a => Q s a ∧ I s) s as := by
  induction as generalizing s with
  | nil => exact along_nil _ _
  | cons a as ih =>
    rw [along_cons] at hQ
    exact along_cons.mpr ⟨⟨hQ.1, h0⟩, ih hQ.2 (hstep s a hQ.1 h0)⟩

/-- The simulation rule: steps matched by `A` keep the states related by `R`. -/
theorem run_simulation {step' : τ → β → τ} {R : σ → τ → Prop} {A : α → β → Prop}
    (hstep : ∀ s t a b, R s t → A a b → R (step s a) (step' t b)) {s : σ} {t : τ}
    {as : List α} {bs : List β} (h0 : R s t) (hA : List.Forall₂ A as bs) :
    R (run step s as) (run step' t bs) := by
  induction hA generalizing s t with
  | nil => exact h0
  | cons hab _ ih => exact ih (hstep _ _ _ _ h0 hab)

/-- A run whose steps refine the steps of an abstract relation refines its
reflexive transitive closure. -/
theorem run_refines {Q : σ → α → Prop} {R : τ → τ → Prop} (f : σ → τ)
    (hstep : ∀ s a, Q s a → R (f s) (f (step s a))) {s : σ} {as : List α}
    (hQ : Along step Q s as) : Relation.ReflTransGen R (f s) (f (run step s as)) := by
  induction as generalizing s with
  | nil => exact .refl
  | cons a as ih =>
    rw [along_cons] at hQ
    exact .head (hstep s a hQ.1) (ih hQ.2)

/-- A quantity that grows by `c` exactly at the counted inputs. -/
theorem run_counter {M : Type*} [AddMonoid M] {Q : σ → α → Prop} {P : σ → α → Bool} (f : σ → M)
    (c : M) (hstep : ∀ s a, Q s a → f (step s a) = f s + if P s a then c else 0) {s : σ}
    {as : List α} (hQ : Along step Q s as) :
    f (run step s as) = f s + countAlong step P s as • c := by
  induction as generalizing s with
  | nil => simp [countAlong]
  | cons a as ih =>
    rw [along_cons] at hQ
    rw [run_cons, ih hQ.2, hstep s a hQ.1, countAlong, add_nsmul, add_assoc]
    split_ifs <;> simp

theorem countAlong_const (p : α → Bool) (s : σ) (as : List α) :
    countAlong step (fun _ a => p a) s as = as.countP p := by
  induction as generalizing s with
  | nil => rfl
  | cons a as ih =>
    rw [countAlong, ih, List.countP_cons]
    exact add_comm _ _

theorem countAlong_append {P : σ → α → Bool} (s : σ) (as bs : List α) :
    countAlong step P s (as ++ bs) =
      countAlong step P s as + countAlong step P (run step s as) bs := by
  induction as generalizing s with
  | nil => exact (Nat.zero_add _).symm
  | cons a as ih => rw [List.cons_append, countAlong, countAlong, ih, run_cons, Nat.add_assoc]

theorem sum_countAlong {ι : Type*} (t : Finset ι) {R : σ → α → Prop} {Q : ι → σ → α → Bool}
    {P : σ → α → Bool}
    (h : ∀ s a, R s a → ∑ i ∈ t, (if Q i s a then 1 else 0) = if P s a then 1 else 0) {s : σ}
    {as : List α} (hR : Along step R s as) :
    ∑ i ∈ t, countAlong step (Q i) s as = countAlong step P s as := by
  induction as generalizing s with
  | nil => simp [countAlong]
  | cons a as ih =>
    rw [along_cons] at hR
    simp only [countAlong, Finset.sum_add_distrib, ih hR.2, h s a hR.1]

theorem along_of_countAlong_eq_zero {P : σ → α → Bool} {s : σ} {as : List α}
    (h : countAlong step P s as = 0) : Along step (fun s a => P s a = false) s as := by
  induction as generalizing s with
  | nil => exact along_nil _ _
  | cons a as ih =>
    rw [countAlong] at h
    refine along_cons.mpr ⟨?_, ih (by omega)⟩
    by_contra hP
    rw [if_pos (Bool.eq_true_of_not_eq_false hP)] at h
    omega

/-- A quantity that grows by at most `c`, and only at the counted inputs. -/
theorem run_counter_le {M : Type*} [AddCommMonoid M] [PartialOrder M] [IsOrderedAddMonoid M]
    {Q : σ → α → Prop} {P : σ → α → Bool} (f : σ → M) (c : M)
    (hstep : ∀ s a, Q s a → f (step s a) ≤ f s + if P s a then c else 0) {s : σ} {as : List α}
    (hQ : Along step Q s as) : f (run step s as) ≤ f s + countAlong step P s as • c := by
  induction as generalizing s with
  | nil => simp [countAlong]
  | cons a as ih =>
    rw [along_cons] at hQ
    rw [run_cons, countAlong]
    calc f (run step (step s a) as)
        ≤ f (step s a) + countAlong step P (step s a) as • c := ih hQ.2
      _ ≤ (f s + if P s a then c else 0) + countAlong step P (step s a) as • c :=
        add_le_add_left (hstep s a hQ.1) _
      _ = f s + ((if P s a then 1 else 0) + countAlong step P (step s a) as) • c := by
        rw [add_nsmul, add_assoc]
        split_ifs <;> simp

/-- A budget that every counted input draws on bounds how many of them there are. -/
theorem run_budget {Q : σ → α → Prop} {P : σ → α → Bool} (f : σ → ℕ)
    (hstep : ∀ s a, Q s a → f (step s a) + (if P s a then 1 else 0) ≤ f s) {s : σ} {as : List α}
    (hQ : Along step Q s as) : f (run step s as) + countAlong step P s as ≤ f s := by
  have h := run_counter_le (P := P) (fun s => (f s : ℤ)) (-1) (fun s a ha => by
    have hs := hstep s a ha
    split_ifs at hs ⊢ <;> omega) hQ
  rw [nsmul_eq_mul] at h
  omega

instance decidableAlong (Q : σ → α → Prop) [∀ s a, Decidable (Q s a)] :
    ∀ s as, Decidable (Along step Q s as)
  | s, [] => .isTrue (along_nil Q s)
  | s, a :: as =>
    haveI := decidableAlong Q (step s a) as
    decidable_of_iff (Q s a ∧ Along step Q (step s a) as) along_cons.symm

end Machine
