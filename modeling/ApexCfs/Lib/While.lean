import Mathlib.Logic.Function.Iterate
import Mathlib.Tactic

/-! While loops `while (guard s) s = body(s)`. A loop that leaves by its guard after `k`
passes has the same value under every bound on the passes from `k` on. -/

namespace While

variable {σ : Type*} {guard : σ → Prop} {body : σ → σ} {s : σ}

/-- The loop takes `k` passes from `s` and is then left by its guard. -/
structure ExitsAfter (guard : σ → Prop) (body : σ → σ) (s : σ) (k : ℕ) : Prop where
  pass : ∀ j < k, guard (body^[j] s)
  exit : ¬guard (body^[k] s)

def loop (guard : σ → Prop) [DecidablePred guard] (body : σ → σ) : ℕ → σ → σ
  | 0, s => s
  | passes + 1, s => if guard s then loop guard body passes (body s) else s

/-- Partial correctness: what each pass keeps holds wherever the loop is cut. -/
theorem loop_invariant [DecidablePred guard] {I : σ → Prop} (h0 : I s)
    (hstep : ∀ t, I t → guard t → I (body t)) (passes : ℕ) : I (loop guard body passes s) := by
  induction passes generalizing s with
  | zero => exact h0
  | succ passes ih =>
    rw [loop]
    split_ifs with hguard
    · exact ih (hstep s h0 hguard)
    · exact h0

theorem ExitsAfter.of_succ {k : ℕ} (h : ExitsAfter guard body s (k + 1)) :
    ExitsAfter guard body (body s) k :=
  ⟨fun j hj => h.pass (j + 1) (Nat.succ_lt_succ hj), h.exit⟩

/-- Cut no earlier than where it exits, the loop is not cut at all. -/
theorem ExitsAfter.loop_eq [DecidablePred guard] {k passes : ℕ} (h : ExitsAfter guard body s k)
    (hk : k ≤ passes) : loop guard body passes s = body^[k] s := by
  induction passes generalizing s k with
  | zero =>
    obtain rfl := Nat.le_zero.1 hk
    rfl
  | succ passes ih =>
    cases k with
    | zero => exact if_neg h.exit
    | succ k =>
      have hfirst : guard s := h.pass 0 k.succ_pos
      rw [loop, if_pos hfirst, ih h.of_succ (Nat.le_of_succ_le_succ hk)]
      rfl

/-- Total correctness: an invariant of the state after `j` passes that is kept by each pass
and cannot hold after more than `n` of them. -/
theorem exists_exitsAfter {I : ℕ → σ → Prop} {n : ℕ} (h0 : I 0 s)
    (hstep : ∀ j t, I j t → guard t → I (j + 1) (body t)) (hbound : ∀ j t, I j t → j ≤ n) :
    ∃ k ≤ n, ExitsAfter guard body s k ∧ I k (body^[k] s) := by
  -- after any number of passes the loop has been left, or is still kept going
  have hrun : ∀ m, (∃ k ≤ n, ExitsAfter guard body s k ∧ I k (body^[k] s)) ∨
      (I m (body^[m] s) ∧ ∀ j < m, guard (body^[j] s)) := by
    intro m
    induction m with
    | zero => exact Or.inr ⟨h0, fun j hj => absurd hj j.not_lt_zero⟩
    | succ m ih =>
      rcases ih with hleft | ⟨hinv, hpass⟩
      · exact Or.inl hleft
      · by_cases hguard : guard (body^[m] s)
        · refine Or.inr ⟨?_, fun j hj => ?_⟩
          · rw [Function.iterate_succ_apply']
            exact hstep m _ hinv hguard
          · rcases Nat.lt_succ_iff_lt_or_eq.1 hj with hlt | rfl
            · exact hpass j hlt
            · exact hguard
        · exact Or.inl ⟨m, hbound m _ hinv, ⟨hpass, hguard⟩, hinv⟩
  rcases hrun (n + 1) with hleft | ⟨hinv, -⟩
  · exact hleft
  · exact absurd (hbound _ _ hinv) (Nat.not_succ_le_self n)

end While
