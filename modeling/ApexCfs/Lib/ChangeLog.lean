import Mathlib.Data.List.Chain
import Mathlib.Data.List.Range

/-! A log of the changes of a sequence: its entries chain up, nothing changes
between two of them, and a log of bounded length keeps the first ones. -/

namespace ChangeLog

variable {σ : Type*} [DecidableEq σ] (s : ℕ → σ)

def changes (k : ℕ) : List ℕ := (List.range k).filter fun i => s (i + 1) ≠ s i

def Flat (a b : ℕ) : Prop := ∀ i, a ≤ i → i < b → s (i + 1) = s i

variable {s}

theorem mem_changes {i k : ℕ} : i ∈ changes s k ↔ i < k ∧ s (i + 1) ≠ s i := by
  simp [changes]

theorem changes_succ (k : ℕ) :
    changes s (k + 1) = changes s k ++ if s (k + 1) ≠ s k then [k] else [] := by
  rw [changes, List.range_succ, List.filter_append, changes]
  by_cases h : s (k + 1) = s k <;> simp [h]

omit [DecidableEq σ] in
theorem Flat.succ {a k : ℕ} (h : Flat s a k) (hk : s (k + 1) = s k) : Flat s a (k + 1) := by
  intro i hai hik
  rcases Nat.lt_succ_iff_lt_or_eq.mp hik with hlt | rfl
  · exact h i hai hlt
  · exact hk

/-- After the last change, or from the start if there is none, nothing changes. -/
theorem flat_after (k : ℕ) : (changes s k = [] → Flat s 0 k) ∧
    ∀ a ∈ (changes s k).getLast?, a < k ∧ Flat s (a + 1) k := by
  induction k with
  | zero => exact ⟨fun _ i _ hi => absurd hi (Nat.not_lt_zero i), fun a ha => by simp [changes] at ha⟩
  | succ k ih =>
    rw [changes_succ]
    by_cases hk : s (k + 1) = s k
    · rw [if_neg (not_not.mpr hk), List.append_nil]
      refine ⟨fun h => (ih.1 h).succ hk, fun a ha => ?_⟩
      obtain ⟨hlt, hflat⟩ := ih.2 a ha
      exact ⟨hlt.trans (Nat.lt_succ_self k), hflat.succ hk⟩
    · rw [if_pos hk, List.getLast?_concat]
      refine ⟨fun h => absurd h (by simp), fun a ha => ?_⟩
      obtain rfl : k = a := Option.some.inj ha
      exact ⟨Nat.lt_succ_self k, fun i h1 h2 => absurd h1 (by omega)⟩

theorem value_after (k : ℕ) :
    s k = ((changes s k).getLast?.map fun a => s (a + 1)).getD (s 0) := by
  induction k with
  | zero => rfl
  | succ k ih =>
    rw [changes_succ]
    by_cases hk : s (k + 1) = s k
    · rw [if_neg (not_not.mpr hk), List.append_nil, hk]
      exact ih
    · rw [if_pos hk, List.getLast?_concat]
      rfl

/-- Every change starts from the value the one before it left, the first from the
initial one. -/
theorem changes_chain (k : ℕ) :
    ((changes s k).IsChain fun a b => a < b ∧ s b = s (a + 1) ∧ Flat s (a + 1) b) ∧
      ∀ a ∈ (changes s k).head?, s a = s 0 ∧ Flat s 0 a := by
  induction k with
  | zero => exact ⟨List.isChain_nil, fun a ha => by simp [changes] at ha⟩
  | succ k ih =>
    have hvalue := value_after (s := s) k
    obtain ⟨hnone, hlast⟩ := flat_after (s := s) k
    rw [changes_succ]
    by_cases hk : s (k + 1) = s k
    · rw [if_neg (not_not.mpr hk), List.append_nil]
      exact ih
    · rw [if_pos hk]
      refine ⟨List.isChain_append.mpr ⟨ih.1, List.isChain_singleton k, fun a ha b hb => ?_⟩, ?_⟩
      · obtain rfl : k = b := by simpa using hb
        rw [ha] at hvalue
        exact ⟨(hlast a ha).1, hvalue, (hlast a ha).2⟩
      · rcases hc : changes s k with _ | ⟨c, cs⟩
        · intro a ha
          obtain rfl : k = a := by simpa using ha
          rw [hc] at hvalue
          exact ⟨hvalue, hnone hc⟩
        · have hhead := ih.2
          rw [hc] at hhead
          exact hhead

theorem append_while_room {α : Type*} (xs : List α) (a : α) (n : ℕ) :
    (if (xs.take n).length < n then xs.take n ++ [a] else xs.take n) = (xs ++ [a]).take n := by
  rw [List.length_take, List.take_append]
  rcases lt_or_ge xs.length n with h | h
  · rw [if_pos (by omega), List.take_of_length_le (l := [a]) (by simp; omega)]
  · rw [if_neg (by omega), Nat.sub_eq_zero_of_le h, List.take_zero, List.append_nil]

theorem pairwise_changes (k : ℕ) : (changes s k).Pairwise (· < ·) :=
  List.pairwise_lt_range.filter _

/-- The first logged change from a step on is the first there is. -/
theorem flat_of_find_eq_some {k n start a : ℕ}
    (h : ((changes s k).take n).find? (fun i => start ≤ i) = some a) :
    start ≤ a ∧ a < k ∧ s (a + 1) ≠ s a ∧ Flat s start a := by
  obtain ⟨hstart, before, after, hsplit, hbefore⟩ := List.find?_eq_some_iff_append.mp h
  have hmem : a ∈ (changes s k).take n := List.mem_of_find?_eq_some h
  obtain ⟨hlt, hchange⟩ := mem_changes.mp (List.mem_of_mem_take hmem)
  refine ⟨by simpa using hstart, hlt, hchange, fun i hsi hia => ?_⟩
  by_contra hi
  have hall : changes s k = before ++ a :: (after ++ (changes s k).drop n) := by
    rw [← List.cons_append, ← List.append_assoc, ← hsplit, List.take_append_drop]
  have hsorted := pairwise_changes (s := s) k
  rw [hall, List.pairwise_append, List.pairwise_cons] at hsorted
  have hin : i ∈ before ++ a :: (after ++ (changes s k).drop n) :=
    hall ▸ mem_changes.mpr ⟨hia.trans hlt, hi⟩
  rcases List.mem_append.mp hin with hb | hb
  · exact absurd hsi (by simpa using hbefore i hb)
  · rcases List.mem_cons.mp hb with rfl | ha
    · exact absurd hia (lt_irrefl i)
    · exact absurd (hsorted.2.1.1 i ha) hia.not_gt

/-- A log with room that has no change from a step on has missed none. -/
theorem flat_of_find_eq_none {k n start : ℕ}
    (h : ((changes s k).take n).find? (fun i => start ≤ i) = none)
    (hroom : ((changes s k).take n).length < n) : Flat s start k := by
  intro i hsi hik
  by_contra hi
  have hall : (changes s k).take n = changes s k := by
    rw [List.length_take] at hroom
    exact List.take_of_length_le (by omega)
  rw [hall] at h
  exact absurd hsi (by simpa using List.find?_eq_none.mp h i (mem_changes.mpr ⟨hik, hi⟩))

end ChangeLog
