import Mathlib.Tactic

/-! Lists as C arrays: updating one slot, and a loop that updates every slot. -/

namespace ListLoop

variable {α : Type*}

theorem set_eq_modify {xs : List α} {i : ℕ} {a : α} (h : xs[i]? = some a) (f : α → α) :
    xs.set i (f a) = xs.modify i f := by
  rw [List.modify_eq_set_getElem?, h]
  rfl

theorem modify_of_none {xs : List α} {i : ℕ} (h : xs[i]? = none) (f : α → α) :
    xs.modify i f = xs := by
  rw [List.modify_eq_set_getElem?, h]
  rfl

theorem sum_map_modify {M : Type*} [AddCommMonoid M] {f : α → α} {g : α → M} {c : M}
    (h : ∀ a, g (f a) = g a + c) {xs : List α} {i : ℕ} (hi : i < xs.length) :
    ((xs.modify i f).map g).sum = (xs.map g).sum + c := by
  induction xs generalizing i with
  | nil => simp at hi
  | cons a xs ih =>
    cases i with
    | zero => simp [h, add_right_comm]
    | succ i => simp [ih (Nat.succ_lt_succ_iff.mp hi), add_assoc]

theorem getElem?_foldl_modify (f : α → α) (xs : List α) (k j : ℕ) :
    ((List.range k).foldl (fun l i => l.modify i f) xs)[j]? =
      (fun a => if j < k then f a else a) <$> xs[j]? := by
  induction k with
  | zero => simp
  | succ k ih =>
    rw [List.range_succ, List.foldl_append, List.foldl_cons, List.foldl_nil,
      List.getElem?_modify, ih]
    rcases xs[j]? with _ | a
    · rfl
    · simp only [Option.map_eq_map, Option.map_some, Option.some.injEq]
      rcases lt_trichotomy j k with h | h | h
      · rw [if_neg h.ne', if_pos h, if_pos (by omega)]
      · rw [if_pos h.symm, if_neg (by omega), if_pos (by omega)]
      · rw [if_neg h.ne, if_neg (by omega), if_neg (by omega)]

/-- A loop over all indices that updates each slot in turn is a map. -/
theorem foldl_modify_eq_map (f : α → α) (xs : List α) :
    (List.range xs.length).foldl (fun l i => l.modify i f) xs = xs.map f := by
  refine List.ext_getElem? fun j => ?_
  rw [getElem?_foldl_modify, List.getElem?_map]
  rcases h : xs[j]? with _ | a
  · rfl
  · have hj : j < xs.length := (List.getElem?_eq_some_iff.mp h).1
    simp [hj]

/-- A loop that stores a value for every element of a list overwrites as many slots. -/
theorem foldl_set_zipIdx {β : Type*} (f : β → α) (l : List β) {xs : List α}
    (h : l.length ≤ xs.length) :
    l.zipIdx.foldl (fun xs e => xs.set e.2 (f e.1)) xs = l.map f ++ xs.drop l.length := by
  induction l using List.reverseRecOn with
  | nil => simp
  | append_singleton l b ih =>
    rw [List.length_append, List.length_singleton] at h
    have hslot : (xs.drop l.length).set 0 (f b) = f b :: xs.drop (l.length + 1) := by
      rw [List.drop_eq_getElem_cons h, List.set_cons_zero]
    rw [List.zipIdx_append, List.foldl_append, ih (by omega)]
    simp [hslot]

theorem foldl_set_range (a : α) {k : ℕ} {xs : List α} (h : k ≤ xs.length) :
    (List.range k).foldl (fun xs i => xs.set i a) xs = List.replicate k a ++ xs.drop k := by
  have hidx : List.range k = (List.replicate k a).zipIdx.map Prod.snd := by
    rw [List.zipIdx_map_snd, List.length_replicate, List.range_eq_range']
  have hlen : (List.replicate k a).length ≤ xs.length := by simpa using h
  rw [hidx, List.foldl_map, foldl_set_zipIdx (fun _ => a) (List.replicate k a) hlen]
  simp

theorem sum_map_eq_sum_range {M : Type*} [AddCommMonoid M] (f : α → M) (g : ℕ → M) (l : List α)
    (h : ∀ (i : ℕ) (a : α), l[i]? = some a → f a = g i) :
    (l.map f).sum = ∑ i ∈ Finset.range l.length, g i := by
  induction l using List.reverseRecOn with
  | nil => rfl
  | append_singleton l a ih =>
    have hlast : f a = g l.length := h l.length a (by simp)
    have hinit := ih fun i b hb => h i b (by
      rw [List.getElem?_append_left (List.getElem?_eq_some_iff.mp hb).1]
      exact hb)
    rw [List.map_append, List.sum_append, hinit, List.length_append, List.length_singleton,
      Finset.sum_range_succ, List.map_singleton, List.sum_singleton, hlast]

section Record

variable {τ σ β : Type*} {step : τ → ℕ → τ} {st : τ → σ} {buf : τ → List β} {f : σ → ℕ → σ}
  {g : σ → ℕ → β}

theorem foldl_project (hst : ∀ t i, st (step t i) = f (st t) i) (t : τ) (k : ℕ) :
    st ((List.range k).foldl step t) = (List.range k).foldl f (st t) := by
  induction k with
  | zero => rfl
  | succ k ih =>
    rw [List.range_succ, List.foldl_append, List.foldl_append, List.foldl_cons, List.foldl_nil,
      List.foldl_cons, List.foldl_nil, hst, ih]

theorem countP_range_succ (p : ℕ → Prop) [DecidablePred p] (k : ℕ) :
    ((List.range (k + 1)).countP fun i => p i) =
      ((List.range k).countP fun i => p i) + if p k then 1 else 0 := by
  rw [List.range_succ, List.countP_append, List.countP_singleton]
  simp only [decide_eq_true_eq]

/-- A loop that writes slot `i` of a buffer in its pass `i` leaves a record of all
passes in front of the old contents, of which nothing is read. -/
theorem foldl_record (hst : ∀ t i, st (step t i) = f (st t) i)
    (hbuf : ∀ t i, buf (step t i) = (buf t).modify i fun _ => g (st t) i) (t : τ) {k : ℕ}
    (hk : k ≤ (buf t).length) :
    buf ((List.range k).foldl step t) =
      ((List.range k).map fun i => g ((List.range i).foldl f (st t)) i) ++ (buf t).drop k := by
  induction k with
  | zero => simp
  | succ k ih =>
    have hlen : ((List.range k).map fun i => g ((List.range i).foldl f (st t)) i).length = k := by
      simp
    have hdrop : (buf t).drop k = (buf t)[k] :: (buf t).drop (k + 1) := List.drop_eq_getElem_cons hk
    rw [List.range_succ, List.foldl_append, List.foldl_cons, List.foldl_nil, hbuf,
      ih (Nat.le_of_succ_le hk), foldl_project hst, List.map_append, List.append_assoc,
      List.modify_eq_take_drop, List.take_left' hlen, List.drop_left' hlen, hdrop]
    rfl

end Record

end ListLoop
