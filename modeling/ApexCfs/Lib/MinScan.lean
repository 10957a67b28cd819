import Mathlib.Order.Basic
import Mathlib.Tactic

/-! One pass for the first least element: a scan of a list that remembers the
index and the key of the best candidate so far. -/

namespace MinScan

variable {α κ : Type*} [LinearOrder κ]

/-- `i` is the first index of a candidate whose key is least. -/
structure FirstMin (p : α → Prop) (key : α → κ) (xs : List α) (i : ℕ) (a : α) : Prop where
  get : xs[i]? = some a
  cand : p a
  least : ∀ (j : ℕ) (b : α), xs[j]? = some b → p b → key a ≤ key b
  first : ∀ (j : ℕ) (b : α), j < i → xs[j]? = some b → p b → key a < key b

variable {p : α → Prop} {key : α → κ}

theorem FirstMin.unique {xs : List α} {i j : ℕ} {a b : α} (ha : FirstMin p key xs i a)
    (hb : FirstMin p key xs j b) : i = j := by
  rcases lt_trichotomy i j with h | h | h
  · exact absurd (ha.least j b hb.get hb.cand) (not_le.mpr (hb.first i a h ha.get ha.cand))
  · exact h
  · exact absurd (hb.least i a ha.get ha.cand) (not_le.mpr (ha.first j b h hb.get hb.cand))

theorem FirstMin.snoc {xs : List α} {i : ℕ} {a b : α} (h : FirstMin p key xs i a)
    (hb : p b → key a ≤ key b) : FirstMin p key (xs ++ [b]) i a := by
  have hi : i < xs.length := (List.getElem?_eq_some_iff.mp h.get).1
  refine ⟨by rw [List.getElem?_append_left hi]; exact h.get, h.cand, ?_, ?_⟩
  · intro j c hj hc
    rcases lt_or_ge j xs.length with hlt | hge
    · rw [List.getElem?_append_left hlt] at hj
      exact h.least j c hj hc
    · rw [List.getElem?_append_right hge] at hj
      rw [List.mem_singleton.mp (List.mem_of_getElem? hj)] at hc ⊢
      exact hb hc
  · intro j c hji hj hc
    rw [List.getElem?_append_left (hji.trans hi)] at hj
    exact h.first j c hji hj hc

theorem firstMin_last {xs : List α} {b : α} (hb : p b)
    (h : ∀ c ∈ xs, p c → key b < key c) : FirstMin p key (xs ++ [b]) xs.length b := by
  refine ⟨by simp, hb, ?_, ?_⟩
  · intro j c hj hc
    rcases List.mem_append.mp (List.mem_of_getElem? hj) with hm | hm
    · exact (h c hm hc).le
    · exact (congrArg key (List.mem_singleton.mp hm)).ge
  · intro j c hlt hj hc
    rw [List.getElem?_append_left hlt] at hj
    exact h c (List.mem_of_getElem? hj) hc

section Scan

variable (p : α → Prop) [DecidablePred p] (key : α → κ)

/-- One round: a candidate replaces the best so far if its key is smaller. -/
def step (acc : Option (ℕ × κ)) (e : α × ℕ) : Option (ℕ × κ) :=
  if p e.1 then
    match acc with
    | none => some (e.2, key e.1)
    | some (i, k) => if key e.1 < k then some (e.2, key e.1) else some (i, k)
  else acc

def scan (xs : List α) : Option (ℕ × κ) := xs.zipIdx.foldl (step p key) none

/-- What the accumulator says after any prefix of the list. -/
def Spec (xs : List α) : Option (ℕ × κ) → Prop
  | none => ∀ a ∈ xs, ¬ p a
  | some (i, k) => ∃ a, FirstMin p key xs i a ∧ key a = k

variable {p key}

theorem scan_snoc (xs : List α) (a : α) :
    scan p key (xs ++ [a]) = step p key (scan p key xs) (a, xs.length) := by
  simp [scan, List.zipIdx_append]

theorem scan_spec (xs : List α) : Spec p key xs (scan p key xs) := by
  induction xs using List.reverseRecOn with
  | nil => intro a ha; simp at ha
  | append_singleton xs b ih =>
    rw [scan_snoc]
    by_cases hb : p b
    · rcases hs : scan p key xs with _ | ⟨i, k⟩
      · rw [hs] at ih
        simp only [step, hb, if_true]
        exact ⟨b, firstMin_last hb fun c hc hpc => absurd hpc (ih c hc), rfl⟩
      · rw [hs] at ih
        obtain ⟨a, ha, rfl⟩ := ih
        by_cases hlt : key b < key a
        · simp only [step, hb, hlt, if_true]
          refine ⟨b, firstMin_last hb fun c hc hpc => ?_, rfl⟩
          obtain ⟨j, hj⟩ := List.mem_iff_getElem?.mp hc
          exact hlt.trans_le (ha.least j c hj hpc)
        · simp only [step, hb, hlt, if_true, if_false]
          exact ⟨a, ha.snoc fun _ => not_lt.mp hlt, rfl⟩
    · simp only [step, hb, if_false]
      rcases hs : scan p key xs with _ | ⟨i, k⟩
      · rw [hs] at ih
        intro c hc
        rcases List.mem_append.mp hc with hm | hm
        · exact ih c hm
        · rwa [List.mem_singleton.mp hm]
      · rw [hs] at ih
        obtain ⟨a, ha, hk⟩ := ih
        exact ⟨a, ha.snoc fun h => absurd h hb, hk⟩

theorem scan_map {β : Type*} {q : β → Prop} [DecidablePred q] {key' : β → κ} (f : α → β)
    (hq : ∀ a, q (f a) ↔ p a) (hkey : ∀ a, key' (f a) = key a) (xs : List α) :
    scan q key' (xs.map f) = scan p key xs := by
  unfold scan
  rw [List.zipIdx_map, List.foldl_map]
  congr 1
  funext acc e
  simp only [step, Prod.map_fst, Prod.map_snd, id_eq, hq, hkey]

/-- Where everything is a candidate, the scan is a loop over the rest of the list that
starts at the first element. -/
theorem scan_cons_of_all (hp : ∀ a, p a) (a : α) (xs : List α) :
    scan p key (a :: xs) = some ((xs.zipIdx 1).foldl
      (fun acc e => if key e.1 < acc.2 then (e.2, key e.1) else acc) (0, key a)) := by
  have hloop : ∀ (es : List (α × ℕ)) (acc : ℕ × κ), es.foldl (step p key) (some acc) =
      some (es.foldl (fun acc e => if key e.1 < acc.2 then (e.2, key e.1) else acc) acc) := by
    intro es
    induction es with
    | nil => intro acc; rfl
    | cons e es ih =>
      intro acc
      rw [List.foldl_cons, List.foldl_cons, ← ih]
      simp only [step, hp, if_true]
      split_ifs <;> rfl
  rw [scan, List.zipIdx_cons, List.foldl_cons, ← hloop]
  simp only [step, hp, if_true, Nat.zero_add]

theorem scan_eq_none_iff (xs : List α) : scan p key xs = none ↔ ∀ a ∈ xs, ¬ p a := by
  have h : Spec p key xs (scan p key xs) := scan_spec xs
  rcases hs : scan p key xs with _ | ⟨i, k⟩
  · rw [hs] at h
    exact iff_of_true rfl h
  · rw [hs] at h
    obtain ⟨a, ha, -⟩ := h
    exact iff_of_false (by simp) fun hn => hn a (List.mem_of_getElem? ha.get) ha.cand

theorem scan_index_iff (xs : List α) (i : ℕ) :
    (scan p key xs).map Prod.fst = some i ↔ ∃ a, FirstMin p key xs i a := by
  have h : Spec p key xs (scan p key xs) := scan_spec xs
  rcases hs : scan p key xs with _ | ⟨j, k⟩
  · rw [hs] at h
    refine iff_of_false (by simp) ?_
    rintro ⟨a, ha⟩
    exact h a (List.mem_of_getElem? ha.get) ha.cand
  · rw [hs] at h
    obtain ⟨a, ha, -⟩ := h
    simp only [Option.map_some, Option.some.injEq]
    refine ⟨?_, ?_⟩
    · rintro rfl
      exact ⟨a, ha⟩
    · rintro ⟨b, hb⟩
      exact ha.unique hb

/-- The scan with a largest key in place of an empty accumulator: a candidate
at the sentinel itself is never taken. -/
def sentinelScan (p : α → Prop) [DecidablePred p] (key : α → κ) (top : κ) (xs : List α) : κ × Option ℕ :=
  xs.zipIdx.foldl (fun acc e =>
    if p e.1 ∧ key e.1 < acc.1 then (key e.1, some e.2) else acc) (top, none)

theorem sentinelScan_eq (top : κ) (xs : List α) :
    sentinelScan p key top xs =
      ((scan (fun a => p a ∧ key a < top) key xs).map fun best => (best.2, some best.1)).getD
        (top, none) := by
  induction xs using List.reverseRecOn with
  | nil => rfl
  | append_singleton xs a ih =>
    have hspec : Spec (fun a => p a ∧ key a < top) key xs _ := scan_spec xs
    rw [sentinelScan, List.zipIdx_append, List.foldl_append, ← sentinelScan, ih, scan_snoc]
    rcases hs : scan (fun a => p a ∧ key a < top) key xs with _ | ⟨i, k⟩
    · by_cases ha : p a ∧ key a < top <;> simp [step, ha]
    · rw [hs] at hspec
      obtain ⟨b, hb, rfl⟩ := hspec
      by_cases hlt : p a ∧ key a < key b
      · have hstep : step (fun a => p a ∧ key a < top) key (some (i, key b)) (a, xs.length) =
            some (xs.length, key a) := by
          simp [step, hlt.1, hlt.2, hlt.2.trans hb.cand.2]
        simp [hlt, hstep]
      · have hstep : step (fun a => p a ∧ key a < top) key (some (i, key b)) (a, xs.length) =
            some (i, key b) := by
          simp only [step]
          split_ifs with hcand hless
          · exact absurd ⟨hcand.1, hless⟩ hlt
          · rfl
          · rfl
        rw [hstep]
        exact if_neg hlt

/-- Where some candidate lies below the sentinel, it finds what the scan finds. -/
theorem sentinelScan_index {top : κ} {xs : List α} (h : ∃ a ∈ xs, p a ∧ key a < top) :
    (sentinelScan p key top xs).2 = (scan p key xs).map Prod.fst := by
  obtain ⟨a, hmem, ha, hlt⟩ := h
  have hspec : Spec (fun a => p a ∧ key a < top) key xs _ := scan_spec xs
  rw [sentinelScan_eq]
  rcases hs : scan (fun a => p a ∧ key a < top) key xs with _ | ⟨i, k⟩
  · rw [hs] at hspec
    exact absurd ⟨ha, hlt⟩ (hspec a hmem)
  · rw [hs] at hspec
    obtain ⟨b, hb, rfl⟩ := hspec
    have hfirst : FirstMin p key xs i b := by
      refine ⟨hb.get, hb.cand.1, fun j c hc hpc => ?_, fun j c hj hc hpc => ?_⟩
      · rcases lt_or_ge (key c) top with hct | hct
        · exact hb.least j c hc ⟨hpc, hct⟩
        · exact hb.cand.2.le.trans hct
      · rcases lt_or_ge (key c) top with hct | hct
        · exact hb.first j c hj hc ⟨hpc, hct⟩
        · exact hb.cand.2.trans_le hct
    rw [(scan_index_iff xs i).mpr ⟨b, hfirst⟩]
    rfl

theorem sentinelScan_none {top : κ} {xs : List α} (h : ¬ ∃ a ∈ xs, p a ∧ key a < top) :
    (sentinelScan p key top xs).2 = none := by
  push Not at h
  rw [sentinelScan_eq, (scan_eq_none_iff xs).mpr fun a ha hp => absurd hp.2 (not_lt.mpr (h a ha hp.1))]
  rfl

end Scan

end MinScan
