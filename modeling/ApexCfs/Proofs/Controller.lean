import ApexCfs.Lib.Hysteresis
import ApexCfs.Proofs.Tick

/-! The APAF controller never oscillates. Over any run from `rq_init` its state
moves on a ladder of three levels whose thresholds leave a gap of 0.04 between a
climb and the descent that would undo it. -/

namespace ApexCfs

open Idealised Machine Hysteresis

def CfsRq.after (rq : CfsRq) (ops : List Op) (k : ℕ) : CfsRq := runOps rq (ops.take k)

/-- Event `k` of a history runs the controller: an APAF tick that picks a task
and whose tick counter is a multiple of 4. -/
def monitored (rq : CfsRq) (ops : List Op) (k : ℕ) : Prop :=
  ops[k]? = some (.tick .apaf) ∧ exactPickNextTask (rq.after ops k) ≠ none ∧
    (rq.after ops (k + 1)).tick % 4 = 0

def changes (rq : CfsRq) (ops : List Op) (k : ℕ) : Prop :=
  (rq.after ops (k + 1)).apafState ≠ (rq.after ops k).apafState

structure NonOscillating (rq : CfsRq) (ops : List Op) : Prop where
  levels : ∀ k, (rq.after ops k).apafState = APAF_TIGHT ∨
    (rq.after ops k).apafState = APAF_MEDIUM ∨ (rq.after ops k).apafState = APAF_LOOSE
  /-- only the controller changes the state, by one level -/
  change : ∀ k, changes rq ops k → monitored rq ops k ∧
    |(rq.after ops (k + 1)).apafState - (rq.after ops k).apafState| = 1
  /-- consecutive changes in opposite directions record distant indices -/
  opposite : ∀ a b, a < b → changes rq ops a → changes rq ops b →
    (∀ k, a < k → k < b → ¬ changes rq ops k) →
    ((rq.after ops a).apafState < (rq.after ops (a + 1)).apafState ↔
      (rq.after ops (b + 1)).apafState < (rq.after ops b).apafState) →
    ∃ p q, (rq.after ops (a + 1)).jainIndex = .fin p ∧
      (rq.after ops (b + 1)).jainIndex = .fin q ∧ 4 / 100 < |p - q|
  /-- a stretch of close indices sees at most two changes, in one direction -/
  stretch : ∀ (a b : ℕ) (lo hi : ℚ), a ≤ b → hi - lo ≤ 4 / 100 →
    (∀ k, a ≤ k → k < b → monitored rq ops k →
      ∀ q, (rq.after ops (k + 1)).jainIndex = .fin q → lo ≤ q ∧ q ≤ hi) →
    ((Finset.Ico a b).filter fun k =>
      (rq.after ops (k + 1)).apafState ≠ (rq.after ops k).apafState).card ≤ 2 ∧
    ((∀ k, a ≤ k → k < b → (rq.after ops k).apafState ≤ (rq.after ops (k + 1)).apafState) ∨
      (∀ k, a ≤ k → k < b → (rq.after ops (k + 1)).apafState ≤ (rq.after ops k).apafState))

theorem thresholds_apart (l : ℤ) :
    (if l + 1 = APAF_LOOSE then 93 / 100 else 90 / 100 : ℚ) + 4 / 100 ≤
      if l = APAF_TIGHT then 95 / 100 else 97 / 100 := by
  by_cases hd : l + 1 = APAF_LOOSE
  · have hu : l ≠ APAF_TIGHT := by
      simp only [APAF_LOOSE, APAF_TIGHT] at hd ⊢
      omega
    rw [if_pos hd, if_neg hu]
    norm_num
  · rw [if_neg hd]
    split_ifs <;> norm_num

/-- The thresholds of `fairness_apaf_next_state`, the states as levels. -/
def apafLadder : Ladder ℚ where
  up l := if l = APAF_TIGHT then 95 / 100 else 97 / 100
  down l := if l = APAF_LOOSE then 93 / 100 else 90 / 100
  gap := 4 / 100
  down_add_gap_le := thresholds_apart

theorem jainIndex_range (rq : CfsRq) :
    fairnessJainIndex rq = .nan ∨ ∃ q, fairnessJainIndex rq = .fin q ∧ 0 ≤ q ∧ q ≤ 1 := by
  have hone : ∃ q, Double.fin 1 = .fin q ∧ 0 ≤ q ∧ q ≤ 1 := ⟨1, rfl, zero_le_one, le_rfl⟩
  simp only [fairnessJainIndex]
  split_ifs
  · exact Or.inr hone
  · exact Or.inr hone
  · exact Or.inr hone
  · exact Double.clampUnit_range _

theorem nextState_nan (state : ℤ) : fairnessApafNextState state .nan = state := by
  have hclamp : Double.nan.clampUnit = .nan := by simp [Double.clampUnit]
  simp only [fairnessApafNextState, hclamp, Double.nan_lt, Double.lt_nan, if_false]
  split_ifs with hl hm ht
  · exact hl.symm
  · exact hm.symm
  · exact ht.symm
  · rfl

/-- On a number the transition function is one step on the ladder. -/
theorem nextState_step {state : ℤ} (h0 : 0 ≤ state) (h2 : state ≤ 2) {q : ℚ} (hq0 : 0 ≤ q)
    (hq1 : q ≤ 1) :
    Step apafLadder state q (fairnessApafNextState state (.fin q)) ∧
      0 ≤ fairnessApafNextState state (.fin q) ∧ fairnessApafNextState state (.fin q) ≤ 2 := by
  simp only [fairnessApafNextState, Double.clampUnit_fin hq0 hq1, JAIN_LOOSE_TO_MEDIUM,
    JAIN_MEDIUM_TO_TIGHT, JAIN_MEDIUM_TO_LOOSE, JAIN_TIGHT_TO_MEDIUM, Double.fin_lt_fin]
  rcases (by omega : state = 0 ∨ state = 1 ∨ state = 2) with rfl | rfl | rfl
  · simp only [APAF_LOOSE, APAF_MEDIUM, APAF_TIGHT, OfNat.zero_ne_ofNat, zero_ne_one, if_false, if_true]
    split_ifs with hup
    · exact ⟨.climb (L := apafLadder) (l := 0) hup, by decide, by decide⟩
    · exact ⟨.rest _ _, by decide, by decide⟩
  · simp only [APAF_LOOSE, APAF_MEDIUM, APAF_TIGHT, OfNat.one_ne_ofNat, if_false, if_true]
    split_ifs with hdown hup
    · exact ⟨.descend (L := apafLadder) (l := 1) hdown, by decide, by decide⟩
    · exact ⟨.climb (L := apafLadder) (l := 1) hup, by decide, by decide⟩
    · exact ⟨.rest _ _, by decide, by decide⟩
  · simp only [APAF_LOOSE, APAF_MEDIUM, if_true]
    split_ifs with hdown
    · exact ⟨.descend (L := apafLadder) (l := 2) hdown, by decide, by decide⟩
    · exact ⟨.rest _ _, by decide, by decide⟩

/-- What an event of an APAF history does to the state: a step on the ladder at
the index it records, and nothing unless the controller runs. -/
theorem apply_controller {op : Op} (hm : op.isMode .apaf) {rq : CfsRq} (h0 : 0 ≤ rq.apafState)
    (h2 : rq.apafState ≤ 2) :
    Step apafLadder rq.apafState (op.apply rq).jainIndex.toRat (op.apply rq).apafState ∧
      (0 ≤ (op.apply rq).apafState ∧ (op.apply rq).apafState ≤ 2) ∧
      ((op.apply rq).apafState ≠ rq.apafState →
        op = .tick .apaf ∧ exactPickNextTask rq ≠ none ∧ (op.apply rq).tick % 4 = 0 ∧
          ∃ q, (op.apply rq).jainIndex = .fin q) := by
  cases op with
  | setRunnable i r => exact ⟨.rest _ _, ⟨h0, h2⟩, fun h => absurd rfl h⟩
  | tick m =>
    obtain rfl : m = .apaf := hm
    have hrest : (Op.apply rq (.tick .apaf)).apafState = rq.apafState →
        Step apafLadder rq.apafState (Op.apply rq (.tick .apaf)).jainIndex.toRat
          (Op.apply rq (.tick .apaf)).apafState := by
      intro h
      rw [h]
      exact .rest _ _
    rcases hp : exactPickNextTask rq with _ | i
    · have hs : (Op.apply rq (.tick .apaf)).apafState = rq.apafState := by
        rw [Op.apply, tick_idle (by decide) hp, rqTick_apafState]
      exact ⟨hrest hs, by rw [hs]; exact ⟨h0, h2⟩, fun h => absurd hs h⟩
    · have ht : Op.apply rq (.tick .apaf) = mirrorTick .apaf rq := tick_of_pick .apaf hp
      by_cases hmon : (rq.tick + 1) % APAF_MONITOR_INTERVAL = 0
      · have hs : (mirrorTick .apaf rq).apafState =
            fairnessApafNextState rq.apafState (mirrorTick .apaf rq).jainIndex := by
          rw [mirrorTick_apafState, if_pos ⟨rfl, hmon⟩]
        have hj := jainIndex_range (mirrorTick .apaf rq)
        rw [← mirrorTick_jainIndex] at hj
        rcases hj with hnan | ⟨q, hq, hq0, hq1⟩
        · have hsame : (Op.apply rq (.tick .apaf)).apafState = rq.apafState := by
            rw [ht, hs, hnan, nextState_nan]
          exact ⟨hrest hsame, by rw [hsame]; exact ⟨h0, h2⟩, fun h => absurd hsame h⟩
        · rw [ht, hs, hq]
          obtain ⟨hstep, hrange⟩ := nextState_step h0 h2 hq0 hq1
          refine ⟨hstep, hrange, fun _ => ⟨rfl, by simp, ?_, q, rfl⟩⟩
          rw [mirrorTick_tick]
          exact hmon
      · have hs : (Op.apply rq (.tick .apaf)).apafState = rq.apafState := by
          rw [ht, mirrorTick_apafState, if_neg fun h => hmon h.2]
        exact ⟨hrest hs, by rw [hs]; exact ⟨h0, h2⟩, fun h => absurd hs h⟩

theorem after_succ {rq : CfsRq} {ops : List Op} {k : ℕ} {op : Op} (h : ops[k]? = some op) :
    rq.after ops (k + 1) = op.apply (rq.after ops k) :=
  run_take_succ rq ops h

theorem after_succ_of_none {rq : CfsRq} {ops : List Op} {k : ℕ} (h : ops[k]? = none) :
    rq.after ops (k + 1) = rq.after ops k := by
  have hlen := List.getElem?_eq_none_iff.mp h
  rw [CfsRq.after, CfsRq.after, List.take_of_length_le hlen, List.take_of_length_le (by omega)]

/-- The step lemma along a run: a move on the ladder, and the facts of a change. -/
theorem after_step {rq : CfsRq} {ops : List Op} (hm : ∀ op ∈ ops, op.isMode .apaf) {k : ℕ}
    (h0 : 0 ≤ (rq.after ops k).apafState) (h2 : (rq.after ops k).apafState ≤ 2) :
    Step apafLadder (rq.after ops k).apafState (rq.after ops (k + 1)).jainIndex.toRat
        (rq.after ops (k + 1)).apafState ∧
      (0 ≤ (rq.after ops (k + 1)).apafState ∧ (rq.after ops (k + 1)).apafState ≤ 2) ∧
      (changes rq ops k → monitored rq ops k ∧
        ∃ q, (rq.after ops (k + 1)).jainIndex = .fin q) := by
  rcases hop : ops[k]? with _ | op
  · rw [after_succ_of_none hop]
    exact ⟨.rest _ _, ⟨h0, h2⟩, fun h => absurd (congrArg CfsRq.apafState (after_succ_of_none hop)) h⟩
  · obtain ⟨hstep, hrange, hchange⟩ := apply_controller (hm op (List.mem_of_getElem? hop)) h0 h2
    rw [← after_succ hop] at hstep hrange hchange
    refine ⟨hstep, hrange, fun h => ?_⟩
    obtain ⟨rfl, hp, ht, hq⟩ := hchange h
    exact ⟨⟨hop, hp, ht⟩, hq⟩

theorem after_range (tasks : List CfsTask) (mode : ℤ) {ops : List Op}
    (hm : ∀ op ∈ ops, op.isMode .apaf) (k : ℕ) :
    0 ≤ ((rqInit tasks mode).after ops k).apafState ∧
      ((rqInit tasks mode).after ops k).apafState ≤ 2 := by
  induction k with
  | zero =>
    have h : ((rqInit tasks mode).after ops 0).apafState = APAF_MEDIUM := rfl
    rw [h]
    decide
  | succ k ih => exact (after_step hm ih.1 ih.2).2.1

/-- The run of any task set under APAF ticks and any blocking and waking. -/
theorem controller_never_oscillates (tasks : List CfsTask) (mode : ℤ) (ops : List Op)
    (hm : ∀ op ∈ ops, op.isMode .apaf) : NonOscillating (rqInit tasks mode) ops := by
  have hrange := after_range tasks mode hm
  have hfacts := fun k => after_step hm (hrange k).1 (hrange k).2
  have hstep : ∀ k, Step apafLadder ((rqInit tasks mode).after ops k).apafState
      ((rqInit tasks mode).after ops (k + 1)).jainIndex.toRat
      ((rqInit tasks mode).after ops (k + 1)).apafState := fun k => (hfacts k).1
  refine ⟨?_, ?_, ?_, ?_⟩
  · intro k
    obtain ⟨h0, h2⟩ := hrange k
    simp only [APAF_TIGHT, APAF_MEDIUM, APAF_LOOSE]
    omega
  · intro k hk
    refine ⟨((hfacts k).2.2 hk).1, ?_⟩
    rcases move_eq_one hstep k hk with h | h
    · rw [h, add_sub_cancel_left, abs_one]
    · rw [h, sub_sub_cancel_left, abs_neg, abs_one]
  · intro a b hab ha hb hflat hopp
    obtain ⟨p, hp⟩ := ((hfacts a).2.2 ha).2
    obtain ⟨q, hq⟩ := ((hfacts b).2.2 hb).2
    have hgap := gap_lt_of_opposite hstep hab ha hb
      (fun k hak hkb => not_not.mp (hflat k hak hkb)) hopp
    simp only [hp, hq, Double.toRat_fin] at hgap
    exact ⟨p, q, hp, hq, hgap⟩
  · intro a b lo hi hab hwidth hwin
    -- the value observed at a change is one of the monitored ones
    have hval : ∀ k, a ≤ k → k < b → changes (rqInit tasks mode) ops k →
        lo ≤ ((rqInit tasks mode).after ops (k + 1)).jainIndex.toRat ∧
          ((rqInit tasks mode).after ops (k + 1)).jainIndex.toRat ≤ hi := by
      intro k hak hkb hk
      obtain ⟨hmon, q, hq⟩ := (hfacts k).2.2 hk
      rw [hq]
      exact hwin k hak hkb hmon q hq
    refine moves_of_stretch (n := 2) hstep hab (fun k => (hrange k).1) (fun k => (hrange k).2) ?_
    intro k l hak hkb hal hlb hk hl
    have h1 := (hval k hak hkb hk).2
    have h2 := (hval l hal hlb hl).1
    change _ ≤ (4 / 100 : ℚ)
    linarith

/-- Two tasks, the second of which blocks and wakes while the first keeps running. -/
theorem controller_never_oscillates_two :
    NonOscillating (rqInit [taskCreate 0 0, taskCreate 1 5] 3)
      (List.replicate 4 (.tick .apaf) ++ [.setRunnable 1 0] ++ List.replicate 8 (.tick .apaf) ++
        [.setRunnable 1 1] ++ List.replicate 8 (.tick .apaf)) :=
  controller_never_oscillates _ 3 _ (by decide)

end ApexCfs
