import ApexCfs.Lib.ChangeLog
import ApexCfs.Proofs.Recorded

/-! Experiment 3, the dynamic spike. Its log holds the state changes of the
controller up to the length of the array, the reaction and recovery times are
read off it, and the statistics of a phase are those of its passes. -/

namespace ApexCfs

open Idealised Extremum Hysteresis ChangeLog

theorem Outside.comp {f g : CfsRq → CfsRq} (hf : Outside f) (hg : Outside g) :
    Outside fun rq => g (f rq) := by
  intro rq
  obtain ⟨hs, ht, hm⟩ := hf rq
  obtain ⟨hs', ht', hm'⟩ := hg (f rq)
  exact ⟨hs'.trans hs, ht'.trans ht, hm'.trans hm⟩

theorem outside_recount (c : Prop) [Decidable c] (f : List CfsTask → List CfsTask) :
    Outside fun rq => if c then rqCountRunning { rq with tasks := f rq.tasks } else rq := by
  intro rq
  simp only [rqCountRunning]
  split_ifs <;> exact ⟨rfl, rfl, rfl⟩

theorem outside_spikeSwitch (i : ℕ) : Outside fun rq => spikeSwitch rq i :=
  (outside_recount (i = PHASE1_END) fun tasks => setRunnables tasks PHASE1_TASKS PHASE2_TASKS 1).comp
    (outside_recount (i = PHASE2_END) fun tasks => setRunnables tasks PHASE3_TASKS MAX_TASKS 0)

def spikeRun : ℕ → CfsRq := recordedRun spikeTasks fun i rq => spikeSwitch rq i

def spikeState (k : ℕ) : ℤ := (spikeRun k).apafState

def spikePhase (i : ℕ) : ℕ := if PHASE2_END ≤ i then 3 else if PHASE1_END ≤ i then 2 else 1

def spikeEvent (i : ℕ) : TransitionEvent :=
  { tick := i
    oldState := spikeState i
    newState := spikeState (i + 1)
    jainAtTransition := (spikeRun (i + 1)).jainIndex
    phase := spikePhase i }

def phasePasses (k phase : ℕ) : List ℕ := (List.range k).filter fun i => spikePhase i = phase

def phaseAcc (k phase : ℕ) : PhaseAcc :=
  (phasePasses k phase).foldl (fun acc i => acc.step (spikePhase i) (spikeRun (i + 1)) i) .init

/-- What the loop has computed after `k` passes. -/
structure Spiked (k : ℕ) (s : Exp3State) : Prop where
  apafRq : s.apafRq = spikeRun k
  prevApafState : s.prevApafState = spikeState k
  currentPhase : s.currentPhase = spikePhase (k - 1)
  transitions : s.transitions = ((ChangeLog.changes spikeState k).map spikeEvent).take MAX_TRANSITIONS
  phases : s.phases = [phaseAcc k 1, phaseAcc k 2, phaseAcc k 3]

theorem spikePhase_succ (k : ℕ) : (if k = PHASE2_END then 3 else if k = PHASE1_END then 2
    else spikePhase (k - 1)) = spikePhase k := by
  grind [spikePhase, PHASE1_END, PHASE2_END]

theorem spikePhase_cases (k : ℕ) : spikePhase k = 1 ∨ spikePhase k = 2 ∨ spikePhase k = 3 := by
  unfold spikePhase
  split_ifs <;> simp

theorem phaseAcc_succ (k phase : ℕ) : phaseAcc (k + 1) phase =
    if spikePhase k = phase then (phaseAcc k phase).step (spikePhase k) (spikeRun (k + 1)) k
    else phaseAcc k phase := by
  rw [phaseAcc, phasePasses, List.range_succ, List.filter_append, List.foldl_append]
  by_cases h : spikePhase k = phase
  · rw [if_pos h, List.filter_singleton, decide_eq_true h]
    rfl
  · rw [if_neg h, List.filter_singleton, decide_eq_false h]
    rfl

theorem exp3Log_eq (s : Exp3State) (i : ℕ) : exp3Log s i =
    { s with
      transitions := if s.apafRq.apafState ≠ s.prevApafState then
        if s.transitions.length < MAX_TRANSITIONS then
          s.transitions ++ [{ tick := i
                              oldState := s.prevApafState
                              newState := s.apafRq.apafState
                              jainAtTransition := s.apafRq.jainIndex
                              phase := s.currentPhase }]
        else s.transitions
        else s.transitions
      prevApafState := s.apafRq.apafState } := by
  unfold exp3Log
  by_cases h : s.apafRq.apafState = s.prevApafState
  · rw [if_neg (not_not.mpr h), if_neg (not_not.mpr h), h]
  · rw [if_pos h, if_pos h]

theorem Spiked.step {k : ℕ} {s : Exp3State} (h : Spiked k s) : Spiked (k + 1) (exp3Step s k) := by
  have hrun : apafTick (spikeSwitch s.apafRq k) = spikeRun (k + 1) := by
    rw [h.apafRq]
    rfl
  have hphase : (if k = PHASE2_END then 3 else if k = PHASE1_END then 2 else s.currentPhase) =
      spikePhase k := by
    rw [h.currentPhase]
    exact spikePhase_succ k
  simp only [exp3Step, exp3Log_eq, hrun, hphase]
  refine ⟨rfl, rfl, rfl, ?_, ?_⟩
  · rw [h.transitions, h.prevApafState, changes_succ, List.map_append]
    by_cases hk : spikeState (k + 1) = spikeState k
    · have hk' : (spikeRun (k + 1)).apafState = spikeState k := hk
      simp [hk, hk']
    · have hk' : (spikeRun (k + 1)).apafState ≠ spikeState k := hk
      rw [if_pos hk', if_pos hk]
      exact append_while_room _ _ _
  · rw [h.phases, phaseAcc_succ, phaseAcc_succ, phaseAcc_succ]
    rcases spikePhase_cases k with hp | hp | hp <;> rw [hp] <;> rfl

theorem spiked (exactBuf apafBuf : List Metrics) (k : ℕ) : Spiked k (exp3Loop k exactBuf apafBuf) := by
  induction k with
  | zero => exact ⟨rfl, rfl, rfl, rfl, rfl⟩
  | succ k ih =>
    have hsucc : exp3Loop (k + 1) exactBuf apafBuf = exp3Step (exp3Loop k exactBuf apafBuf) k := by
      rw [exp3Loop, List.range_succ, List.foldl_append]
      rfl
    rw [hsucc]
    exact ih.step

/-- The APAF runqueue of the loop after `k` passes does not depend on the buffers. -/
theorem exp3_apafRq (exactBuf apafBuf : List Metrics) (k : ℕ) :
    (exp3Loop k exactBuf apafBuf).apafRq = spikeRun k :=
  (spiked exactBuf apafBuf k).apafRq

/-- A logged move: at a controller tick, by one level, across a threshold of the
state it leaves. -/
structure TransitionEvent.Legal (e : TransitionEvent) : Prop where
  tick : (e.tick + 1) % 4 = 0
  move : |e.newState - e.oldState| = 1
  threshold : ∃ q, e.jainAtTransition = .fin q ∧
    (e.oldState < e.newState ∧ apafLadder.up e.oldState < q ∨
      e.newState < e.oldState ∧ q < apafLadder.down e.oldState)
  phase : e.phase = spikePhase e.tick

structure TransitionEvent.Follows (e f : TransitionEvent) : Prop where
  state : f.oldState = e.newState
  tick : e.tick + 4 ≤ f.tick
  /-- moves in opposite directions record distant indices -/
  apart : (e.oldState < e.newState ↔ f.newState < f.oldState) →
    ∃ p q, e.jainAtTransition = .fin p ∧ f.jainAtTransition = .fin q ∧ 4 / 100 < |p - q|

theorem spike_step (k : ℕ) : Step apafLadder (spikeState k) (spikeRun (k + 1)).jainIndex.toRat
      (spikeState (k + 1)) ∧
    (spikeState (k + 1) ≠ spikeState k →
      (k + 1) % 4 = 0 ∧ ∃ q, (spikeRun (k + 1)).jainIndex = .fin q) :=
  recordedRun_step outside_spikeSwitch spikeTasks k

theorem legal_spikeEvent {k : ℕ} (h : spikeState (k + 1) ≠ spikeState k) : (spikeEvent k).Legal := by
  obtain ⟨hstep, hmove⟩ := spike_step k
  obtain ⟨htick, q, hq⟩ := hmove h
  rw [hq, Double.toRat_fin] at hstep
  rcases hstep.cases_move with he | ⟨he, hup⟩ | ⟨he, hdown⟩
  · exact absurd he h
  · have hlt : spikeState k < spikeState (k + 1) := by omega
    refine ⟨htick, ?_, ⟨q, hq, Or.inl ⟨hlt, hup⟩⟩, rfl⟩
    change |spikeState (k + 1) - spikeState k| = 1
    rw [he, add_sub_cancel_left, abs_one]
  · have hlt : spikeState (k + 1) < spikeState k := by omega
    refine ⟨htick, ?_, ⟨q, hq, Or.inr ⟨hlt, hdown⟩⟩, rfl⟩
    change |spikeState (k + 1) - spikeState k| = 1
    rw [he, sub_sub_cancel_left, abs_neg, abs_one]

theorem follows_spikeEvent {a b : ℕ} (hab : a < b) (ha : spikeState (a + 1) ≠ spikeState a)
    (hb : spikeState (b + 1) ≠ spikeState b) (hvalue : spikeState b = spikeState (a + 1))
    (hflat : Flat spikeState (a + 1) b) : (spikeEvent a).Follows (spikeEvent b) := by
  obtain ⟨hta, p, hp⟩ := (spike_step a).2 ha
  obtain ⟨htb, q, hq⟩ := (spike_step b).2 hb
  refine ⟨hvalue, ?_, fun hopp => ⟨p, q, hp, hq, ?_⟩⟩
  · change a + 4 ≤ b
    omega
  · have hgap := gap_lt_of_opposite (fun k => (spike_step k).1) hab ha hb
      (fun k hak hkb => hflat k hak hkb) hopp
    rw [hp, hq] at hgap
    exact hgap

theorem log_legal {ticks : ℕ} {exactBuf apafBuf : List Metrics} {e : TransitionEvent}
    (he : e ∈ (exp3Loop ticks exactBuf apafBuf).transitions) :
    e.Legal ∧ e.tick < ticks ∧ spikeState e.tick = e.oldState ∧
      spikeState (e.tick + 1) = e.newState := by
  rw [(spiked exactBuf apafBuf ticks).transitions] at he
  obtain ⟨i, hi, rfl⟩ := List.mem_map.mp (List.mem_of_mem_take he)
  obtain ⟨hlt, hchange⟩ := mem_changes.mp hi
  exact ⟨legal_spikeEvent hchange, hlt, rfl, rfl⟩

/-- The log of the first `ticks` passes: legal moves, each from the state the one
before it left, of which none is missing while the array has room. -/
theorem exp3_log (ticks : ℕ) (exactBuf apafBuf : List Metrics) :
    (∀ e ∈ (exp3Loop ticks exactBuf apafBuf).transitions, e.Legal ∧ e.tick < ticks ∧
      (exp3Loop e.tick exactBuf apafBuf).apafRq.apafState = e.oldState ∧
      (exp3Loop (e.tick + 1) exactBuf apafBuf).apafRq.apafState = e.newState) ∧
    (exp3Loop ticks exactBuf apafBuf).transitions.IsChain TransitionEvent.Follows ∧
    (∀ e ∈ (exp3Loop ticks exactBuf apafBuf).transitions.head?, e.oldState = APAF_MEDIUM) ∧
    (exp3Loop ticks exactBuf apafBuf).transitions.length ≤ MAX_TRANSITIONS ∧
    ((exp3Loop ticks exactBuf apafBuf).transitions.length < MAX_TRANSITIONS →
      (exp3Loop ticks exactBuf apafBuf).apafRq.apafState =
        ((exp3Loop ticks exactBuf apafBuf).transitions.getLast?.map
          TransitionEvent.newState).getD APAF_MEDIUM ∧
      ∀ i < ticks, (exp3Loop (i + 1) exactBuf apafBuf).apafRq.apafState ≠
          (exp3Loop i exactBuf apafBuf).apafRq.apafState →
        ∃ e ∈ (exp3Loop ticks exactBuf apafBuf).transitions, e.tick = i) := by
  obtain ⟨hchain, hhead⟩ := changes_chain (s := spikeState) ticks
  have hinit : spikeState 0 = APAF_MEDIUM := rfl
  simp only [exp3_apafRq]
  refine ⟨fun e he => log_legal he, ?_⟩
  rw [(spiked exactBuf apafBuf ticks).transitions]
  refine ⟨?_, fun e he => ?_, List.length_take_le _ _, fun hroom => ?_⟩
  · refine ((List.isChain_map spikeEvent).mpr ?_).take _
    refine hchain.imp_of_mem_imp fun a b ha hb h => ?_
    exact follows_spikeEvent h.1 (mem_changes.mp ha).2 (mem_changes.mp hb).2 h.2.1 h.2.2
  · rw [List.head?_take, if_neg (by decide), List.head?_map] at he
    obtain ⟨a, ha, rfl⟩ := Option.map_eq_some_iff.mp he
    exact (hhead a ha).1.trans hinit
  · rw [List.length_take, List.length_map] at hroom
    have hall : ((ChangeLog.changes spikeState ticks).map spikeEvent).take MAX_TRANSITIONS =
        (ChangeLog.changes spikeState ticks).map spikeEvent :=
      List.take_of_length_le (by rw [List.length_map]; omega)
    rw [hall]
    refine ⟨?_, fun i hi hchange => ?_⟩
    · rw [List.getLast?_map, Option.map_map, ← hinit]
      exact value_after (s := spikeState) ticks
    · exact ⟨spikeEvent i, List.mem_map_of_mem (mem_changes.mpr ⟨hi, hchange⟩), rfl⟩

theorem ticksUntilChange_eq (transitions : List TransitionEvent) (start : ℕ) :
    ticksUntilChange transitions start =
      (transitions.find? fun e => start ≤ e.tick).map fun e => e.tick - start := by
  have hfound : ∀ (l : List TransitionEvent) (n : ℕ),
      l.foldl (firstChange start) (some n) = some n := by
    intro l n
    induction l with
    | nil => rfl
    | cons e l ih => exact ih
  induction transitions with
  | nil => rfl
  | cons e l ih =>
    have hfirst : firstChange start none e = if e.tick ≥ start then some (e.tick - start) else none :=
      rfl
    rw [ticksUntilChange, List.foldl_cons, List.find?_cons, hfirst]
    by_cases he : start ≤ e.tick
    · rw [if_pos he, decide_eq_true he]
      exact hfound l (e.tick - start)
    · rw [if_neg he, decide_eq_false he]
      exact ih

/-- The reaction time from a tick on is the wait for the next state change, even when
the log is full; without one, and with room in the log, the state never changed. -/
theorem exp3_reaction (ticks start : ℕ) (exactBuf apafBuf : List Metrics) :
    (∀ d, ticksUntilChange (exp3Loop ticks exactBuf apafBuf).transitions start = some d →
      start + d < ticks ∧ (start + d + 1) % 4 = 0 ∧
      (exp3Loop (start + d + 1) exactBuf apafBuf).apafRq.apafState ≠
        (exp3Loop (start + d) exactBuf apafBuf).apafRq.apafState ∧
      ∀ i, start ≤ i → i < start + d → (exp3Loop (i + 1) exactBuf apafBuf).apafRq.apafState =
        (exp3Loop i exactBuf apafBuf).apafRq.apafState) ∧
    (ticksUntilChange (exp3Loop ticks exactBuf apafBuf).transitions start = none →
      (exp3Loop ticks exactBuf apafBuf).transitions.length < MAX_TRANSITIONS →
      ∀ i, start ≤ i → i < ticks → (exp3Loop (i + 1) exactBuf apafBuf).apafRq.apafState =
        (exp3Loop i exactBuf apafBuf).apafRq.apafState) := by
  have hfind : ((exp3Loop ticks exactBuf apafBuf).transitions.find? fun e => start ≤ e.tick) =
      (((ChangeLog.changes spikeState ticks).take MAX_TRANSITIONS).find?
        fun i => start ≤ i).map spikeEvent := by
    rw [(spiked exactBuf apafBuf ticks).transitions, ← List.map_take, List.find?_map]
    rfl
  rw [ticksUntilChange_eq, hfind]
  simp only [exp3_apafRq]
  refine ⟨fun d hd => ?_, fun hnone hroom => ?_⟩
  · rw [Option.map_map] at hd
    obtain ⟨a, ha, had⟩ := Option.map_eq_some_iff.mp hd
    obtain ⟨hsa, hlt, hchange, hflat⟩ := flat_of_find_eq_some ha
    have hwait : a - start = d := had
    obtain rfl : a = start + d := by omega
    exact ⟨hlt, ((spike_step _).2 hchange).1, hchange, hflat⟩
  · rw [(spiked exactBuf apafBuf ticks).transitions, ← List.map_take, List.length_map] at hroom
    rw [Option.map_eq_none_iff, Option.map_eq_none_iff] at hnone
    exact flat_of_find_eq_none hnone hroom

/-- `state_counts[i][state]` -/
def PhaseAcc.count (acc : PhaseAcc) (state : ℤ) : ℕ :=
  if state = APAF_TIGHT then acc.tight
  else if state = APAF_MEDIUM then acc.medium
  else acc.loose

end ApexCfs
