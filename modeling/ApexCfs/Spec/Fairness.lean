import ApexCfs.Spec.Task

/-! `fairness.c`: Jain's index of the runnable tasks, the transition function of the
APAF controller, and the CPU shares with the ideal ones. -/

namespace ApexCfs

open Idealised

def JAIN_LOOSE_TO_MEDIUM : Double := .fin (93 / 100)
def JAIN_MEDIUM_TO_TIGHT : Double := .fin (90 / 100)
def JAIN_MEDIUM_TO_LOOSE : Double := .fin (97 / 100)
def JAIN_TIGHT_TO_MEDIUM : Double := .fin (95 / 100)
def JAIN_MIN_TASKS : ℕ := 2

/-- The accumulators of the loop in `fairness_jain_index`. -/
structure JainSums where
  sum : UInt64
  sumSq : UInt64
  n : ℕ

def JainSums.step (acc : JainSums) (t : CfsTask) : JainSums :=
  if t.runnable = 1 then
    let x := t.execRuntime
    { sum := acc.sum + x, sumSq := acc.sumSq + x * x, n := acc.n + 1 }
  else acc

def jainSums (tasks : List CfsTask) : JainSums :=
  tasks.foldl JainSums.step { sum := 0, sumSq := 0, n := 0 }

/-- `sum * sum`, the first operand of the division. -/
def JainSums.num (s : JainSums) : UInt64 := s.sum * s.sum

/-- `n * sum_sq`, the second operand. -/
def JainSums.den (s : JainSums) : UInt64 := UInt64.ofNat s.n * s.sumSq

def fairnessJainIndex (rq : CfsRq) : Double :=
  if rq.tasks.length = 0 then .fin 1
  else
    let s := jainSums rq.tasks
    if s.n < JAIN_MIN_TASKS then .fin 1
    else if s.sum = 0 ∨ s.sumSq = 0 then .fin 1
    else .clampUnit (.quot s.num.toNat s.den.toNat)

def fairnessApafNextState (currentState : ℤ) (jain : Double) : ℤ :=
  let j := jain.clampUnit
  if currentState = APAF_LOOSE then
    if j < JAIN_LOOSE_TO_MEDIUM then APAF_MEDIUM else APAF_LOOSE
  else if currentState = APAF_MEDIUM then
    if j < JAIN_MEDIUM_TO_TIGHT then APAF_TIGHT
    else if JAIN_MEDIUM_TO_LOOSE < j then APAF_LOOSE
    else APAF_MEDIUM
  else if currentState = APAF_TIGHT then
    if JAIN_TIGHT_TO_MEDIUM < j then APAF_MEDIUM else APAF_TIGHT
  else currentState

/-- The accumulators of the first loop in `fairness_cpu_shares`. -/
structure ShareSums where
  total : UInt64
  nrRunning : ℕ

def ShareSums.step (acc : ShareSums) (t : CfsTask) : ShareSums :=
  if t.runnable = 1 then { total := acc.total + t.execRuntime, nrRunning := acc.nrRunning + 1 }
  else acc

def shareSums (tasks : List CfsTask) : ShareSums :=
  tasks.foldl ShareSums.step { total := 0, nrRunning := 0 }

def ShareSums.share (sums : ShareSums) (t : CfsTask) : ℚ :=
  if t.runnable = 1 then
    if sums.total > 0 then t.execRuntime.toNat / sums.total.toNat
    else if sums.nrRunning > 0 then 1 / sums.nrRunning
    else 0
  else 0

/-- The tasks of a runqueue that may be NULL. -/
def tasksOf (rq : Option CfsRq) : List CfsTask := (rq.map CfsRq.tasks).getD []

/-- The array `shares`, not NULL, before the call and after it; a share is an exact
rational. -/
def fairnessCpuShares (rq : Option CfsRq) (shares : List ℚ) (maxTasks : ℤ) : List ℚ :=
  if maxTasks ≤ 0 then shares
  else
    let limit := maxTasks.toNat
    let tasks := tasksOf rq
    if tasks.length = 0 then
      (List.range limit).foldl (fun shares i => shares.set i 0) shares
    else
      let limit := if tasks.length < limit then tasks.length else limit
      let sums := shareSums (tasks.take limit)
      (tasks.take limit).zipIdx.foldl (fun shares e => shares.set e.2 (sums.share e.1)) shares

def fairnessIdealShare (taskWeight totalWeight : UInt32) : ℚ :=
  if totalWeight = 0 then 0 else taskWeight.toNat / totalWeight.toNat

def fairnessTotalWeight (rq : Option CfsRq) : UInt32 :=
  let tasks := tasksOf rq
  if tasks.length = 0 then 0
  else tasks.foldl (fun total t =>
    if t.runnable = 1 then total + t.weight.toUInt32 else total) 0

end ApexCfs
