import ApexCfs.Spec.Metrics
import ApexCfs.Spec.Run

/-! The four experiments. Each drives an exact and an approximate runqueue over
equal tasks in lockstep and records every tick; the contents of a buffer that
`malloc` returns are a parameter, and its allocation does not fail. Double sums and
quotients are exact rationals, with the infinity and the NaN of a zero divisor where
the divisor can be zero. Printing and the files written at the end are left out. -/

namespace ApexCfs

open Idealised

/-- The `switch (logic)` of the tick loops: any other value ticks exactly. -/
def logicMode (logic : ℤ) : Mode :=
  if logic = 1 then .bsa
  else if logic = 2 then .clti
  else if logic = 3 then .apaf
  else .exact

@[ext]
structure Pair where
  exactRq : CfsRq
  approxRq : CfsRq
deriving DecidableEq, Repr

def Pair.init (specs : List (ℤ × ℤ)) (logic : ℤ) : Pair :=
  { exactRq := freshRq specs 0, approxRq := freshRq specs logic }

def Pair.tick (logic : ℤ) (p : Pair) : Pair :=
  { exactRq := exactTick p.exactRq, approxRq := (logicMode logic).tick p.approxRq }

/-- `task_set_runnable` on the task of the same index in both arrays. -/
def Pair.setRunnable (p : Pair) (i : ℕ) (r : ℤ) : Pair :=
  { exactRq := (Op.setRunnable i r).apply p.exactRq
    approxRq := (Op.setRunnable i r).apply p.approxRq }

/-- `metrics_record(&mbuf[i], &approx_rq, &exact_rq);` -/
def Pair.record (p : Pair) (mbuf : List Metrics) (i : ℕ) : List Metrics :=
  mbuf.modify i fun e => metricsRecord e (some p.approxRq) (some p.exactRq)

-- `exp1_equal_weight.c`

structure Exp1Result where
  nTasks : ℕ
  logic : ℤ
  ticks : ℕ
  finalJain : Double
  minJain : Double
  avgJain : Double
  maxErrorPct : ℚ
  avgErrorPct : Double
  totalOpsSaved : UInt64
  finalApafState : ℤ
  finalLoadAvg : UInt64
deriving DecidableEq, Repr

/-- The ids and nice values of `n` tasks of nice 0. -/
def equalTasks (n : ℕ) : List (ℤ × ℤ) := (List.range n).map fun i => ((i : ℤ), 0)

/-- One pass of the tick loop. -/
def exp1Step (logic : ℤ) (s : Pair × List Metrics) (i : ℕ) : Pair × List Metrics :=
  let pair := s.1.tick logic
  (pair, pair.record s.2 i)

def exp1Loop (nTasks : ℕ) (logic : ℤ) (ticks : ℕ) (mbuf : List Metrics) : Pair × List Metrics :=
  (List.range ticks).foldl (exp1Step logic)
    (Pair.init (equalTasks nTasks) logic, metricsInit mbuf ticks)

def runExperiment (nTasks : ℕ) (logic : ℤ) (ticks : ℕ) (mbuf : List Metrics) : Exp1Result :=
  let (pair, mbuf) := exp1Loop nTasks logic ticks mbuf
  let sums := summaryAcc mbuf ticks
  { nTasks := nTasks
    logic := logic
    ticks := ticks
    finalJain := pair.approxRq.jainIndex
    minJain := sums.minJain
    avgJain := sums.avgJain.divNat ticks
    maxErrorPct := sums.overallMaxError
    avgErrorPct := (Double.fin sums.overallAvgError).divNat ticks
    totalOpsSaved := sums.totalOpsSaved
    finalApafState := pair.approxRq.apafState
    finalLoadAvg := (pair.approxRq.tasks[0]?.map CfsTask.loadAvg).getD 0 }

-- `exp2_mixed_load.c`

def N_BATCH : ℕ := 10
def N_TOTAL : ℕ := 11
def INTERACTIVE : ℕ := 0
def INTERACTIVE_NICE : ℤ := -10
def BATCH_NICE : ℤ := 0
def INTERACTIVE_ON : ℕ := 5
def INTERACTIVE_OFF : ℕ := 5
def UINT64_MAX : UInt64 := 0xffffffffffffffff

/-- The locals of the tick loop in `run_exp2`. -/
structure Exp2State where
  pair : Pair
  mbuf : List Metrics
  maxWait : UInt64
  sumWait : UInt64
  waitEvents : ℕ
  currentWait : UInt64
  wasBlocked : Bool
deriving DecidableEq, Repr

def mixedTasks : List (ℤ × ℤ) :=
  ((INTERACTIVE : ℤ), INTERACTIVE_NICE) ::
    (List.range N_BATCH).map fun i => ((i : ℤ) + 1, BATCH_NICE)

/-- The loop over `j` that looks for `min_idx`, `none` standing for `-1`. -/
def minVruntimeScan (tasks : List CfsTask) : Option ℕ :=
  (tasks.zipIdx.foldl (fun (acc : UInt64 × Option ℕ) (e : CfsTask × ℕ) =>
    if e.1.runnable = 1 ∧ e.1.vruntime < acc.1 then (e.1.vruntime, some e.2) else acc)
    (UINT64_MAX, none)).2

/-- The interactive task is switched on or off, by the position in the cycle. -/
def exp2Switch (s : Exp2State) (i : ℕ) : Exp2State :=
  let cyclePos := i % (INTERACTIVE_ON + INTERACTIVE_OFF)
  if cyclePos < INTERACTIVE_ON then
    let s := { s with pair := s.pair.setRunnable INTERACTIVE 1 }
    if s.wasBlocked then { s with currentWait := 0, wasBlocked := false } else s
  else
    { s with pair := s.pair.setRunnable INTERACTIVE 0, wasBlocked := true, currentWait := 0 }

def exp2Wait (s : Exp2State) : Exp2State :=
  let tasks := s.pair.approxRq.tasks
  if tasks[INTERACTIVE]?.map CfsTask.runnable = some 1 then
    if minVruntimeScan tasks ≠ some INTERACTIVE then
      let currentWait := s.currentWait + 1
      { s with
        currentWait := currentWait
        maxWait := if currentWait > s.maxWait then currentWait else s.maxWait }
    else
      let s := if s.currentWait > 0 then
        { s with sumWait := s.sumWait + s.currentWait, waitEvents := s.waitEvents + 1 } else s
      { s with currentWait := 0 }
  else s

def exp2Step (logic : ℤ) (s : Exp2State) (i : ℕ) : Exp2State :=
  let s := exp2Switch s i
  let s := { s with pair := s.pair.tick logic }
  let s := exp2Wait s
  let s := { s with mbuf := s.pair.record s.mbuf i }
  { s with pair :=
      { exactRq := rqCountRunning s.pair.exactRq, approxRq := rqCountRunning s.pair.approxRq } }

def Exp2State.init (logic : ℤ) (mbuf : List Metrics) : Exp2State :=
  { pair := Pair.init mixedTasks logic
    mbuf := mbuf
    maxWait := 0
    sumWait := 0
    waitEvents := 0
    currentWait := 0
    wasBlocked := true }

def exp2Loop (logic : ℤ) (ticks : ℕ) (mbuf : List Metrics) : Exp2State :=
  (List.range ticks).foldl (exp2Step logic) (.init logic (metricsInit mbuf ticks))

structure Exp2Result where
  logic : ℤ
  ticks : ℕ
  interactiveExecRuntime : UInt64
  interactiveCpuShare : ℚ
  maxWaitTicks : UInt64
  avgWaitTicks : ℚ
  totalWaitEvents : ℕ
  batchAvgJain : ℚ
  batchThroughput : ℚ
  finalJain : Double
  maxErrorPct : ℚ
  avgErrorPct : Double
  totalOpsSaved : UInt64
  finalApafState : ℤ
deriving DecidableEq, Repr

/-- `b_sum` and `b_sq`, over the tasks from index 1 on. -/
def batchSums (tasks : List CfsTask) : ℚ × ℚ :=
  (tasks.drop 1).foldl (fun acc t =>
    let rt : ℚ := t.execRuntime.toNat
    (acc.1 + rt, acc.2 + rt * rt)) (0, 0)

def totalRt (tasks : List CfsTask) : UInt64 := tasks.foldl (fun total t => total + t.execRuntime) 0

def runExp2 (logic : ℤ) (ticks : ℕ) (mbuf : List Metrics) : Exp2Result :=
  let s := exp2Loop logic ticks mbuf
  let sums := summaryAcc s.mbuf ticks
  let tasks := s.pair.approxRq.tasks
  let (bSum, bSq) := batchSums tasks
  let interactive := (tasks[INTERACTIVE]?.map CfsTask.execRuntime).getD 0
  { logic := logic
    ticks := ticks
    interactiveExecRuntime := interactive
    interactiveCpuShare :=
      if totalRt tasks > 0 then interactive.toNat / (totalRt tasks).toNat else 0
    maxWaitTicks := s.maxWait
    avgWaitTicks := if s.waitEvents > 0 then s.sumWait.toNat / s.waitEvents else 0
    totalWaitEvents := s.waitEvents
    batchAvgJain := if bSq > 0 then bSum * bSum / (N_BATCH * bSq) else 1
    batchThroughput := bSum / N_BATCH
    finalJain := s.pair.approxRq.jainIndex
    maxErrorPct := sums.overallMaxError
    avgErrorPct := (Double.fin sums.overallAvgError).divNat ticks
    totalOpsSaved := sums.totalOpsSaved
    finalApafState := s.pair.approxRq.apafState }

-- `exp3_dynamic_spike.c`

def PHASE1_TASKS : ℕ := 5
def PHASE2_TASKS : ℕ := 55
def PHASE3_TASKS : ℕ := 15
def MAX_TASKS : ℕ := 55
def PHASE1_END : ℕ := 500
def PHASE2_END : ℕ := 1500
def TOTAL_TICKS : ℕ := 2001

structure TransitionEvent where
  tick : ℕ
  oldState : ℤ
  newState : ℤ
  jainAtTransition : Double
  phase : ℕ
deriving DecidableEq, Repr

/-- The length of the array `transitions`. -/
def MAX_TRANSITIONS : ℕ := 100

/-- What the tick loop keeps of a phase: the fields of an entry of `phases` that it
writes, and the row of `state_counts`. -/
structure PhaseAcc where
  phase : ℕ
  nTasks : ℕ
  tickStart : ℕ
  tickEnd : ℕ
  avgJain : Double
  minJain : Double
  tight : ℕ
  medium : ℕ
  loose : ℕ
deriving DecidableEq, Repr

def PhaseAcc.init : PhaseAcc :=
  { phase := 0, nTasks := 0, tickStart := 0, tickEnd := 0, avgJain := .fin 0, minJain := .fin 1,
    tight := 0, medium := 0, loose := 0 }

/-- The locals of the tick loop. The entries of `transitions` in use are a list. -/
structure Exp3State where
  exactRq : CfsRq
  apafRq : CfsRq
  exactBuf : List Metrics
  apafBuf : List Metrics
  transitions : List TransitionEvent
  phases : List PhaseAcc
  prevApafState : ℤ
  currentPhase : ℕ
deriving DecidableEq, Repr

/-- `for (t = from; t < to; t++) tasks[t].runnable = runnable;` -/
def setRunnables (tasks : List CfsTask) (first last : ℕ) (runnable : ℤ) : List CfsTask :=
  (List.range' first (last - first)).foldl (fun tasks t =>
    tasks.modify t fun task => { task with runnable := runnable }) tasks

/-- The tasks of phase 1: the first five runnable, the others blocked. -/
def spikeTasks : List CfsTask :=
  let tasks := (equalTasks MAX_TASKS).map fun s => taskCreate s.1 s.2
  let tasks := setRunnables tasks 0 PHASE1_TASKS 1
  setRunnables tasks PHASE1_TASKS MAX_TASKS 0

/-- The spike at `PHASE1_END` and the recovery at `PHASE2_END`, on one runqueue. -/
def spikeSwitch (rq : CfsRq) (i : ℕ) : CfsRq :=
  let rq := if i = PHASE1_END then
    rqCountRunning { rq with tasks := setRunnables rq.tasks PHASE1_TASKS PHASE2_TASKS 1 } else rq
  if i = PHASE2_END then
    rqCountRunning { rq with tasks := setRunnables rq.tasks PHASE3_TASKS MAX_TASKS 0 } else rq

def exp3Log (s : Exp3State) (i : ℕ) : Exp3State :=
  if s.apafRq.apafState ≠ s.prevApafState then
    let transitions := if s.transitions.length < MAX_TRANSITIONS then
      s.transitions ++ [{ tick := i
                          oldState := s.prevApafState
                          newState := s.apafRq.apafState
                          jainAtTransition := s.apafRq.jainIndex
                          phase := s.currentPhase }]
      else s.transitions
    { s with transitions := transitions, prevApafState := s.apafRq.apafState }
  else s

def PhaseAcc.step (acc : PhaseAcc) (currentPhase : ℕ) (rq : CfsRq) (i : ℕ) : PhaseAcc :=
  let ph := currentPhase - 1
  let j := rq.jainIndex
  { phase := currentPhase
    nTasks := if currentPhase = 1 then PHASE1_TASKS
      else if currentPhase = 2 then PHASE2_TASKS else PHASE3_TASKS
    tickStart := if ph = 0 then 0 else if ph = 1 then PHASE1_END else PHASE2_END
    tickEnd := i
    avgJain := acc.avgJain + j
    minJain := if j < acc.minJain then j else acc.minJain
    tight := if rq.apafState = APAF_TIGHT then acc.tight + 1 else acc.tight
    medium := if rq.apafState = APAF_MEDIUM then acc.medium + 1 else acc.medium
    loose := if rq.apafState = APAF_LOOSE then acc.loose + 1 else acc.loose }

def exp3Step (s : Exp3State) (i : ℕ) : Exp3State :=
  let s := { s with
    exactRq := exactTick (spikeSwitch s.exactRq i)
    apafRq := apafTick (spikeSwitch s.apafRq i)
    currentPhase := if i = PHASE2_END then 3 else if i = PHASE1_END then 2 else s.currentPhase }
  let s := exp3Log s i
  { s with
    phases := s.phases.modify (s.currentPhase - 1) fun acc => acc.step s.currentPhase s.apafRq i
    exactBuf := s.exactBuf.modify i fun e => metricsRecord e (some s.exactRq) (some s.exactRq)
    apafBuf := s.apafBuf.modify i fun e => metricsRecord e (some s.apafRq) (some s.exactRq) }

/-- The tick loop up to a number of ticks; the experiment takes `TOTAL_TICKS`. -/
def exp3Loop (ticks : ℕ) (exactBuf apafBuf : List Metrics) : Exp3State :=
  let apafRq := rqInit spikeTasks 3
  (List.range ticks).foldl exp3Step
    { exactRq := rqInit spikeTasks 0
      apafRq := apafRq
      exactBuf := metricsInit exactBuf TOTAL_TICKS
      apafBuf := metricsInit apafBuf TOTAL_TICKS
      transitions := []
      phases := [PhaseAcc.init, PhaseAcc.init, PhaseAcc.init]
      prevApafState := apafRq.apafState
      currentPhase := 1 }

/-- `if (!found && transitions[i].tick >= start) { ... }` -/
def firstChange (start : ℕ) (found : Option ℕ) (e : TransitionEvent) : Option ℕ :=
  match found with
  | some n => some n
  | none => if e.tick ≥ start then some (e.tick - start) else none

/-- `reaction_ticks` and `recovery_ticks`: the first logged change from a tick on. -/
def ticksUntilChange (transitions : List TransitionEvent) (start : ℕ) : Option ℕ :=
  transitions.foldl (firstChange start) none

-- `exp4_error_bound.c`

def EXP4_N_TASKS : ℕ := 20
def EXP4_TICKS : ℕ := 1000
def BOUND_BSA_DECAY : ℚ := 1.0037
def BOUND_CLTI_DECAY : ℚ := 0.0938
def BOUND_APAF_TIGHT : ℚ := 1.0000
def BOUND_APAF_MEDIUM : ℚ := 3.0000
def BOUND_APAF_LOOSE : ℚ := 4.1474
def BOUND_TOLERANCE : ℚ := 0.5000
def EFF_BSA : ℚ := BOUND_BSA_DECAY + BOUND_TOLERANCE
def EFF_CLTI : ℚ := BOUND_CLTI_DECAY + BOUND_TOLERANCE
def EFF_TIGHT : ℚ := BOUND_APAF_TIGHT + BOUND_TOLERANCE
def EFF_MEDIUM : ℚ := BOUND_APAF_MEDIUM + BOUND_TOLERANCE
def EFF_LOOSE : ℚ := BOUND_APAF_LOOSE + BOUND_TOLERANCE

structure Exp4Violation where
  logic : ℤ
  tick : ℕ
  errPct : ℚ
  boundPct : ℚ
deriving DecidableEq, Repr

/-- The length of the array `g_violations`. -/
def MAX_VIOLATIONS : ℕ := 4096

/-- The locals of the tick loop in `run_exp4`, and the two globals. -/
structure Exp4State where
  pair : Pair
  mbuf : List Metrics
  nViolations : ℕ
  firstViolation : ℕ
  violationFound : Bool
  gViolations : List Exp4Violation
  maxErr : ℚ
  sumErr : ℚ
  under1 : ℕ
  b1to3 : ℕ
  b3to5 : ℕ
  over5 : ℕ
  tightCount : ℕ
  medCount : ℕ
  looseCount : ℕ
deriving DecidableEq, Repr

def exp4Nices : List ℤ := [-5, 0, 5, 10]

def exp4Tasks : List (ℤ × ℤ) :=
  (List.range EXP4_N_TASKS).map fun i : ℕ => ((i : ℤ), exp4Nices.getD (i / 5) 0)

/-- `tick_err`: the relative error of one decay of `LOAD_AVG_MAX`, in percent. -/
def exp4TickErr (logic stateBefore : ℤ) : ℚ :=
  let base := LOAD_AVG_MAX
  let exactD := exactDecayLoad base 1
  let approxD :=
    if logic = 1 then bsaDecayLoad base 1
    else if logic = 2 then cltiDecayLoad base 1
    else if logic = 3 then apafDecayLoad base 1 stateBefore
    else exactDecayLoad base 1
  if exactD > 0 then
    let exactFactor : ℚ := exactD.toNat / base.toNat
    let approxFactor : ℚ := approxD.toNat / base.toNat
    |exactFactor - approxFactor| / exactFactor * 100
  else 0

/-- `bound`, by the state after the tick. -/
def exp4Bound (logic state : ℤ) : ℚ :=
  if logic = 2 then EFF_CLTI
  else if logic = 3 then
    if state = APAF_TIGHT then EFF_TIGHT
    else if state = APAF_MEDIUM then EFF_MEDIUM
    else EFF_LOOSE
  else EFF_BSA

/-- `if (tick_err > bound) { ... }` -/
def Exp4State.check (s : Exp4State) (logic : ℤ) (i : ℕ) (tickErr bound : ℚ) : Exp4State :=
  if tickErr > bound then
    { s with
      nViolations := s.nViolations + 1
      firstViolation := if s.violationFound = false then i else s.firstViolation
      violationFound := true
      gViolations := if s.gViolations.length < MAX_VIOLATIONS then
        s.gViolations ++ [{ logic := logic, tick := i, errPct := tickErr, boundPct := bound }]
        else s.gViolations }
  else s

def Exp4State.addErr (s : Exp4State) (tickErr : ℚ) : Exp4State :=
  let s := { s with
    maxErr := if tickErr > s.maxErr then tickErr else s.maxErr
    sumErr := s.sumErr + tickErr }
  if tickErr < 1 then { s with under1 := s.under1 + 1 }
  else if tickErr < 3 then { s with b1to3 := s.b1to3 + 1 }
  else if tickErr < 5 then { s with b3to5 := s.b3to5 + 1 }
  else { s with over5 := s.over5 + 1 }

/-- `if (logic == 3) { ... }` -/
def Exp4State.countState (s : Exp4State) (logic state : ℤ) : Exp4State :=
  if logic = 3 then
    if state = APAF_TIGHT then { s with tightCount := s.tightCount + 1 }
    else if state = APAF_MEDIUM then { s with medCount := s.medCount + 1 }
    else { s with looseCount := s.looseCount + 1 }
  else s

def exp4Step (logic : ℤ) (s : Exp4State) (i : ℕ) : Exp4State :=
  let tickErr := exp4TickErr logic s.pair.approxRq.apafState
  let pair := s.pair.tick logic
  let state := pair.approxRq.apafState
  let s := { s with pair := pair, mbuf := pair.record s.mbuf i }
  let s := s.check logic i tickErr (exp4Bound logic state)
  let s := s.addErr tickErr
  s.countState logic state

/-- The tick loop up to a number of ticks, from a log of earlier violations; the
experiment takes `EXP4_TICKS`. -/
def exp4Loop (logic : ℤ) (ticks : ℕ) (mbuf : List Metrics) (gViolations : List Exp4Violation) :
    Exp4State :=
  let pair := Pair.init exp4Tasks logic
  let pair := { pair with approxRq := { pair.approxRq with apafState := APAF_MEDIUM } }
  (List.range ticks).foldl (exp4Step logic)
    { pair := pair
      mbuf := metricsInit mbuf EXP4_TICKS
      nViolations := 0
      firstViolation := 0
      violationFound := false
      gViolations := gViolations
      maxErr := 0
      sumErr := 0
      under1 := 0
      b1to3 := 0
      b3to5 := 0
      over5 := 0
      tightCount := 0
      medCount := 0
      looseCount := 0 }

structure Exp4Result where
  logic : ℤ
  maxErrorEver : ℚ
  avgErrorOverall : Double
  nViolations : ℕ
  firstViolationTick : ℕ
  ticksUnder1pct : ℕ
  ticks1to3pct : ℕ
  ticks3to5pct : ℕ
  ticksOver5pct : ℕ
  ticksInTight : ℕ
  ticksInMedium : ℕ
  ticksInLoose : ℕ
  boundVerified : Bool
  theoreticalBound : ℚ
deriving DecidableEq, Repr

def runExp4 (logic : ℤ) (ticks : ℕ) (mbuf : List Metrics) (gViolations : List Exp4Violation) :
    Exp4Result :=
  let s := exp4Loop logic ticks mbuf gViolations
  { logic := logic
    maxErrorEver := s.maxErr
    avgErrorOverall := (Double.fin s.sumErr).divNat ticks
    nViolations := s.nViolations
    firstViolationTick := s.firstViolation
    ticksUnder1pct := s.under1
    ticks1to3pct := s.b1to3
    ticks3to5pct := s.b3to5
    ticksOver5pct := s.over5
    ticksInTight := s.tightCount
    ticksInMedium := s.medCount
    ticksInLoose := s.looseCount
    boundVerified := s.nViolations = 0
    theoreticalBound :=
      if logic = 1 then BOUND_BSA_DECAY
      else if logic = 2 then BOUND_CLTI_DECAY
      else BOUND_APAF_LOOSE }

end ApexCfs
