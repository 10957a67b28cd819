import ApexCfs.Lib.Csv
import ApexCfs.Lib.Decimal
import ApexCfs.Spec.Fairness

/-! `metrics.c`: the comparison of an approximate and an exact runqueue at one tick, the
buffer of such entries, its file and its summary. The percentages, and the sums and means
of percentages and indices, are exact rationals. -/

namespace ApexCfs

open Idealised

structure Metrics where
  tick : UInt64
  logicUsed : ℤ
  jainIndex : Double
  maxErrorPct : ℚ
  avgErrorPct : ℚ
  opsSaved : UInt64
  apafState : ℤ
deriving DecidableEq, Repr

/-- The accumulators of the loop in `metrics_record`. -/
structure ErrorAcc where
  sumError : ℚ
  maxError : ℚ
  count : ℕ
deriving DecidableEq, Repr

/-- `fabs((double)approx_load - (double)exact_load) / (double)exact_load * 100.0` -/
def loadError (approxLoad exactLoad : UInt64) : ℚ :=
  |(approxLoad.toNat : ℚ) - exactLoad.toNat| / exactLoad.toNat * 100

def ErrorAcc.step (acc : ErrorAcc) (tasks : CfsTask × CfsTask) : ErrorAcc :=
  let approxLoad := tasks.1.loadAvg
  let exactLoad := tasks.2.loadAvg
  if exactLoad > 0 then
    let err := loadError approxLoad exactLoad
    { sumError := acc.sumError + err
      maxError := if err > acc.maxError then err else acc.maxError
      count := acc.count + 1 }
  else acc

def errorAcc (approxRq exactRq : CfsRq) : ErrorAcc :=
  (approxRq.tasks.zip exactRq.tasks).foldl ErrorAcc.step { sumError := 0, maxError := 0, count := 0 }

/-- `(u64)rq->nr_running` -/
def CfsRq.nrRunningU64 (rq : CfsRq) : UInt64 := UInt64.ofInt rq.nrRunning

def opsSaved (rq : CfsRq) : UInt64 :=
  if rq.approxMode = 1 then rq.nrRunningU64
  else if rq.approxMode = 2 then rq.nrRunningU64 * 4
  else if rq.approxMode = 3 then
    if rq.apafState = APAF_TIGHT then rq.nrRunningU64 * 2
    else if rq.apafState = APAF_MEDIUM then rq.nrRunningU64 * 3
    else rq.nrRunningU64 * 4
  else 0

/-- Either runqueue may be NULL; the entry is then left as it is. -/
def metricsRecord (entry : Metrics) (approxRq exactRq : Option CfsRq) : Metrics :=
  match approxRq, exactRq with
  | some approxRq, some exactRq =>
    let acc := errorAcc approxRq exactRq
    { tick := approxRq.tick
      logicUsed := approxRq.approxMode
      jainIndex := fairnessJainIndex approxRq
      maxErrorPct := acc.maxError
      avgErrorPct := if acc.count > 0 then acc.sumError / acc.count else 0
      opsSaved := opsSaved approxRq
      apafState := approxRq.apafState }
  | _, _ => entry

def METRICS_MAX_TICKS : ℤ := 10000

def Metrics.zeroed : Metrics :=
  { tick := 0, logicUsed := 0, jainIndex := .fin 0, maxErrorPct := 0, avgErrorPct := 0,
    opsSaved := 0, apafState := 0 }

/-- The buffer, not NULL, before the call and after it. -/
def metricsInit (buf : List Metrics) (n : ℤ) : List Metrics :=
  if n ≤ 0 then buf
  else
    let count := if n > METRICS_MAX_TICKS then METRICS_MAX_TICKS else n
    let buf := (List.range count.toNat).foldl (fun buf i => buf.set i Metrics.zeroed) buf
    (List.range count.toNat).foldl (fun buf i =>
      buf.modify i fun e => { e with apafState := APAF_MEDIUM, jainIndex := .fin 1 }) buf

def metricsGetLogicName (mode : ℤ) : String :=
  if mode = 0 then "EXACT"
  else if mode = 1 then "BSA"
  else if mode = 2 then "CLTI"
  else if mode = 3 then "APAF"
  else "UNKNOWN"

def metricsGetStateName (mode state : ℤ) : String :=
  if mode ≠ 3 then "N/A"
  else if state = APAF_TIGHT then "TIGHT"
  else if state = APAF_MEDIUM then "MEDIUM"
  else if state = APAF_LOOSE then "LOOSE"
  else "UNKNOWN"

def METRICS_CSV_HEADER : String :=
  "tick,logic,n_tasks,jain_index,max_error_pct,avg_error_pct,ops_saved,apaf_state\n"

/-- `%.6f`. The C library prints the sign bit of a NaN, which a platform is free to set
in the quotient `0.0 / 0.0`; the model has it as a parameter. -/
def doubleText (nanSign : Bool) : Double → List Char
  | .nan => (if nanSign then "-nan" else "nan").toList
  | .inf => "inf".toList
  | .fin q => Decimal.fixed 6 q

/-- `"%llu,%s,%d,%.6f,%.6f,%.6f,%llu,%s\n"` -/
def csvRow (nanSign : Bool) (nTasks : ℤ) (e : Metrics) : List Char :=
  Csv.row
    [Decimal.unsigned e.tick.toNat,
      (metricsGetLogicName e.logicUsed).toList,
      Decimal.signed nTasks,
      doubleText nanSign e.jainIndex,
      Decimal.fixed 6 e.maxErrorPct,
      Decimal.fixed 6 e.avgErrorPct,
      Decimal.unsigned e.opsSaved.toNat,
      (metricsGetStateName e.logicUsed e.apafState).toList]

/-- The contents of the file, if it is written and can be opened. A NaN in row `i` has
the sign `nanSign i`. -/
def metricsWriteCsv (nanSign : ℕ → Bool) (buf : List Metrics) (nEntries nTasks : ℤ) :
    Option (List Char) :=
  if nEntries ≤ 0 then none
  else some (METRICS_CSV_HEADER.toList ++ (buf.take nEntries.toNat).zipIdx.flatMap fun e =>
    csvRow (nanSign e.2) nTasks e.1)

/-- The accumulators of the loop in `metrics_print_summary`; the loops of the
experiments over their buffers keep the same ones. -/
structure SummaryAcc where
  avgJain : Double
  minJain : Double
  overallMaxError : ℚ
  overallAvgError : ℚ
  totalOpsSaved : UInt64
deriving DecidableEq, Repr

def SummaryAcc.init : SummaryAcc :=
  { avgJain := .fin 0, minJain := .fin 1, overallMaxError := 0, overallAvgError := 0,
    totalOpsSaved := 0 }

def SummaryAcc.step (acc : SummaryAcc) (e : Metrics) : SummaryAcc :=
  { avgJain := acc.avgJain + e.jainIndex
    minJain := if e.jainIndex < acc.minJain then e.jainIndex else acc.minJain
    overallMaxError :=
      if e.maxErrorPct > acc.overallMaxError then e.maxErrorPct else acc.overallMaxError
    overallAvgError := acc.overallAvgError + e.avgErrorPct
    totalOpsSaved := acc.totalOpsSaved + e.opsSaved }

/-- `for (i = 0; i < n_entries; i++)` over the five accumulators. -/
def summaryAcc (buf : List Metrics) (nEntries : ℕ) : SummaryAcc :=
  (buf.take nEntries).foldl SummaryAcc.step SummaryAcc.init

/-- `if (i > 0 && buf[i].apaf_state != buf[i - 1].apaf_state) transitions++;` -/
def transitionsStep (buf : List Metrics) (transitions i : ℕ) : ℕ :=
  if i > 0 then
    match buf[i]?, buf[i - 1]? with
    | some e, some before =>
      if e.apafState ≠ before.apafState then transitions + 1 else transitions
    | _, _ => transitions
  else transitions

/-- The same loop over `transitions`. -/
def countTransitions (buf : List Metrics) (nEntries : ℕ) : ℕ :=
  (List.range nEntries).foldl (transitionsStep buf) 0

/-- The values that `metrics_print_summary` prints. -/
structure Summary where
  nTasks : ℤ
  nEntries : ℤ
  logicMode : ℤ
  avgJain : Double
  minJain : Double
  maxError : ℚ
  avgError : ℚ
  totalOpsSaved : UInt64
  opsPerTick : ℚ
  /-- printed in mode 3 only -/
  transitions : Option ℕ
deriving DecidableEq, Repr

/-- Nothing is printed without entries. -/
def metricsPrintSummary (buf : List Metrics) (nEntries nTasks : ℤ) : Option Summary :=
  if nEntries ≤ 0 then none
  else
    match buf[0]? with
    | none => none
    | some entry =>
      let acc := summaryAcc buf nEntries.toNat
      some
        { nTasks := nTasks
          nEntries := nEntries
          logicMode := entry.logicUsed
          avgJain := acc.avgJain.divNat nEntries.toNat
          minJain := acc.minJain
          maxError := acc.overallMaxError
          avgError := acc.overallAvgError / nEntries
          totalOpsSaved := acc.totalOpsSaved
          opsPerTick := acc.totalOpsSaved.toNat / nEntries
          transitions :=
            if entry.logicUsed = (3 : ℤ) then some (countTransitions buf nEntries.toNat) else none }

end ApexCfs
