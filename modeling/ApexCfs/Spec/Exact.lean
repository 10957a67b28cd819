import ApexCfs.Spec.Fairness

/-! `cfs_exact.c`: the ground-truth scheduler. The update functions take the
decay and the vruntime scaling as a parameter; the exact and the approximate
schedulers differ in nothing else there. -/

namespace ApexCfs

def PELT_SHIFT : ℕ := 32
def PELT_MAX_PERIODS : ℕ := 63
def WMULT_SHIFT : ℕ := 32
def WMULT_CONST : UInt64 := (1 : UInt64) <<< 32
def UINT32_MAX : UInt64 := 0xffffffff

/-- The product is taken in 128 bits, the result cut to 64. -/
def exactMulU64U32Shr (a : UInt64) (b : UInt32) (shift : ℕ) : UInt64 :=
  UInt64.ofNat ((a.toNat * b.toNat) >>> shift)

def exactDecayLoad (load : UInt64) (periods : ℕ) : UInt64 :=
  if periods = 0 then load
  else if periods ≥ PELT_MAX_PERIODS * LOAD_AVG_PERIOD then 0
  else
    let coarse := periods / LOAD_AVG_PERIOD
    let localN := periods % LOAD_AVG_PERIOD
    let load := load >>> UInt64.ofNat coarse
    if localN > 0 then exactMulU64U32Shr load (runnableAvgYNInv.getD localN 0) PELT_SHIFT
    else load

def exactCalcDeltaFair (deltaExec : UInt64) (weight : UInt32) : UInt64 :=
  if weight = NICE_0_LOAD then deltaExec
  else if weight = 0 then 0
  else
    let scaled := decide (deltaExec > UINT32_MAX)
    let deltaExec := if scaled then deltaExec >>> 1 else deltaExec
    let invWeight := WMULT_CONST / weight.toUInt64
    let result := exactMulU64U32Shr deltaExec invWeight.toUInt32 (WMULT_SHIFT - 10)
    if scaled then result <<< 1 else result

/-- The task the curr update leaves behind: one tick of runtime, scaled into
vruntime by `delta`. -/
def CfsTask.charge (delta : UInt64 → UInt32 → UInt64) (curr : CfsTask) : CfsTask :=
  let deltaExec := TICK_NS
  { curr with
    execRuntime := curr.execRuntime + deltaExec
    vruntime := curr.vruntime + delta deltaExec curr.weight.toUInt32 }

/-- The body shared by the four `*_update_curr` functions. -/
def updateCurr (delta : UInt64 → UInt32 → UInt64) (rq : CfsRq) (taskIdx : ℕ) : CfsRq :=
  match rq.tasks[taskIdx]? with
  | none => rq
  | some curr =>
    if curr.runnable = 0 then rq
    else { rq with tasks := rq.tasks.set taskIdx (curr.charge delta) }

def exactUpdateCurr : CfsRq → ℕ → CfsRq := updateCurr exactCalcDeltaFair

def CfsTask.updateLoad (decay : UInt64 → ℕ → UInt64) (t : CfsTask) : CfsTask :=
  let t := { t with loadSum := decay t.loadSum 1 }
  let t := if t.runnable = 1 then { t with loadSum := t.loadSum + t.weight } else t
  let t := { t with loadAvg := (t.weight * t.loadSum) / LOAD_AVG_MAX }
  if t.loadAvg > t.weight then { t with loadAvg := t.weight } else t

/-- The body shared by the four `*_update_load_avg` functions. -/
def updateLoadAvg (decay : UInt64 → ℕ → UInt64) (rq : CfsRq) (taskIdx : ℕ) : CfsRq :=
  match rq.tasks[taskIdx]? with
  | none => rq
  | some t => { rq with tasks := rq.tasks.set taskIdx (t.updateLoad decay) }

def exactUpdateLoadAvg : CfsRq → ℕ → CfsRq := updateLoadAvg exactDecayLoad

/-- The accumulator is `none` while `min_idx` is `-1`, and otherwise holds
`min_idx` and `min_vruntime`. -/
def exactPickNextTask (rq : CfsRq) : Option ℕ :=
  (rq.tasks.zipIdx.foldl (fun (acc : Option (ℕ × UInt64)) (e : CfsTask × ℕ) =>
    if e.1.runnable = 1 then
      match acc with
      | none => some (e.2, e.1.vruntime)
      | some (minIdx, minVruntime) =>
        if e.1.vruntime < minVruntime then some (e.2, e.1.vruntime) else some (minIdx, minVruntime)
    else acc) none).map Prod.fst

/-- `for (i = 0; i < rq->nr_tasks; i++) update(rq, i);` -/
def forTasks (update : CfsRq → ℕ → CfsRq) (rq : CfsRq) : CfsRq :=
  (List.range rq.tasks.length).foldl update rq

def updateJain (rq : CfsRq) : CfsRq := { rq with jainIndex := fairnessJainIndex rq }

def exactTick (rq : CfsRq) : CfsRq :=
  let rq := rqTick rq
  let rq := match exactPickNextTask rq with
    | some next => exactUpdateCurr rq next
    | none => rq
  let rq := forTasks exactUpdateLoadAvg rq
  let rq := updateJain rq
  rqCountRunning rq

end ApexCfs
