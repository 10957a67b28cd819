import ApexCfs.Spec.Clti
import Mathlib.Data.Rat.Floor

/-! `approx_apaf.c`: polynomial decay and Newton depth chosen by a state, and
the controller that moves the state. The polynomial is evaluated on finite
doubles only, so it is a rational; the cast of a product to `u64` is its floor. -/

namespace ApexCfs

def APAF_TIGHT_A0 : ℚ := 0.999755378067218
def APAF_TIGHT_A1 : ℚ := -0.021439723696865
def APAF_TIGHT_A2 : ℚ := 0.000197742040395
def APAF_MEDIUM_A0 : ℚ := 0.998121961273224
def APAF_MEDIUM_A1 : ℚ := -0.020869371290712
def APAF_MEDIUM_A2 : ℚ := 0.000167397421507
def APAF_LOOSE_A0 : ℚ := 0.977779922300000
def APAF_LOOSE_A1 : ℚ := -0.015578660700000
def APAF_LOOSE_A2 : ℚ := 0.0

def APAF_MONITOR_INTERVAL : UInt64 := 4
def APAF_TIGHT_NEWTON_ITERS : ℕ := 2
def APAF_MEDIUM_NEWTON_ITERS : ℕ := 2
def APAF_LOOSE_NEWTON_ITERS : ℕ := 1

/-- `(double)runnable_avg_yN_inv[n] / (double)0xFFFFFFFFULL` -/
def tableFactor (n : ℕ) : ℚ := ((runnableAvgYNInv.getD n 0).toNat : ℚ) / (0xFFFFFFFF : ℕ)

def apafPolyEval (n : ℕ) (state : ℤ) : ℚ :=
  if state = APAF_TIGHT ∧ n > 16 then
    tableFactor (if n ≥ LOAD_AVG_PERIOD then LOAD_AVG_PERIOD - 1 else n)
  else
    let (a0, a1, a2) :=
      if state = APAF_TIGHT then (APAF_TIGHT_A0, APAF_TIGHT_A1, APAF_TIGHT_A2)
      else if state = APAF_LOOSE then (APAF_LOOSE_A0, APAF_LOOSE_A1, APAF_LOOSE_A2)
      else (APAF_MEDIUM_A0, APAF_MEDIUM_A1, APAF_MEDIUM_A2)
    let result := a0 + n * (a1 + n * a2)
    let result := if result > 1 then 1 else result
    if result < 0 then 0 else result

def apafDecayLoad (load : UInt64) (periods : ℕ) (state : ℤ) : UInt64 :=
  if periods = 0 then load
  else if periods ≥ PELT_MAX_PERIODS * LOAD_AVG_PERIOD then 0
  else
    let coarse := periods / LOAD_AVG_PERIOD
    let load := load >>> UInt64.ofNat coarse
    let localN := periods % LOAD_AVG_PERIOD
    if localN > 0 then
      let factor := apafPolyEval localN state
      let factor :=
        if state = APAF_LOOSE then
          if factor < tableFactor localN then tableFactor localN else factor
        else factor
      UInt64.ofNat ⌊(load.toNat : ℚ) * factor⌋₊
    else load

def apafVruntimeDelta (deltaExec : UInt64) (weight : UInt32) (state : ℤ) : UInt64 :=
  if weight = NICE_0_LOAD then deltaExec
  else if weight = 0 then 0
  else
    let iters :=
      if state = APAF_TIGHT then APAF_TIGHT_NEWTON_ITERS
      else if state = APAF_LOOSE then APAF_LOOSE_NEWTON_ITERS
      else APAF_MEDIUM_NEWTON_ITERS
    let invW := bsaNewtonReciprocal weight iters
    exactMulU64U32Shr deltaExec invW.toUInt32 (WMULT_SHIFT - 10)

/-- The controller runs every fourth tick. -/
def apafUpdateState (rq : CfsRq) : CfsRq :=
  if rq.tick % APAF_MONITOR_INTERVAL ≠ 0 then rq
  else
    let j := fairnessJainIndex rq
    let rq := { rq with jainIndex := j }
    let next := fairnessApafNextState rq.apafState j
    if next ≠ rq.apafState then { rq with apafState := next } else rq

def apafUpdateCurr (rq : CfsRq) (taskIdx : ℕ) : CfsRq :=
  updateCurr (fun deltaExec weight => apafVruntimeDelta deltaExec weight rq.apafState) rq taskIdx

def apafUpdateLoadAvg (rq : CfsRq) (taskIdx : ℕ) : CfsRq :=
  updateLoadAvg (fun load periods => apafDecayLoad load periods rq.apafState) rq taskIdx

def apafPickNextTask (rq : CfsRq) : Option ℕ := exactPickNextTask rq

def apafTick (rq : CfsRq) : CfsRq :=
  let rq := rqTick rq
  match apafPickNextTask rq with
  | none => rq
  | some next =>
    let rq := apafUpdateCurr rq next
    let rq := forTasks apafUpdateLoadAvg rq
    let rq := apafUpdateState rq
    let rq := updateJain rq
    rqCountRunning rq

/-- The three levels a state stands for: all but TIGHT and LOOSE act as MEDIUM. -/
def apafLevel (state : ℤ) : ℤ :=
  if state = APAF_TIGHT then APAF_TIGHT
  else if state = APAF_LOOSE then APAF_LOOSE
  else APAF_MEDIUM

theorem apafLevel_cases (state : ℤ) : apafLevel state = APAF_TIGHT ∨
    apafLevel state = APAF_MEDIUM ∨ apafLevel state = APAF_LOOSE := by
  unfold apafLevel
  split_ifs <;> simp

theorem apafLevel_eq_tight (state : ℤ) : apafLevel state = APAF_TIGHT ↔ state = APAF_TIGHT := by
  simp only [apafLevel, APAF_TIGHT, APAF_MEDIUM, APAF_LOOSE]
  split_ifs <;> omega

theorem apafLevel_eq_loose (state : ℤ) : apafLevel state = APAF_LOOSE ↔ state = APAF_LOOSE := by
  simp only [apafLevel, APAF_TIGHT, APAF_MEDIUM, APAF_LOOSE]
  split_ifs <;> omega

theorem apafPolyEval_level (n : ℕ) (state : ℤ) :
    apafPolyEval n (apafLevel state) = apafPolyEval n state := by
  simp only [apafPolyEval, apafLevel_eq_tight, apafLevel_eq_loose]

theorem apafVruntimeDelta_level (deltaExec : UInt64) (weight : UInt32) (state : ℤ) :
    apafVruntimeDelta deltaExec weight (apafLevel state) =
      apafVruntimeDelta deltaExec weight state := by
  simp only [apafVruntimeDelta, apafLevel_eq_tight, apafLevel_eq_loose]

end ApexCfs
