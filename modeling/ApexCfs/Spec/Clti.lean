import ApexCfs.Spec.Bsa

/-! `approx_clti.c`: decay from an eight-entry table with linear interpolation,
vruntime scaling by the nearest weight class. -/

namespace ApexCfs

def CLTI_TABLE_SIZE : ℕ := 8
def CLTI_TABLE_STEP : ℕ := 4
def CLTI_SHIFT : ℕ := 15

/-- `y^(4i)` in Q0.15. -/
def cltiDecayTable : List UInt32 := [32768, 30048, 27554, 25268, 23170, 21247, 19484, 17867]

def cltiWeightClass : List UInt32 := [65536, 16384, 4096, 2048, 1024, 256, 64, 16]

def cltiClassDiff (weight : UInt32) (i : ℕ) : UInt64 :=
  if weight > cltiWeightClass.getD i 0 then (weight - cltiWeightClass.getD i 0).toUInt64
  else (cltiWeightClass.getD i 0 - weight).toUInt64

def cltiWeightToClass (weight : UInt32) : ℕ :=
  if weight = 1024 then 4
  else
    ((List.range' 1 (CLTI_TABLE_SIZE - 1)).foldl (fun (acc : ℕ × UInt64) i =>
      let diff := cltiClassDiff weight i
      if diff < acc.2 then (i, diff) else acc) (0, cltiClassDiff weight 0)).1

def cltiDecayInterpolate (load : UInt64) (localN : ℕ) : UInt64 :=
  if localN = 0 then load
  else
    let idx := localN / CLTI_TABLE_STEP
    let rem := localN % CLTI_TABLE_STEP
    if idx ≥ CLTI_TABLE_SIZE then 0
    else
      let base := exactMulU64U32Shr load (cltiDecayTable.getD idx 0) CLTI_SHIFT
      if rem > 0 then
        if idx + 1 < CLTI_TABLE_SIZE then
          let next := exactMulU64U32Shr load (cltiDecayTable.getD (idx + 1) 0) CLTI_SHIFT
          let diff := if base ≥ next then base - next else 0
          let correction := (diff * UInt64.ofNat rem) / UInt64.ofNat CLTI_TABLE_STEP
          if base ≥ correction then base - correction else 0
        else base >>> 1
      else base

def cltiDecayLoad (load : UInt64) (periods : ℕ) : UInt64 :=
  if periods = 0 then load
  else if periods ≥ PELT_MAX_PERIODS * LOAD_AVG_PERIOD then 0
  else
    let coarse := periods / LOAD_AVG_PERIOD
    let load := load >>> UInt64.ofNat coarse
    let localN := periods % LOAD_AVG_PERIOD
    cltiDecayInterpolate load localN

def cltiVruntimeDelta (deltaExec : UInt64) (weight : UInt32) : UInt64 :=
  if weight = NICE_0_LOAD then deltaExec
  else if weight = 0 then 0
  else
    let cls := cltiWeightToClass weight
    let wRep := cltiWeightClass.getD cls 0
    let invW := bsaNewtonReciprocal wRep 1
    exactMulU64U32Shr deltaExec invW.toUInt32 (WMULT_SHIFT - 10)

def cltiUpdateCurr : CfsRq → ℕ → CfsRq := updateCurr cltiVruntimeDelta

def cltiUpdateLoadAvg : CfsRq → ℕ → CfsRq := updateLoadAvg cltiDecayLoad

def cltiPickNextTask (rq : CfsRq) : Option ℕ := exactPickNextTask rq

def cltiTick (rq : CfsRq) : CfsRq :=
  let rq := rqTick rq
  match cltiPickNextTask rq with
  | none => rq
  | some next =>
    let rq := cltiUpdateCurr rq next
    let rq := forTasks cltiUpdateLoadAvg rq
    let rq := updateJain rq
    rqCountRunning rq

end ApexCfs
