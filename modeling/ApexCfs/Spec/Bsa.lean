import ApexCfs.Spec.Exact

/-! `approx_bsa.c`: decay by shift and subtract, vruntime scaling by a power of
two corrected with Newton steps. -/

namespace ApexCfs

def BSA_DECAY_SHIFT : UInt64 := 5
def BSA_NEWTON_ITERS : ℕ := 1

/-- The `while` loop of `bsa_nearest_pow2`. The shifted value is zero after at
most 31 doublings, so 32 rounds are enough. -/
def floorPow2Loop : ℕ → UInt32 → UInt32 → UInt32
  | 0, _, floorPow2 => floorPow2
  | rounds + 1, weight, floorPow2 =>
    if floorPow2 <<< 1 ≠ 0 ∧ floorPow2 <<< 1 ≤ weight then
      floorPow2Loop rounds weight (floorPow2 <<< 1)
    else floorPow2

def bsaNearestPow2 (weight : UInt32) : UInt32 :=
  if weight = 0 then 1
  else
    let floorPow2 := floorPow2Loop 32 weight 1
    if floorPow2 = weight then weight
    else if floorPow2 <<< 1 = 0 then floorPow2
    else
      let ceilPow2 := floorPow2 <<< 1
      let distFloor := weight - floorPow2
      let distCeil := ceilPow2 - weight
      if distFloor ≤ distCeil then floorPow2 else ceilPow2

/-- The Newton loop; it stops early once `w * x` reaches `2` in Q0.32. -/
def newtonLoop : ℕ → UInt32 → UInt64 → UInt64
  | 0, _, x => x
  | iterations + 1, weight, x =>
    let wx := UInt64.ofNat (weight.toNat * x.toNat)
    if wx ≥ (2 : UInt64) <<< 32 then x
    else
      let twoMinusWx := ((2 : UInt64) <<< 32) - wx
      newtonLoop iterations weight (UInt64.ofNat ((x.toNat * twoMinusWx.toNat) >>> 32))

def bsaNewtonReciprocal (weight : UInt32) (iterations : ℕ) : UInt64 :=
  if weight = 0 then WMULT_CONST
  else
    let p2 := bsaNearestPow2 weight
    let x := WMULT_CONST / p2.toUInt64
    let mQ32 := (weight.toUInt64 <<< 32) / p2.toUInt64
    let affineQ32 := ((3 : UInt64) <<< 31) - (mQ32 >>> 1)
    let x := UInt64.ofNat ((x.toNat * affineQ32.toNat) >>> 32)
    newtonLoop iterations weight x

/-- `for (i = 0; i < local_n; i++) load = load - (load >> BSA_DECAY_SHIFT);` -/
def bsaDecayLoop : ℕ → UInt64 → UInt64
  | 0, load => load
  | localN + 1, load => bsaDecayLoop localN (load - (load >>> BSA_DECAY_SHIFT))

def bsaDecayLoad (load : UInt64) (periods : ℕ) : UInt64 :=
  if periods = 0 then load
  else if periods ≥ PELT_MAX_PERIODS * LOAD_AVG_PERIOD then 0
  else
    let coarse := periods / LOAD_AVG_PERIOD
    let localN := periods % LOAD_AVG_PERIOD
    let load := load >>> UInt64.ofNat coarse
    bsaDecayLoop localN load

def bsaVruntimeDelta (deltaExec : UInt64) (weight : UInt32) : UInt64 :=
  if weight = NICE_0_LOAD then deltaExec
  else if weight = 0 then 0
  else
    let invW := bsaNewtonReciprocal weight BSA_NEWTON_ITERS
    exactMulU64U32Shr deltaExec invW.toUInt32 (WMULT_SHIFT - 10)

def bsaUpdateCurr : CfsRq → ℕ → CfsRq := updateCurr bsaVruntimeDelta

def bsaUpdateLoadAvg : CfsRq → ℕ → CfsRq := updateLoadAvg bsaDecayLoad

def bsaPickNextTask (rq : CfsRq) : Option ℕ := exactPickNextTask rq

/-- Unlike `exact_tick`, the tick ends at once when nothing is picked. -/
def bsaTick (rq : CfsRq) : CfsRq :=
  let rq := rqTick rq
  match bsaPickNextTask rq with
  | none => rq
  | some next =>
    let rq := bsaUpdateCurr rq next
    let rq := forTasks bsaUpdateLoadAvg rq
    let rq := updateJain rq
    rqCountRunning rq

end ApexCfs
