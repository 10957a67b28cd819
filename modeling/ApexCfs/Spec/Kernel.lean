import ApexCfs.Spec.Exact

/-! The kernel code under `docs/` that the exact scheduler mirrors: the vruntime scaling of
`fair.c` and the load decay of `pelt.c`, whose table is the one of `task.h`. An `unsigned
long` has 64 bits and `scale_load_down` is the identity. -/

namespace ApexCfs.Kernel

-- `fair.c`

/-- `(~0U)`, one less than the constant of the same name in `cfs_exact.h`. -/
def WMULT_CONST : UInt32 := ~~~0
def WMULT_SHIFT : ℤ := 32

structure LoadWeight where
  weight : UInt64
  invWeight : UInt32
deriving DecidableEq, Repr

abbrev scaleLoadDown (w : UInt64) : UInt64 := w

/-- The position of the highest set bit, counted from one. -/
def fls (x : UInt32) : ℕ := if x = 0 then 0 else Nat.log2 x.toNat + 1

def mulU32U32 (a b : UInt32) : UInt64 := a.toUInt64 * b.toUInt64

/-- The product is taken in 128 bits. -/
def mulU64U32Shr (a : UInt64) (mul : UInt32) (shift : ℕ) : UInt64 :=
  UInt64.ofNat ((a.toNat * mul.toNat) >>> shift)

/-- An inverse that is already there is kept. -/
def updateInvWeight (lw : LoadWeight) : LoadWeight :=
  if lw.invWeight ≠ 0 then lw
  else
    let w := scaleLoadDown lw.weight
    if w ≥ WMULT_CONST.toUInt64 then { lw with invWeight := 1 }
    else if w = 0 then { lw with invWeight := WMULT_CONST }
    else { lw with invWeight := (WMULT_CONST.toUInt64 / w).toUInt32 }

/-- `if (fact_hi) { fs = fls(fact_hi); shift -= fs; fact >>= fs; }`, which `__calc_delta`
does twice. -/
def normalise (fact : UInt64) (shift : ℤ) : UInt64 × ℤ :=
  let factHi := (fact >>> 32).toUInt32
  if factHi ≠ 0 then
    let fs := fls factHi
    (fact >>> UInt64.ofNat fs, shift - fs)
  else (fact, shift)

def calcDelta (deltaExec weight : UInt64) (lw : LoadWeight) : UInt64 :=
  let fact := scaleLoadDown weight
  let shift := WMULT_SHIFT
  let lw := updateInvWeight lw
  let (fact, shift) := normalise fact shift
  let fact := mulU32U32 fact.toUInt32 lw.invWeight
  let (fact, shift) := normalise fact shift
  mulU64U32Shr deltaExec fact.toUInt32 shift.toNat

def calcDeltaFair (delta : UInt64) (load : LoadWeight) : UInt64 :=
  if load.weight ≠ NICE_0_LOAD.toUInt64 then calcDelta delta NICE_0_LOAD.toUInt64 load else delta

-- `pelt.c`

/-- The stub of `pelt.c` multiplies in 64 bits. -/
def peltMulU64U32Shr (a : UInt64) (b : UInt32) (shift : ℕ) : UInt64 :=
  (a * b.toUInt64) >>> UInt64.ofNat shift

def decayLoad (val n : UInt64) : UInt64 :=
  if n.toNat > LOAD_AVG_PERIOD * 63 then 0
  else
    let localN := n.toUInt32
    let (val, localN) :=
      if localN.toNat ≥ LOAD_AVG_PERIOD then
        (val >>> UInt64.ofNat (localN.toNat / LOAD_AVG_PERIOD), localN.toNat % LOAD_AVG_PERIOD)
      else (val, localN.toNat)
    peltMulU64U32Shr val (runnableAvgYNInv.getD localN 0) 32

structure SchedAvg where
  loadSum : UInt64
  runnableSum : UInt64
  utilSum : UInt64
  lastUpdateTime : UInt64
  periodContrib : UInt64
  loadAvg : UInt64
  runnableAvg : UInt64
  utilAvg : UInt64
deriving DecidableEq, Repr

def SCHED_CAPACITY_SHIFT : ℕ := 10

def accumulatePeltSegments (periods : UInt64) (d1 d3 : UInt32) : UInt32 :=
  let c3 := d3
  let c1 := (decayLoad d1.toUInt64 periods).toUInt32
  let c2 := (LOAD_AVG_MAX - decayLoad LOAD_AVG_MAX periods - 1024).toUInt32
  c1 + c2 + c3

/-- Step 1 of `accumulate_sum`, for `periods ≠ 0`. -/
def SchedAvg.decay (sa : SchedAvg) (periods : UInt64) : SchedAvg :=
  { sa with
    loadSum := decayLoad sa.loadSum periods
    runnableSum := decayLoad sa.runnableSum periods
    utilSum := decayLoad sa.utilSum periods }

/-- The three sums after the contribution; the last shift is in 32 bits. -/
def SchedAvg.accrue (sa : SchedAvg) (load runnable : UInt64) (running : ℤ) (contrib : UInt32) :
    SchedAvg :=
  { sa with
    loadSum := if load ≠ 0 then sa.loadSum + load * contrib.toUInt64 else sa.loadSum
    runnableSum := if runnable ≠ 0 then
      sa.runnableSum + (runnable * contrib.toUInt64) <<< UInt64.ofNat SCHED_CAPACITY_SHIFT
      else sa.runnableSum
    utilSum := if running ≠ 0 then
      sa.utilSum + (contrib <<< UInt32.ofNat SCHED_CAPACITY_SHIFT).toUInt64 else sa.utilSum }

/-- The number of periods crossed is returned in 32 bits. -/
def accumulateSum (delta : UInt64) (sa : SchedAvg) (load runnable : UInt64) (running : ℤ) :
    SchedAvg × UInt32 :=
  let contrib := delta.toUInt32
  let delta := delta + sa.periodContrib
  let periods := delta / 1024
  if periods ≠ 0 then
    let rest := (1024 - sa.periodContrib).toUInt32
    let delta := delta % 1024
    let contrib :=
      if load ≠ 0 then accumulatePeltSegments periods rest delta.toUInt32 else contrib
    ({ sa.decay periods with periodContrib := delta }.accrue load runnable running contrib,
      periods.toUInt32)
  else
    ({ sa with periodContrib := delta }.accrue load runnable running contrib, periods.toUInt32)

/-- The flag is the returned value; `(s64)delta < 0` is a test of the sign bit. -/
def updateLoadSum (now : UInt64) (sa : SchedAvg) (load runnable : UInt64) (running : ℤ) :
    SchedAvg × Bool :=
  let delta := now - sa.lastUpdateTime
  if delta.toNat ≥ 2 ^ 63 then ({ sa with lastUpdateTime := now }, false)
  else
    let delta := delta >>> 10
    if delta = 0 then (sa, false)
    else
      let sa := { sa with lastUpdateTime := sa.lastUpdateTime + delta <<< 10 }
      let runnable := if load = 0 then 0 else runnable
      let running := if load = 0 then 0 else running
      let (sa, periods) := accumulateSum delta sa load runnable running
      (sa, periods ≠ 0)

/-- The stub of `get_pelt_divider` in `pelt.c`. -/
def peltDividerStub (_ : SchedAvg) : UInt32 := 1024

/-- `PELT_MIN_DIVIDER` and `get_pelt_divider` of `pelt.h`. -/
def PELT_MIN_DIVIDER : UInt64 := LOAD_AVG_MAX - 1024

def getPeltDivider (avg : SchedAvg) : UInt32 := (PELT_MIN_DIVIDER + avg.periodContrib).toUInt32

def updateLoadAvg (getDivider : SchedAvg → UInt32) (sa : SchedAvg) (load : UInt64) : SchedAvg :=
  let divider := (getDivider sa).toUInt64
  { sa with
    loadAvg := load * sa.loadSum / divider
    runnableAvg := sa.runnableSum / divider
    utilAvg := sa.utilSum / divider }

/-- `__update_load_avg_blocked_se`, on the averages of the entity; `se_weight` is a
parameter, 1 in the stub of `pelt.c`. -/
def updateLoadAvgBlockedSe (getDivider : SchedAvg → UInt32) (seWeight now : UInt64) (sa : SchedAvg) :
    SchedAvg × Bool :=
  let (sa, updated) := updateLoadSum now sa 0 0 0
  if updated then (updateLoadAvg getDivider sa seWeight, true) else (sa, false)

/-- `__update_load_avg_se`, for an entity with the flag `on_rq` that runs or not. The
stub of `se_runnable` is 1. -/
def updateLoadAvgSe (getDivider : SchedAvg → UInt32) (seWeight now : UInt64) (onRq isCurr : Bool)
    (sa : SchedAvg) : SchedAvg × Bool :=
  let (sa, updated) := updateLoadSum now sa (if onRq then 1 else 0) 1 (if isCurr then 1 else 0)
  if updated then (updateLoadAvg getDivider sa seWeight, true) else (sa, false)

/-- The averages of an entity that was never on a runqueue before `now`. -/
def SchedAvg.zero (now : UInt64) : SchedAvg := ⟨0, 0, 0, now, 0, 0, 0, 0⟩

/-- A call that updates the averages of an entity. -/
inductive PeltUpdate where
  | se (now : UInt64) (onRq isCurr : Bool)
  | blockedSe (now : UInt64)
deriving DecidableEq, Repr

def PeltUpdate.apply (getDivider : SchedAvg → UInt32) (seWeight : UInt64) (sa : SchedAvg) :
    PeltUpdate → SchedAvg
  | .se now onRq isCurr => (updateLoadAvgSe getDivider seWeight now onRq isCurr sa).1
  | .blockedSe now => (updateLoadAvgBlockedSe getDivider seWeight now sa).1

end ApexCfs.Kernel
