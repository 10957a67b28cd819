import ApexCfs.Lib.Machine
import ApexCfs.Spec.Apaf

/-! Histories of a runqueue: ticks of the four schedulers, and tasks blocking
and waking between them. -/

namespace ApexCfs

open Machine

inductive Mode where
  | exact
  | bsa
  | clti
  | apaf
deriving DecidableEq, Repr

def Mode.tick : Mode → CfsRq → CfsRq
  | .exact => exactTick
  | .bsa => bsaTick
  | .clti => cltiTick
  | .apaf => apafTick

/-- The vruntime scaling of a mode; only the APAF one reads the state. -/
def Mode.delta : Mode → ℤ → UInt64 → UInt32 → UInt64
  | .exact, _ => exactCalcDeltaFair
  | .bsa, _ => bsaVruntimeDelta
  | .clti, _ => cltiVruntimeDelta
  | .apaf, state => fun deltaExec weight => apafVruntimeDelta deltaExec weight state

def Mode.decay : Mode → ℤ → UInt64 → ℕ → UInt64
  | .exact, _ => exactDecayLoad
  | .bsa, _ => bsaDecayLoad
  | .clti, _ => cltiDecayLoad
  | .apaf, state => fun load periods => apafDecayLoad load periods state

inductive Op where
  | tick (m : Mode)
  | setRunnable (taskIdx : ℕ) (runnable : ℤ)
deriving DecidableEq, Repr

/-- One event: a scheduler tick, or `task_set_runnable(&rq->tasks[i], r)`. -/
def Op.apply (rq : CfsRq) : Op → CfsRq
  | .tick m => m.tick rq
  | .setRunnable i r => { rq with tasks := rq.tasks.modify i (taskSetRunnable · r) }

def runOps : CfsRq → List Op → CfsRq := run Op.apply

/-- A runqueue over freshly created tasks, given by their ids and nice values. -/
def freshRq (specs : List (ℤ × ℤ)) (approxMode : ℤ) : CfsRq :=
  rqInit (specs.map fun s => taskCreate s.1 s.2) approxMode

def Op.isMode (m : Mode) : Op → Prop
  | .tick m' => m' = m
  | .setRunnable _ _ => True

def Op.isTick : Op → Bool
  | .tick _ => true
  | .setRunnable _ _ => false

/-- The task an event picks: none if it is no tick or nothing is runnable. -/
def Op.pick (rq : CfsRq) : Op → Option ℕ
  | .tick _ => exactPickNextTask rq
  | .setRunnable _ _ => none

def Op.picks (k : ℕ) (rq : CfsRq) (op : Op) : Bool := op.pick rq = some k

def CfsRq.isRunnable (rq : CfsRq) (k : ℕ) : Prop := ∃ t, rq.tasks[k]? = some t ∧ t.runnable = 1

/-- Fields of task `k` as numbers, `0` if there is no such task. -/
def CfsRq.vruntimeOf (rq : CfsRq) (k : ℕ) : ℕ := (rq.tasks[k]?.map fun t => t.vruntime.toNat).getD 0

def CfsRq.execRuntimeOf (rq : CfsRq) (k : ℕ) : ℕ :=
  (rq.tasks[k]?.map fun t => t.execRuntime.toNat).getD 0

def CfsRq.weightOf (rq : CfsRq) (k : ℕ) : UInt64 := (rq.tasks[k]?.map CfsTask.weight).getD 0

def picksOf (rq : CfsRq) (ops : List Op) (k : ℕ) : ℕ := countAlong Op.apply (Op.picks k) rq ops

def RunnableAtTicks (k : ℕ) : CfsRq → List Op → Prop :=
  Along Op.apply fun rq op => op.isTick → rq.isRunnable k

/-- No tick wraps the vruntime of the task it picks. -/
def NoVruntimeWrap (m : Mode) : CfsRq → List Op → Prop :=
  Along Op.apply fun rq op => ∀ k ∈ op.pick rq,
    rq.vruntimeOf k + (m.delta rq.apafState TICK_NS (rq.weightOf k).toUInt32).toNat < 2 ^ 64

/-- No tick that picks task `k` wraps its runtime. -/
def NoExecRuntimeWrap (k : ℕ) : CfsRq → List Op → Prop :=
  Along Op.apply fun rq op => op.picks k rq → rq.execRuntimeOf k + TICK_NS.toNat < 2 ^ 64

/-- The vruntime a task of the given weight gains in one tick; for APAF the
largest over the three states. -/
def Mode.increment (m : Mode) (weight : UInt64) : ℕ :=
  max (m.delta APAF_TIGHT TICK_NS weight.toUInt32).toNat
    (max (m.delta APAF_MEDIUM TICK_NS weight.toUInt32).toNat
      (m.delta APAF_LOOSE TICK_NS weight.toUInt32).toNat)

def Mode.updateLoadAvg : Mode → CfsRq → ℕ → CfsRq
  | .exact => exactUpdateLoadAvg
  | .bsa => bsaUpdateLoadAvg
  | .clti => cltiUpdateLoadAvg
  | .apaf => apafUpdateLoadAvg

inductive LoadOp where
  | update (m : Mode)
  | setRunnable (runnable : ℤ)
deriving DecidableEq, Repr

/-- One load update of task `taskIdx`, or one change of its runnable flag. -/
def LoadOp.apply (taskIdx : ℕ) (rq : CfsRq) : LoadOp → CfsRq
  | .update m => m.updateLoadAvg rq taskIdx
  | .setRunnable r => { rq with tasks := rq.tasks.modify taskIdx (taskSetRunnable · r) }

def runLoad (taskIdx : ℕ) : CfsRq → List LoadOp → CfsRq := run (LoadOp.apply taskIdx)

def LoadOp.isMode (m : Mode) : LoadOp → Prop
  | .update m' => m' = m
  | .setRunnable _ => True

/-- For each flag of a list: set it, then update the load once. -/
def loadHistory (m : Mode) (flags : List ℤ) : List LoadOp :=
  flags.flatMap fun r => [.setRunnable r, .update m]

/-- A fresh task with any weight in place of that of its nice value. -/
def freshTask (id nice : ℤ) (weight : UInt64) : CfsTask :=
  { taskCreate id nice with weight := weight }

def CfsRq.loadSumOf (rq : CfsRq) (k : ℕ) : ℕ := (rq.tasks[k]?.map fun t => t.loadSum.toNat).getD 0

def CfsRq.loadAvgOf (rq : CfsRq) (k : ℕ) : ℕ := (rq.tasks[k]?.map fun t => t.loadAvg.toNat).getD 0

instance (m : Mode) (op : Op) : Decidable (op.isMode m) := by
  cases op <;> unfold Op.isMode <;> infer_instance

instance (m : Mode) (op : LoadOp) : Decidable (op.isMode m) := by
  cases op <;> unfold LoadOp.isMode <;> infer_instance

instance (rq : CfsRq) (k : ℕ) : Decidable (rq.isRunnable k) :=
  inferInstanceAs (Decidable (∃ t ∈ rq.tasks[k]?, t.runnable = 1))

instance (k : ℕ) (rq : CfsRq) (ops : List Op) : Decidable (RunnableAtTicks k rq ops) :=
  decidableAlong _ _ _

instance (m : Mode) (rq : CfsRq) (ops : List Op) : Decidable (NoVruntimeWrap m rq ops) :=
  decidableAlong _ _ _

instance (k : ℕ) (rq : CfsRq) (ops : List Op) : Decidable (NoExecRuntimeWrap k rq ops) :=
  decidableAlong _ _ _

end ApexCfs
