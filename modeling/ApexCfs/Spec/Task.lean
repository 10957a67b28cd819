import ApexCfs.Lib.Double
import ApexCfs.Lib.Word

/-! `task.h` and `task.c`: tasks, runqueues and their bookkeeping. `u64` and
`u32` are the fixed-width types, so every `+` and `*` wraps as in C; an `int` is
an integer. The task array is a list, and `nr_tasks` is its length: a NULL or
empty array is the empty list. -/

namespace ApexCfs

open Idealised

def NICE_0_LOAD : UInt32 := 1024
def LOAD_AVG_PERIOD : ℕ := 32
def LOAD_AVG_MAX : UInt64 := 47742
def TICK_NS : UInt64 := 1000000

/-- The PELT decay table, `y^n * 2^32`. -/
def runnableAvgYNInv : List UInt32 := [
  0xffffffff, 0xfa83b2da, 0xf5257d14, 0xefe4b99a,
  0xeac0c6e6, 0xe5b906e6, 0xe0ccdeeb, 0xdbfbb796,
  0xd744fcc9, 0xd2a81d91, 0xce248c14, 0xc9b9bd85,
  0xc5672a10, 0xc12c4cc9, 0xbd08a39e, 0xb8fbaf46,
  0xb504f333, 0xb123f581, 0xad583ee9, 0xa9a15ab4,
  0xa5fed6a9, 0xa2704302, 0x9ef5325f, 0x9b8d39b9,
  0x9837f050, 0x94f4efa8, 0x91c3d373, 0x8ea4398a,
  0x8b95c1e3, 0x88980e80, 0x85aac367, 0x82cd8698]

/-- Weights of the nice values `-20` to `19`. -/
def niceToWeight : List UInt64 := [
  88761, 71755, 56483, 46273, 36291,
  29154, 23254, 18705, 14949, 11916,
  9548, 7620, 6100, 4904, 3906,
  3121, 2501, 1991, 1586, 1277,
  1024, 820, 655, 526, 423,
  335, 272, 215, 172, 137,
  110, 87, 70, 56, 45,
  36, 29, 23, 18, 15]

def APAF_TIGHT : ℤ := 0
def APAF_MEDIUM : ℤ := 1
def APAF_LOOSE : ℤ := 2

structure CfsTask where
  id : ℤ
  nice : ℤ
  weight : UInt64
  vruntime : UInt64
  loadAvg : UInt64
  loadSum : UInt64
  execRuntime : UInt64
  runnable : ℤ
deriving DecidableEq, Repr

@[ext]
structure CfsRq where
  tasks : List CfsTask
  nrRunning : ℤ
  clock : UInt64
  tick : UInt64
  approxMode : ℤ
  apafState : ℤ
  jainIndex : Double
deriving DecidableEq, Repr

def taskCreate (id nice : ℤ) : CfsTask :=
  let clamped := if nice < -20 then -20 else if nice > 19 then 19 else nice
  { id := id
    nice := clamped
    weight := niceToWeight.getD (clamped + 20).toNat 0
    vruntime := 0
    loadAvg := 0
    loadSum := 0
    execRuntime := 0
    runnable := 1 }

def taskSetRunnable (t : CfsTask) (runnable : ℤ) : CfsTask :=
  if runnable ≠ 0 ∧ runnable ≠ 1 then { t with runnable := 0 }
  else { t with runnable := runnable }

/-- The task may be NULL. -/
def taskGetWeight (t : Option CfsTask) : UInt32 :=
  match t with
  | none => 0
  | some t => t.weight.toUInt32

/-- The counting loop shared by `rq_init` and `rq_count_running`. -/
def countRunning (tasks : List CfsTask) : ℤ :=
  tasks.foldl (fun count t => if t.runnable = 1 then count + 1 else count) 0

def rqInit (tasks : List CfsTask) (approxMode : ℤ) : CfsRq :=
  { tasks := tasks
    nrRunning := countRunning tasks
    clock := 0
    tick := 0
    approxMode := if approxMode < 0 ∨ approxMode > 3 then 0 else approxMode
    apafState := APAF_MEDIUM
    jainIndex := .fin 1 }

def rqTick (rq : CfsRq) : CfsRq :=
  { rq with tick := rq.tick + 1, clock := rq.clock + TICK_NS }

/-- The sync of `nr_running` is skipped for an empty task array. -/
def rqCountRunning (rq : CfsRq) : CfsRq :=
  if rq.tasks.length = 0 then rq
  else { rq with nrRunning := countRunning rq.tasks }

/-- A table weight is one of the forty of the nice table. -/
theorem taskCreate_weight_mem (id nice : ℤ) : (taskCreate id nice).weight ∈ niceToWeight := by
  have hlt : (taskCreate id nice).nice + 20 < 40 ∧ 0 ≤ (taskCreate id nice).nice + 20 := by
    simp only [taskCreate]
    split_ifs <;> omega
  have hlen : ((taskCreate id nice).nice + 20).toNat < niceToWeight.length := by
    change _ < 40
    omega
  change niceToWeight.getD ((taskCreate id nice).nice + 20).toNat 0 ∈ niceToWeight
  rw [List.getD_eq_getElem?_getD, List.getElem?_eq_getElem hlen]
  exact List.getElem_mem hlen

/-- What holds of all weights of the table is checked on the list, not on all words. -/
theorem forall_niceToWeight {p : UInt64 → Prop} [DecidablePred p]
    (h : niceToWeight.all fun w => p w) : ∀ w ∈ niceToWeight, p w := by
  intro w hw
  exact of_decide_eq_true (List.all_eq_true.mp h w hw)

theorem forall_pair_niceToWeight {p : UInt64 → UInt64 → Prop} [∀ w, DecidablePred (p w)]
    (h : niceToWeight.all fun w => niceToWeight.all fun w' => p w w') :
    ∀ w ∈ niceToWeight, ∀ w' ∈ niceToWeight, p w w' := by
  intro w hw w' hw'
  exact of_decide_eq_true (List.all_eq_true.mp (List.all_eq_true.mp h w hw) w' hw')

theorem countRunning_eq (tasks : List CfsTask) :
    countRunning tasks = (tasks.filter (fun t => t.runnable = 1)).length := by
  have h : ∀ (ts : List CfsTask) (c : ℤ),
      ts.foldl (fun count t => if t.runnable = 1 then count + 1 else count) c =
        c + (ts.filter (fun t => t.runnable = 1)).length := by
    intro ts
    induction ts with
    | nil => intro c; simp
    | cons t ts ih =>
      intro c
      rw [List.foldl_cons, ih]
      by_cases ht : t.runnable = 1
      · simp [ht]; ring
      · simp [ht]
  rw [countRunning, h, zero_add]

end ApexCfs
