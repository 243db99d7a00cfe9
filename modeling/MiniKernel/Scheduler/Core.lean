import MiniKernel.Bitmap
import Mathlib.Data.List.Basic

/-! The cooperative scheduler of `scalability.h`: a table of threads, one ring of ready
ids shared by all CPUs, per-CPU load counters, and the thread being run.

`schedule_process` calls the dispatched thread's `entry (arg)` synchronously, and all a
closure can do to the scheduler is call its public functions. A closure is therefore
given as the list of calls (`Call`) it makes, chosen from the thread it runs as; the
driver's top-level steps are the same calls plus `schedule_process` (`Op`). -/

namespace MiniKernel.Scalability

def scMaxThreads : Nat := 64
def scMaxCpus : Nat := 8

/-- `thread_state_t`. -/
inductive ThreadState
  | ready
  | running
  | blocked
  | done
  deriving DecidableEq, Repr

/-- `sc_thread_t`; `entry` and `arg` are the pointers, with `0` for `NULL`. -/
structure ScThread where
  id : Nat
  cpuId : Nat
  priority : Int
  quota : BitVec 32
  entry : Nat
  arg : Nat
  state : ThreadState
  ticks : BitVec 64
  deriving DecidableEq, Repr

/-- The statics of `scalability.h`; `scCurrentThread = none` is `sc_current_thread = -1`. -/
structure Scheduler where
  scThreads : Nat → ScThread
  scThreadCount : Nat
  scRunQueue : Nat → Nat
  scRqHead : Nat
  scRqTail : Nat
  scCpuLoad : Nat → Int
  scCpuCount : Nat
  scCurrentThread : Option Nat

/-- The statics as the program starts: zeroed threads (state `0` is `THREAD_READY`),
`sc_cpu_count = 1`, `sc_current_thread = -1`. -/
def staticScheduler : Scheduler :=
  ⟨fun _ => ⟨0, 0, 0, 0, 0, 0, .ready, 0⟩, 0, fun _ => 0, 0, 0, fun _ => 0, 1, none⟩

/-- What a closure can call while it runs. -/
inductive Call
  | yield
  | completeCurrentThread
  | createThread (entry arg : Nat) (priority : Int)
  | loadBalance
  deriving DecidableEq, Repr

/-! ## Functions of `scalability.h` -/

/-- `init_scheduler (cpus)`: the thread table and the ring's cells keep what they held. -/
def initScheduler (cpus : Int) (s : Scheduler) : Scheduler :=
  let cpus : Int := if cpus < 1 then 1 else if cpus > scMaxCpus then scMaxCpus else cpus
  { s with scCpuCount := cpus.toNat, scCpuLoad := fun _ => 0, scThreadCount := 0,
           scRqHead := 0, scRqTail := 0, scCurrentThread := none }

/-- `get_thread_count`: the threads not yet done. -/
def getThreadCount (s : Scheduler) : Nat :=
  (List.range s.scThreadCount).countP fun i => (s.scThreads i).state ≠ .done

/-- `get_cpu_load (cpu_id)`. -/
def getCpuLoad (s : Scheduler) (cpuId : Int) : Int :=
  if cpuId < 0 ∨ s.scCpuCount ≤ cpuId then 0 else s.scCpuLoad cpuId.toNat

/-- `push_rq (id)`: `none` is the `-1` of a full ring, which keeps one cell free. -/
def pushRq (s : Scheduler) (id : Nat) : Option Scheduler :=
  let next := (s.scRqTail + 1) % scMaxThreads
  if next = s.scRqHead then none
  else some { s with scRunQueue := setAt s.scRunQueue s.scRqTail id, scRqTail := next }

/-- `pop_rq`: `none` is the `-1` of an empty ring. -/
def popRq (s : Scheduler) : Option (Nat × Scheduler) :=
  if s.scRqHead = s.scRqTail then none
  else some (s.scRunQueue s.scRqHead, { s with scRqHead := (s.scRqHead + 1) % scMaxThreads })

/-- `push_rq` where the caller ignores the result. -/
def enqueue (s : Scheduler) (id : Nat) : Scheduler := (pushRq s id).getD s

/-- The CPU loop shared by `create_thread` and `load_balance`: the first CPU whose load
no other CPU's load is `better` than. -/
def scanCpus (better : Int → Int → Bool) (s : Scheduler) : Nat :=
  (List.range' 1 (s.scCpuCount - 1)).foldl
    (fun m i => if better (s.scCpuLoad i) (s.scCpuLoad m) then i else m) 0

/-- `best_cpu` of `create_thread`. -/
def bestCpu (s : Scheduler) : Nat := scanCpus (fun a b => a < b) s

/-- `min_cpu` of `load_balance`. -/
def minCpu (s : Scheduler) : Nat := scanCpus (fun a b => a < b) s

/-- `max_cpu` of `load_balance`, updated in the same loop as `min_cpu`. -/
def maxCpu (s : Scheduler) : Nat := scanCpus (fun a b => a > b) s

/-- The table write of `create_thread`: a ready thread on `best_cpu`, whose load grows. -/
def newThread (s : Scheduler) (entry arg : Nat) (priority : Int) : Scheduler :=
  let best := bestCpu s
  let id := s.scThreadCount
  { s with
    scThreads := setAt s.scThreads id ⟨id, best, priority, 1, entry, arg, .ready, 0⟩
    scThreadCount := id + 1
    scCpuLoad := setAt s.scCpuLoad best (s.scCpuLoad best + 1) }

/-- `create_thread (entry, arg, priority)`: `none` is the `-1` of a `NULL` entry or a
full table. -/
def createThread (s : Scheduler) (entry arg : Nat) (priority : Int) : Option Nat × Scheduler :=
  if entry = 0 then (none, s)
  else if scMaxThreads ≤ s.scThreadCount then (none, s)
  else (some s.scThreadCount, enqueue (newThread s entry arg priority) s.scThreadCount)

/-- `yield`. -/
def yield (s : Scheduler) : Scheduler :=
  match s.scCurrentThread with
  | none => s
  | some id =>
    let s1 := { s with scThreads := setAt s.scThreads id { s.scThreads id with state := .ready } }
    { enqueue s1 id with scCurrentThread := none }

/-- `complete_current_thread`. -/
def completeCurrentThread (s : Scheduler) : Scheduler :=
  match s.scCurrentThread with
  | none => s
  | some id =>
    let cpu := (s.scThreads id).cpuId
    { s with scThreads := setAt s.scThreads id { s.scThreads id with state := .done },
             scCpuLoad := setAt s.scCpuLoad cpu (s.scCpuLoad cpu - 1),
             scCurrentThread := none }

/-- The thread `load_balance` moves: the first ready one on `max_cpu`. -/
def migrant (s : Scheduler) (hi : Nat) : Option Nat :=
  (List.range s.scThreadCount).find?
    fun i => (s.scThreads i).state = .ready ∧ (s.scThreads i).cpuId = hi

/-- `load_balance`: move one ready thread from the busiest CPU to the idlest one. -/
def loadBalance (s : Scheduler) : Scheduler :=
  let lo := minCpu s
  let hi := maxCpu s
  if s.scCpuLoad hi - s.scCpuLoad lo ≤ 1 then s
  else
    match migrant s hi with
    | none => s
    | some i =>
      let load := setAt s.scCpuLoad hi (s.scCpuLoad hi - 1)
      { s with scThreads := setAt s.scThreads i { s.scThreads i with cpuId := lo },
               scCpuLoad := setAt load lo (load lo + 1) }

/-- One call a closure makes. -/
def runCall (s : Scheduler) : Call → Scheduler
  | .yield => yield s
  | .completeCurrentThread => completeCurrentThread s
  | .createThread entry arg priority => (createThread s entry arg priority).2
  | .loadBalance => loadBalance s

/-- The calls of one closure, in order. -/
def runBody (s : Scheduler) (body : List Call) : Scheduler := body.foldl runCall s

/-- `schedule_process` up to the call of the closure: `id` is running and current. -/
def dispatch (s : Scheduler) (id : Nat) : Scheduler :=
  { s with scThreads := setAt s.scThreads id { s.scThreads id with state := .running },
           scCurrentThread := some id }

/-- `schedule_process` after the closure returns: unless the thread yielded or completed,
count the tick, make it ready and put it back in the ring. -/
def finishSlice (s : Scheduler) (id : Nat) : Scheduler :=
  if s.scCurrentThread = some id then
    let t := s.scThreads id
    let s1 := { s with
      scThreads := setAt s.scThreads id { t with ticks := t.ticks + 1, state := .ready } }
    { enqueue s1 id with scCurrentThread := none }
  else s

/-- `schedule_process`, where `closure t` is what the entry of thread `t` calls. -/
def scheduleProcess (s : Scheduler) (closure : ScThread → List Call) : Scheduler :=
  match popRq s with
  | none => s
  | some (id, s1) =>
    if (s1.scThreads id).state ≠ .ready then enqueue s1 id
    else finishSlice (runBody (dispatch s1 id) (closure (s1.scThreads id))) id

/-- A step of the driver, between two slices. -/
inductive Op
  | call (c : Call)
  | scheduleProcess (closure : ScThread → List Call)

def runOp (s : Scheduler) : Op → Scheduler
  | .call c => runCall s c
  | .scheduleProcess closure => scheduleProcess s closure

/-- A run of driver steps. -/
def runOps (s : Scheduler) (ops : List Op) : Scheduler := ops.foldl runOp s

/-! ## Frame lemmas -/

section Frame

variable (s : Scheduler) (id : Nat)

@[simp] theorem enqueue_scThreads : (enqueue s id).scThreads = s.scThreads := by
  unfold enqueue pushRq; dsimp only; split <;> rfl

@[simp] theorem enqueue_scThreadCount : (enqueue s id).scThreadCount = s.scThreadCount := by
  unfold enqueue pushRq; dsimp only; split <;> rfl

@[simp] theorem enqueue_scCpuLoad : (enqueue s id).scCpuLoad = s.scCpuLoad := by
  unfold enqueue pushRq; dsimp only; split <;> rfl

@[simp] theorem enqueue_scCpuCount : (enqueue s id).scCpuCount = s.scCpuCount := by
  unfold enqueue pushRq; dsimp only; split <;> rfl

@[simp] theorem enqueue_scCurrentThread :
    (enqueue s id).scCurrentThread = s.scCurrentThread := by
  unfold enqueue pushRq; dsimp only; split <;> rfl

@[simp] theorem enqueue_scRqHead : (enqueue s id).scRqHead = s.scRqHead := by
  unfold enqueue pushRq; dsimp only; split <;> rfl

theorem yield_scCurrentThread : (yield s).scCurrentThread = none := by
  unfold yield; split
  · assumption
  · rfl

theorem completeCurrentThread_scCurrentThread :
    (completeCurrentThread s).scCurrentThread = none := by
  unfold completeCurrentThread; split
  · assumption
  · rfl

theorem createThread_scCurrentThread (entry arg : Nat) (priority : Int) :
    (createThread s entry arg priority).2.scCurrentThread = s.scCurrentThread := by
  unfold createThread; split_ifs <;> simp [newThread]

theorem loadBalance_scCurrentThread : (loadBalance s).scCurrentThread = s.scCurrentThread := by
  unfold loadBalance; dsimp only; split
  · rfl
  · split <;> rfl

/-- A call either keeps the current thread or ends its turn. -/
theorem runCall_scCurrentThread (c : Call) :
    (runCall s c).scCurrentThread = s.scCurrentThread ∨ (runCall s c).scCurrentThread = none := by
  cases c with
  | yield => exact .inr (yield_scCurrentThread s)
  | completeCurrentThread => exact .inr (completeCurrentThread_scCurrentThread s)
  | createThread entry arg priority => exact .inl (createThread_scCurrentThread s entry arg priority)
  | loadBalance => exact .inl (loadBalance_scCurrentThread s)

end Frame

end MiniKernel.Scalability
