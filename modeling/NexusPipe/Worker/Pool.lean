import NexusPipe.Go
import NexusPipe.Library.Schedule

namespace NexusPipe.Worker
open Library

structure WorkerMetrics where
  WorkerID : Text
  TasksProcessed : Nat
  TasksSucceeded : Nat
  TasksFailed : Nat
  TasksRetried : Nat := 0
  AvgDuration : Int := 0
  Panics : Nat
  deriving DecidableEq, Repr

structure PoolConfig where
  MinWorkers : Int
  MaxWorkers : Int
  ScaleUpFactor : Float64
  ScaleDownFactor : Float64
  CheckInterval : Int
  QueueLength : Int
  deriving DecidableEq, Repr

def defaultPoolConfig : PoolConfig where
  MinWorkers := 1
  MaxWorkers := 20
  ScaleUpFactor := .finite (3 / 4)
  ScaleDownFactor := .finite (1 / 4)
  CheckInterval := 5 * second
  QueueLength := 100

structure WorkerTask where
  env : Option String
  deriving DecidableEq, Repr

inductive WorkerPhase
  | selecting -- at the `select` of `workerRun`
  | received (task : WorkerTask)
  | delivering (task : WorkerTask) -- in `processTask`, after its `defer`
  | ended
  deriving DecidableEq, Repr

structure PoolWorker where
  index : Nat
  tasks : Nat := 0
  panics : Nat := 0
  busy : Bool := false
  current : String := ""
  phase : WorkerPhase := .selecting
  deriving DecidableEq, Repr

inductive ScalePhase
  | ticking
  | adding (left : Nat)
  | counting (queueLen i busyCount : Nat) -- holds the read lock
  | shrinking (removeFrom : Nat)
  | deadlocked -- `addWorker` under `wp.mu.Lock`
  | returned
  deriving DecidableEq, Repr

inductive MonitorPhase
  | ticking
  | deadlocked -- `removeWorker` under `wp.mu.RLock`
  | returned
  deriving DecidableEq, Repr

inductive StopPhase
  | notCalled
  | waiting
  | waited (timedOut : Bool)
  | returned (timedOut : Bool)
  deriving DecidableEq, Repr

/-- `pool` has every worker that was ever added, and `workers` lists positions in it: the pointers
that the goroutines and `wp.workers` share. `submitting` are the calls of `Submit` that have found
the pool running, `submitted` is what the others returned. -/
structure WorkerPool where
  cfg : PoolConfig
  pool : List PoolWorker := []
  workers : List Nat := []
  taskCh : List WorkerTask := []
  metrics : GoMap Text WorkerMetrics := ∅
  running : Bool := false
  cancelled : Bool := false
  submitting : List WorkerTask := []
  submitted : List (Option Text) := []
  scaler : ScalePhase := .ticking
  monitor : MonitorPhase := .ticking
  stopping : StopPhase := .notCalled

def newWorkerPool (cfg : PoolConfig) : Except Fault WorkerPool :=
  let cfg := if cfg.MinWorkers ≤ 0 then { cfg with MinWorkers := 1 } else cfg
  let cfg := if cfg.MaxWorkers < cfg.MinWorkers then { cfg with MaxWorkers := cfg.MinWorkers } else cfg
  if cfg.QueueLength < 0 then .error (.panic "makechan: size out of range")
  else .ok { cfg }

inductive PoolAction
  | submit (task : WorkerTask) -- up to the `select` of `Submit`
  -- that `select`: the worker an unbuffered send would meet, and the error of a context that is done
  | enqueue (call : Nat) (receiver : Option Nat) (done : Option ContextError)
  | receive (worker : Nat)
  | begin (worker : Nat) -- up to the `defer` of `processTask`
  | deliver (worker : Nat) (panics : Bool) -- the rest of it; `Done` of the context may panic
  | scaleTick | scaleAdd | scaleCount | scaleShrink | scaleReturn
  | healthTick | monitorReturn
  | stop | stopDone | stopTimeout | stopClear
  deriving DecidableEq

def workerID (worker : Nat) : Text := sprintf "worker-%d" [.int (worker + 1)]

namespace WorkerPool
variable (wp : WorkerPool)

def minWorkers : Nat := wp.cfg.MinWorkers.toNat
def maxWorkers : Nat := wp.cfg.MaxWorkers.toNat
def capacity : Nat := wp.cfg.QueueLength.toNat

def readLocked : Bool :=
  wp.monitor = .deadlocked ||
    match wp.scaler with
    | .counting _ _ _ => true
    | _ => false

def writeLocked : Bool := wp.scaler = .deadlocked

def canLock : Bool := !wp.readLocked && !wp.writeLocked

def addWorker : WorkerPool :=
  { wp with
    pool := wp.pool ++ [{ index := wp.workers.length }]
    workers := wp.workers ++ [wp.pool.length] }

def addWorkers : Nat → WorkerPool → WorkerPool
  | 0, wp => wp
  | n + 1, wp => addWorkers n wp.addWorker

def start : WorkerPool := addWorkers wp.minWorkers { wp with running := true }

def onWorker (worker : Nat) (next : PoolWorker → Option PoolWorker) : Option WorkerPool :=
  (wp.pool[worker]?.bind next).map fun w => { wp with pool := wp.pool.set worker w }

def take (task : WorkerTask) (w : PoolWorker) : Option PoolWorker :=
  if w.phase = .selecting then some { w with phase := .received task } else none

def panicked (w : PoolWorker) : PoolWorker :=
  { w with panics := w.panics + 1, phase := .ended }

def beginTask (w : PoolWorker) : Option PoolWorker :=
  match w.phase with
  | .received task =>
    let w := { w with busy := true, tasks := w.tasks + 1 }
    match task.env with
    | none => some (panicked w) -- `task.env.ID`
    | some id => some { w with current := id, phase := .delivering task }
  | _ => none

def updateMetrics (worker : Nat) (w : PoolWorker) : WorkerPool :=
  -- the result channel yields nil: `processTask` alone has it and sends nothing else
  let m : WorkerMetrics := {
    WorkerID := workerID worker, TasksProcessed := w.tasks, TasksSucceeded := 1, TasksFailed := 0
    Panics := w.panics }
  { wp with metrics := wp.metrics.insert (workerID worker) m }

def deliver (worker : Nat) (panics : Bool) : Option WorkerPool :=
  match wp.pool[worker]? with
  | none => none
  | some w =>
    match w.phase with
    | .delivering _ =>
      let w := { w with busy := false, current := "" }
      let wp := wp.updateMetrics worker w
      let w := if panics then panicked w else { w with phase := .selecting }
      some { wp with pool := wp.pool.set worker w }
    | _ => none

def submit (task : WorkerTask) : WorkerPool :=
  if wp.running then { wp with submitting := wp.submitting ++ [task] }
  else { wp with submitted := wp.submitted ++ [some (.str "worker pool is not running")] }

def enqueue (call : Nat) (receiver : Option Nat) (done : Option ContextError) : Option WorkerPool :=
  match wp.submitting[call]? with
  | none => none
  | some task =>
    let left := wp.submitting.eraseIdx call
    match done with
    | some err => some { wp with submitting := left, submitted := wp.submitted ++ [some err.text] }
    | none =>
      let accepted := { wp with submitting := left, submitted := wp.submitted ++ [none] }
      if wp.taskCh.length < wp.capacity then
        some { accepted with taskCh := wp.taskCh ++ [task] }
      else match receiver with
        -- an unbuffered channel hands the task to a worker that waits for one
        | some worker => if wp.capacity = 0 then accepted.onWorker worker (take task) else none
        | none =>
          let err := sprintf "task queue is full (%d capacity)" [.int wp.cfg.QueueLength]
          some { wp with submitting := left, submitted := wp.submitted ++ [some err] }

def receive (worker : Nat) : Option WorkerPool :=
  match wp.taskCh with
  | [] => none
  | task :: rest => { wp with taskCh := rest }.onWorker worker (take task)

def busy (worker : Nat) : Bool := (wp.pool[worker]?).elim false (·.busy)

def scaleStep (total : Nat) : Nat := max 1 (total / 4)

def scale : ScalePhase :=
  let total := wp.workers.length
  let queueLen := wp.taskCh.length
  if total = 0 then .deadlocked
  else if wp.cfg.ScaleUpFactor.le (.ratio queueLen wp.capacity) ∧ total < wp.maxWorkers then
    .adding (if wp.maxWorkers < total + scaleStep total then wp.maxWorkers - total
      else scaleStep total)
  else .counting queueLen 0 0

def scaleDown (queueLen busyCount : Nat) : ScalePhase :=
  let total := wp.workers.length
  if 0 < total ∧ wp.cfg.ScaleDownFactor.le (.ratio (total - busyCount) total) ∧
      wp.minWorkers < total ∧ queueLen = 0 then
    .shrinking (max (total - scaleStep total) wp.minWorkers)
  else .ticking

def truncate (removeFrom minWorkers : Nat) : Nat → List Nat → List Nat
  | 0, workers => workers
  | i + 1, workers =>
    if removeFrom ≤ i ∧ minWorkers ≤ i then truncate removeFrom minWorkers i (workers.take i)
    else workers

def shrink (removeFrom : Nat) : WorkerPool :=
  { wp with workers := truncate removeFrom wp.minWorkers wp.workers.length wp.workers }

def indicesToRemove : List Nat :=
  (wp.workers.zipIdx.filter fun entry => 3 < (wp.pool[entry.1]?).elim 0 (·.panics)).map (·.2)

def scaleTick : Option WorkerPool :=
  if wp.scaler = .ticking ∧ 0 < wp.cfg.CheckInterval ∧ ¬ wp.writeLocked then
    some { wp with scaler := wp.scale }
  else none

def scaleAdd : Option WorkerPool :=
  match wp.scaler with
  | .adding (left + 1) =>
    if wp.canLock then
      some { wp.addWorker with scaler := if left = 0 then .ticking else .adding left }
    else none
  | _ => none

def scaleCount : Option WorkerPool :=
  match wp.scaler with
  | .counting queueLen i busyCount =>
    match wp.workers[i]? with
    | some worker =>
      let busyCount := if wp.busy worker then busyCount + 1 else busyCount
      some { wp with scaler := .counting queueLen (i + 1) busyCount }
    | none => some { wp with scaler := wp.scaleDown queueLen busyCount }
  | _ => none

def scaleShrink : Option WorkerPool :=
  match wp.scaler with
  | .shrinking removeFrom =>
    if wp.canLock then some { wp.shrink removeFrom with scaler := .ticking } else none
  | _ => none

def healthTick : Option WorkerPool :=
  if wp.monitor = .ticking ∧ 0 < wp.cfg.CheckInterval ∧ ¬ wp.writeLocked then
    some (if wp.indicesToRemove = [] then wp else { wp with monitor := .deadlocked })
  else none

def stop : WorkerPool :=
  if wp.running then { wp with running := false, cancelled := true, stopping := .waiting } else wp

def workersDone : Bool := wp.pool.all (·.phase = .ended)

def stopClear : Option WorkerPool :=
  match wp.stopping with
  | .waited timedOut =>
    if wp.canLock then some { wp with workers := [], stopping := .returned timedOut } else none
  | _ => none

/-- A step of one of the goroutines; `none` when it is not enabled. In the `select` of `workerRun`
`cancelContext()` is the background context, whose `Done` is never ready. -/
def step : PoolAction → Option WorkerPool
  | .submit task => some (wp.submit task)
  | .enqueue call receiver done => wp.enqueue call receiver done
  | .receive worker => wp.receive worker
  | .begin worker => wp.onWorker worker beginTask
  | .deliver worker panics => wp.deliver worker panics
  | .scaleTick => wp.scaleTick
  | .scaleAdd => wp.scaleAdd
  | .scaleCount => wp.scaleCount
  | .scaleShrink => wp.scaleShrink
  | .scaleReturn =>
    if wp.scaler = .ticking ∧ wp.cancelled then some { wp with scaler := .returned } else none
  | .healthTick => wp.healthTick
  | .monitorReturn =>
    if wp.monitor = .ticking ∧ wp.cancelled then some { wp with monitor := .returned } else none
  | .stop => some wp.stop
  | .stopDone =>
    if wp.stopping = .waiting ∧ wp.workersDone then some { wp with stopping := .waited false }
    else none
  | .stopTimeout =>
    if wp.stopping = .waiting then some { wp with stopping := .waited true } else none
  | .stopClear => wp.stopClear

end WorkerPool
end NexusPipe.Worker
