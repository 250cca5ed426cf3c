import NexusPipe.Worker.Pool

namespace NexusPipe.Worker
open Library

structure PoolMetrics where
  TotalWorkers : Nat
  BusyWorkers : Nat
  IdleWorkers : Nat
  QueueDepth : Nat
  QueueCapacity : Nat
  deriving DecidableEq, Repr

namespace WorkerPool
variable (wp : WorkerPool)

def poolMetrics : PoolMetrics :=
  let total := wp.workers.length
  let busy := wp.workers.countP wp.busy
  { TotalWorkers := total
    BusyWorkers := busy
    IdleWorkers := total - busy
    QueueDepth := wp.taskCh.length
    QueueCapacity := wp.capacity }

def listMetrics (order : GoMap.RangeOrder Text WorkerMetrics) : List WorkerMetrics :=
  (order wp.metrics).entries.map (·.2)

end WorkerPool

structure HealthMetrics where
  TasksProcessed : Nat
  TasksSucceeded : Nat
  TasksFailed : Nat
  TasksRetried : Nat
  ActiveWorkers : Nat
  IdleWorkers : Nat
  QueueDepth : Nat
  QueueCapacity : Nat
  AvgProcessTime : Float64
  ErrorRate : Float64
  PanicCount : Nat
  deriving DecidableEq, Repr

structure MetricsTotals where
  processed : Nat := 0
  succeeded : Nat := 0
  failed : Nat := 0
  retried : Nat := 0
  panics : Nat := 0
  duration : Float64 := .finite 0
  deriving DecidableEq, Repr

def MetricsTotals.add (total : MetricsTotals) (m : WorkerMetrics) : MetricsTotals where
  processed := total.processed + m.TasksProcessed
  succeeded := total.succeeded + m.TasksSucceeded
  failed := total.failed + m.TasksFailed
  retried := total.retried + m.TasksRetried
  panics := total.panics + m.Panics
  duration := total.duration.add ((Float64.seconds m.AvgDuration).mul (.finite 1000))

def collectMetrics (order : GoMap.RangeOrder Text WorkerMetrics) (pool : WorkerPool) :
    HealthMetrics :=
  let poolMetrics := pool.poolMetrics
  let workerMetrics := pool.listMetrics order
  let total := workerMetrics.foldl MetricsTotals.add {}
  { TasksProcessed := total.processed
    TasksSucceeded := total.succeeded
    TasksFailed := total.failed
    TasksRetried := total.retried
    ActiveWorkers := poolMetrics.BusyWorkers
    IdleWorkers := poolMetrics.IdleWorkers
    QueueDepth := poolMetrics.QueueDepth
    QueueCapacity := poolMetrics.QueueCapacity
    AvgProcessTime :=
      if total.processed > 0 then total.duration.div (.finite workerMetrics.length) else .finite 0
    ErrorRate :=
      if total.processed > 0 then
        ((Float64.ofRat total.failed).div (.ofRat total.processed)).mul (.finite 100)
      else .finite 0
    PanicCount := total.panics }

end NexusPipe.Worker
