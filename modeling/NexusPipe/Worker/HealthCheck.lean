import NexusPipe.Worker.Pool

namespace NexusPipe.Worker
open Library

def removeWorker (index : Int) (workers : List Nat) : List Nat :=
  if index < 0 ∨ (workers.length : Int) ≤ index then workers else workers.eraseIdx index.toNat

inductive CheckPhase
  | called -- at `wp.mu.RLock()`
  | scanning (i : Nat) (indicesToRemove : List Nat)
  | removing (left : List Nat)
  | locking (index : Nat) (left : List Nat) -- at `wp.mu.Lock()` of `removeWorker`
  | returned
  deriving DecidableEq, Repr

def CheckPhase.holds : CheckPhase → Bool
  | .called | .returned => false
  | _ => true

def CheckPhase.requests : CheckPhase → Bool
  | .called | .locking _ _ => true
  | _ => false

/-- A call of `checkWorkerHealth` among the other goroutines: `readers` are the read locks of those,
`writer` the lock of one of them. The workers are pointers, and `panics` is the field of each. -/
structure HealthCheck where
  workers : List Nat
  panics : Nat → Nat
  readers : Nat := 0
  writer : Bool := false
  phase : CheckPhase := .called

inductive CheckAction
  | check -- the call itself
  | rLock | rUnlock
  | lock
  | unlock (workers : List Nat) -- with what the section has made of `wp.workers`
  | panicked (worker : Nat)
  deriving DecidableEq, Repr

namespace HealthCheck
variable (s : HealthCheck)

def canLock : Bool := !s.writer && s.readers = 0 && !s.phase.holds

def check : Option HealthCheck :=
  match s.phase with
  | .called => if s.writer then none else some { s with phase := .scanning 0 [] }
  | .scanning i indicesToRemove =>
    match s.workers[i]? with
    | none => some { s with phase := .removing indicesToRemove }
    | some w =>
      let indicesToRemove := if s.panics w > 3 then indicesToRemove ++ [i] else indicesToRemove
      some { s with phase := .scanning (i + 1) indicesToRemove }
  | .removing [] => some { s with phase := .returned }
  | .removing (idx :: left) => some { s with phase := .locking idx left }
  | .locking index left =>
    if s.canLock then
      some { s with workers := removeWorker index s.workers, phase := .removing left }
    else none
  | .returned => none

def step : CheckAction → Option HealthCheck
  | .check => s.check
  | .rLock =>
    -- a `Lock` that waits keeps out new readers
    match s.phase with
    | .locking _ _ => none
    | _ => if s.writer then none else some { s with readers := s.readers + 1 }
  | .rUnlock => if s.readers = 0 then none else some { s with readers := s.readers - 1 }
  | .lock => if s.canLock then some { s with writer := true } else none
  | .unlock workers => if s.writer then some { s with workers, writer := false } else none
  | .panicked worker =>
    some { s with panics := fun w => if w = worker then s.panics w + 1 else s.panics w }

end HealthCheck

def WorkerPool.healthCheck (wp : WorkerPool) : HealthCheck where
  workers := wp.workers
  panics worker := (wp.pool[worker]?).elim 0 (·.panics)

end NexusPipe.Worker
