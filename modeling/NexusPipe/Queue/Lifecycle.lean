import NexusPipe.Go
import NexusPipe.Library.Schedule

namespace NexusPipe.Queue
open Library

/-- What a call of `Start` or `Cancel` does next: a locked section, a request to the broker, the call
of the cancel function, or the wait for the workers. -/
inductive LifecyclePc
  | lockStart
  | acquireChannel (ctx : Nat)
  | qos (ctx ch : Nat)
  | consume (ctx ch : Nat)
  | lockCancel
  | cancel
  | wait
  | lockStopped
  | returned (err : Option Text)
  deriving DecidableEq

inductive LifecycleEvent
  | started | stopped
  deriving DecidableEq, Repr

/-- The part of a `Consumer` that `Start`, `Cancel` and `IsRunning` work on. Contexts are numbered in
the order `Start` makes them, `contexts` says which are done; `workers` has the context of each worker
that has not returned, `holders` the context and the channel of each goroutine that waits to release
it. `history` is what the locked sections did to `running`, newest first. -/
structure Lifecycle where
  Concurrency : Int
  running : Bool := false
  cancel : Option Nat := none
  contexts : List Bool := []
  workers : List Nat := []
  holders : List (Nat × Nat) := []
  released : List Nat := []
  calls : List LifecyclePc := []
  history : List LifecycleEvent := []
  deriving DecidableEq

/-- `answer` is what the broker answers to the request, if there is one: a channel or an error. In the
wait of `Cancel` an error stands for the timer. -/
inductive LifecycleAction
  | start
  | cancel
  | step (call : Nat) (answer : Except Text Nat)
  | endContext (ctx : Nat)
  | workerReturns (worker : Nat)
  | releaseHeld (holder : Nat)
  deriving DecidableEq

namespace Lifecycle
variable (s : Lifecycle)

def isRunning : Bool := s.running

def isDone (ctx : Nat) : Bool := s.contexts.getD ctx false

def releaseChannel (ch : Nat) : Lifecycle := { s with released := s.released ++ [ch] }

def cancelContext : Lifecycle :=
  match s.cancel with
  | none => s
  | some ctx => { s with contexts := s.contexts.set ctx true }

def access (answer : Except Text Nat) : LifecyclePc → Option (LifecyclePc × Lifecycle)
  -- Start
  | .lockStart =>
    if s.running then some (.returned (some (.str "consumer already running")), s)
    else some (.acquireChannel s.contexts.length, { s with
      running := true
      cancel := some s.contexts.length
      contexts := s.contexts ++ [false]
      history := .started :: s.history })
  | .acquireChannel ctx =>
    match answer with
    | .error err => some (.returned (some (sprintf "acquire channel: %w" [err])), s)
    | .ok ch => some (.qos ctx ch, s)
  | .qos ctx ch =>
    match answer with
    | .error err => some (.returned (some (sprintf "set qos: %w" [err])), s.releaseChannel ch)
    | .ok _ => some (.consume ctx ch, s)
  | .consume ctx ch =>
    match answer with
    | .error err => some (.returned (some (sprintf "consume: %w" [err])), s.releaseChannel ch)
    | .ok _ => some (.returned none, { s with
        workers := s.workers ++ List.replicate s.Concurrency.toNat ctx
        holders := s.holders ++ [(ctx, ch)] })
  -- Cancel
  | .lockCancel => if s.running then some (.cancel, s) else some (.returned none, s)
  | .cancel => some (.wait, s.cancelContext)
  | .wait =>
    match answer with
    | .error _ => some (.lockStopped, s)
    | .ok _ => if s.workers = [] then some (.lockStopped, s) else none
  | .lockStopped =>
    some (.returned none, { s with running := false, history := .stopped :: s.history })
  | .returned _ => none

/-- A worker returns when its context is done or its deliveries are closed. -/
def step : LifecycleAction → Option Lifecycle
  | .start => some { s with calls := s.calls ++ [.lockStart] }
  | .cancel => some { s with calls := s.calls ++ [.lockCancel] }
  | .step call answer =>
    match s.calls[call]? with
    | none => none
    | some pc => (s.access answer pc).map fun next =>
      { next.2 with calls := next.2.calls.set call next.1 }
  | .endContext ctx => some { s with contexts := s.contexts.set ctx true }
  | .workerReturns worker => some { s with workers := s.workers.eraseIdx worker }
  | .releaseHeld holder =>
    match s.holders[holder]? with
    | none => none
    | some (ctx, ch) =>
      if s.isDone ctx then
        some (({ s with holders := s.holders.eraseIdx holder } : Lifecycle).releaseChannel ch)
      else none

end Lifecycle

def newLifecycle (concurrency : Int) : Lifecycle where
  Concurrency := concurrency

end NexusPipe.Queue
