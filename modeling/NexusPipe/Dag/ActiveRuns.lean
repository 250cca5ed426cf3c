import NexusPipe.Dag.Scheduler

namespace NexusPipe.Dag
open Library

variable {W V : Type}

/-- Where a call of `executeSchedule` is. A panic in the section under the read lock leaves the call;
one in the last section leaves it waiting for its own lock. -/
inductive RunPhase (V : Type)
  | entering
  | checking
  | registering
  | starting
  | executing (run : DAGRun V)
  | recording (run : DAGRun V)
  | leaving (run : DAGRun V)
  | returned (run : Option (DAGRun V))
  | panicked
  | deadlocked

def RunPhase.isExecuting : RunPhase V → Bool
  | .executing _ => true
  | _ => false

def RunPhase.isReturned : RunPhase V → Bool
  | .returned _ => true
  | _ => false

/-- One call of `executeSchedule`; `scheduleID` is the ID of the schedule, which never changes, and
`cancelled` tells whether `Stop` has called the run's cancel function. -/
structure ScheduleRun (V : Type) where
  schedule : Nat
  scheduleID : UUID
  byCron : Bool
  phase : RunPhase V := .entering
  cancelled : Bool := false

inductive LockState
  | free | readHeld | writeHeld
  deriving DecidableEq, Repr

/-- `running` is the state of the cron engine, and `stops` counts the calls of `Stop` that wait for
its jobs. The process ends with a panic in a goroutine of the cron engine. -/
structure RunSystem (W V : Type) where
  scheduler : DAGScheduler W V
  runs : List (ScheduleRun V)
  running : Bool
  stops : Nat
  lock : LockState
  crashed : Bool

def newRunSystem (W V : Type) : RunSystem W V where
  scheduler := newDAGScheduler W V
  runs := []
  running := false
  stops := 0
  lock := .free
  crashed := false

inductive RunMove (W V : Type)
  | enter (entries : (c : Cron.Engine Nat) → Cron.Snapshot c)
  | condition (world : W) (id : UUID) (now : Int)
  | register
  | begin (id : UUID) (now : Int)
  | finish (executed : ExecuteReturn V)
  | record (entries : (c : Cron.Engine Nat) → Cron.Snapshot c)
  | leave

inductive RunAction (W V : Type)
  | call (c : ScheduleCall W)
  | start
  | stop
  -- the rest of `Stop`, once the jobs of the cron engine are done
  | cancelAll (order : GoMap.RangeOrder UUID Nat)
  | fire (entryID : Nat)
  | runNow (id : UUID)
  | move (run : Nat) (m : RunMove W V)

namespace RunSystem
variable (s : RunSystem W V)

def launch (byCron : Bool) (pointer : Nat) : Option (RunSystem W V) :=
  s.scheduler.objects[pointer]?.map fun schedule =>
    { s with runs := s.runs ++ [{ schedule := pointer, scheduleID := schedule.ID, byCron }] }

def cancelRun (id : UUID) (run : Nat) : RunSystem W V :=
  { s with
    runs := s.runs.modify run fun run => { run with cancelled := true }
    scheduler := s.scheduler.unregister id }

def cancelAll (order : GoMap.RangeOrder UUID Nat) : RunSystem W V :=
  (order s.scheduler.activeRuns).entries.foldl (fun s x => s.cancelRun x.1 x.2)
    { s with stops := s.stops - 1 }

def moveRun (number : Nat) (run : ScheduleRun V) (m : RunMove W V) :
    Option (RunPhase V × RunSystem W V) :=
  match run.phase, m with
  | .entering, .enter entries =>
    if s.lock = .writeHeld then none
    else
      match s.scheduler.enter entries run.schedule with
      | (.ok none, scheduler) => some (.returned none, { s with scheduler })
      | (.ok (some _), scheduler) => some (.checking, { s with scheduler })
      | (.error _, scheduler) =>
        some (.panicked, { s with scheduler, lock := .readHeld, crashed := run.byCron })
  | .checking, .condition world id now =>
    s.scheduler.objects[run.schedule]?.bind fun schedule =>
      match schedule.skippedRun world id now with
      | none => some (.registering, s)
      | some skipped =>
        -- `fireEvent` takes the read lock
        if s.lock = .writeHeld then none else some (.returned (some skipped), s)
  | .registering, .register =>
    if s.lock = .free then
      some (.starting, { s with scheduler := s.scheduler.register run.scheduleID number })
    else none
  | .starting, .begin id now =>
    if s.lock = .writeHeld then none
    else
      s.scheduler.objects[run.schedule]?.map fun schedule =>
        (.executing (schedule.startRun id now), s)
  | .executing started, .finish executed =>
    match started.finish executed with
    | (finished, true) => some (.recording finished, s)
    | (finished, false) => some (.leaving finished, s)
  | .recording finished, .record entries =>
    if s.lock = .free then
      match s.scheduler.record entries run.schedule finished with
      | (.ok (), scheduler) => some (.leaving finished, { s with scheduler })
      | (.error _, scheduler) => some (.deadlocked, { s with scheduler, lock := .writeHeld })
    else none
  | .leaving finished, .leave =>
    if s.lock = .free then
      some (.returned (some finished),
        { s with scheduler := s.scheduler.unregister run.scheduleID })
    else none
  | _, _ => none

def act (host : Host) (s : RunSystem W V) : RunAction W V → Option (RunSystem W V)
  | .call c =>
    if s.lock = .free then (s.scheduler.call host c).map fun scheduler => { s with scheduler }
    else none
  | .start => some { s with running := true }
  | .stop => some { s with running := false, stops := s.stops + 1 }
  | .cancelAll order =>
    if 0 < s.stops ∧ s.lock = .free ∧
        ∀ run ∈ s.runs, run.byCron = true → run.phase.isReturned = true then
      some (s.cancelAll order)
    else none
  | .fire entryID =>
    if s.running then
      (s.scheduler.cron.entries.find? (·.ID = entryID)).bind fun entry => s.launch true entry.Job
    else none
  | .runNow id =>
    if s.lock = .writeHeld then none
    else
      match s.scheduler.schedules.lookup id with
      | none => some s
      | some pointer => s.launch false pointer
  | .move number m =>
    s.runs[number]?.bind fun run =>
      (s.moveRun number run m).map fun (phase, s') =>
        { s' with runs := s.runs.set number { run with phase } }

def step (host : Host) (s : RunSystem W V) (a : RunAction W V) : Option (RunSystem W V) :=
  if s.crashed then none else s.act host a

end RunSystem
end NexusPipe.Dag
