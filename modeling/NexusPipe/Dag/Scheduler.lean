import NexusPipe.Cron
import NexusPipe.Dag.Executor
import NexusPipe.Dag.Validator

namespace NexusPipe.Dag
open Library

/-- A condition sees the graph; `W` is everything else that its answer may depend on. -/
abbrev DAGCondition (W : Type) := W → Graph → Bool × Option Text

inductive RunStatus
  | skipped | running | failed | timedOut | completed
  deriving DecidableEq, Repr

structure DAGRun (V : Type) where
  ID : UUID
  Graph : Dag.Graph
  StartedAt : Int
  FinishedAt : Option Int := none
  Result : Option (ExecutionResult V) := none
  Error : Option Text := none
  Status : RunStatus

structure DAGSchedule (W V : Type) where
  ID : UUID
  Name : String
  Graph : Dag.Graph
  CronExpr : String
  Condition : Option (DAGCondition W) := none
  Timeout : Int
  Enabled : Bool
  LastRun : Option (DAGRun V) := none
  NextRun : Cron.Activation := none
  EntryID : Nat

/-- `schedules` and the jobs of the cron engine point into `objects`. `activeRuns` tells a cancel
function by the number of its run. -/
structure DAGScheduler (W V : Type) where
  validator : Validator
  cron : Cron.Engine Nat
  schedules : GoMap UUID Nat
  activeRuns : GoMap UUID Nat
  objects : List (DAGSchedule W V)

def newDAGScheduler (W V : Type) : DAGScheduler W V where
  validator := newValidator
  cron := { parser := .withSeconds }
  schedules := ∅
  activeRuns := ∅
  objects := []

variable {W V : Type}

namespace DAGScheduler
variable (s : DAGScheduler W V)

def addSchedule (host : Host) (order : ValidateOrder) (id : UUID) (name cronExpr : String)
    (graph : Graph) : Except Fault Nat × DAGScheduler W V :=
  match s.validator.validateDAG order graph with
  | .error fault => (.error fault, s)
  | .ok result =>
    if !result.Valid then
      (.error (.error (sprintf "invalid DAG for schedule %q: %w" [.str name, result.error])), s)
    else
      match s.cron.addFunc host cronExpr s.objects.length with
      | .error fault =>
        (.error (fault.errorf "failed to register cron expression %q: %w" [.str cronExpr]), s)
      | .ok (entryID, cron) =>
        (.ok s.objects.length,
          { s with
            cron
            objects := s.objects ++ [{
              ID := id
              Name := name
              Graph := graph
              CronExpr := cronExpr
              Timeout := 30 * minute
              Enabled := true
              EntryID := entryID }]
            schedules := s.schedules.insert id s.objects.length })

def removeSchedule (id : UUID) : Bool × DAGScheduler W V :=
  match s.schedules.lookup id with
  | none => (false, s)
  | some pointer =>
    (true,
      { s with
        cron := match s.objects[pointer]? with
          | some schedule => s.cron.remove schedule.EntryID
          | none => s.cron
        schedules := s.schedules.erase id })

def modifySchedule (id : UUID) (change : DAGSchedule W V → DAGSchedule W V) :
    Except Text Unit × DAGScheduler W V :=
  match s.schedules.lookup id with
  | none => (.error (sprintf "schedule %s not found" [.uuid id]), s)
  | some pointer => (.ok (), { s with objects := s.objects.modify pointer change })

def setCondition (id : UUID) (condition : Option (DAGCondition W)) :
    Except Text Unit × DAGScheduler W V :=
  s.modifySchedule id fun schedule => { schedule with Condition := condition }

def setTimeout (id : UUID) (timeout : Int) : Except Text Unit × DAGScheduler W V :=
  s.modifySchedule id fun schedule => { schedule with Timeout := timeout }

def enableSchedule (id : UUID) : Except Text Unit × DAGScheduler W V :=
  s.modifySchedule id fun schedule => { schedule with Enabled := true }

def disableSchedule (id : UUID) : Except Text Unit × DAGScheduler W V :=
  s.modifySchedule id fun schedule => { schedule with Enabled := false }

def nextOf (entries : (c : Cron.Engine Nat) → Cron.Snapshot c) (entryID : Nat) :
    Except Fault Cron.Activation :=
  match (entries s.cron).ids[entryID]? with
  | some id => .ok ((entries s.cron).next id)
  | none => .error (.panic "index out of range")

def enter (entries : (c : Cron.Engine Nat) → Cron.Snapshot c) (pointer : Nat) :
    Except Fault (Option (DAGSchedule W V)) × DAGScheduler W V :=
  match s.objects[pointer]? with
  | none => (.error (.panic "nil pointer dereference"), s)
  | some schedule =>
    if !schedule.Enabled then (.ok none, s)
    else
      match s.nextOf entries schedule.EntryID with
      | .error fault => (.error fault, s)
      | .ok next =>
        let schedule := { schedule with NextRun := next }
        (.ok (some schedule), { s with objects := s.objects.set pointer schedule })

def register (id : UUID) (run : Nat) : DAGScheduler W V :=
  { s with activeRuns := s.activeRuns.insert id run }

def unregister (id : UUID) : DAGScheduler W V := { s with activeRuns := s.activeRuns.erase id }

def record (entries : (c : Cron.Engine Nat) → Cron.Snapshot c) (pointer : Nat) (run : DAGRun V) :
    Except Fault Unit × DAGScheduler W V :=
  match s.objects[pointer]? with
  | none => (.error (.panic "nil pointer dereference"), s)
  | some schedule =>
    let schedule := { schedule with LastRun := some run }
    match s.nextOf entries schedule.EntryID with
    | .error fault => (.error fault, { s with objects := s.objects.set pointer schedule })
    | .ok next =>
      (.ok (), { s with objects := s.objects.set pointer { schedule with NextRun := next } })

end DAGScheduler

def DAGSchedule.skippedRun (schedule : DAGSchedule W V) (world : W) (id : UUID) (now : Int) :
    Option (DAGRun V) :=
  match schedule.Condition with
  | none => none
  | some condition =>
    match condition world schedule.Graph with
    | (_, some err) =>
      some {
        ID := id
        Graph := schedule.Graph
        StartedAt := now
        Status := .skipped
        Error := some (sprintf "condition check failed: %w" [err]) }
    | (false, none) =>
      some { ID := id, Graph := schedule.Graph, StartedAt := now, Status := .skipped }
    | (true, none) => none

def DAGSchedule.startRun (schedule : DAGSchedule W V) (id : UUID) (now : Int) : DAGRun V :=
  { ID := id, Graph := schedule.Graph, StartedAt := now, Status := .running }

structure ExecuteReturn (V : Type) where
  outcome : Except Text (ExecutionResult V)
  ctxErr : Option ContextError
  finishedAt : Int
  timedOutAt : Int

def DAGRun.finish (run : DAGRun V) (executed : ExecuteReturn V) : DAGRun V × Bool :=
  let run := { run with FinishedAt := some executed.finishedAt }
  match executed.outcome with
  | .error err => ({ run with Status := .failed, Error := some err }, false)
  | .ok result =>
    match executed.ctxErr with
    | some err =>
      ({ run with
          Status := .timedOut
          Error := some err.text
          Result := some result
          FinishedAt := some executed.timedOutAt }, false)
    | none =>
      if result.Success then
        ({ run with Result := some result, Status := .completed }, true)
      else
        ({ run with
            Result := some result
            Status := .failed
            Error := some (.str "one or more nodes failed") }, true)

/-- What one call of `executeSchedule` meets: the snapshots of its two lookups, the number of the
run, what the condition sees, the draws of `uuid.New` and the clock, and `Execute`. -/
structure RunEnv (W V : Type) where
  entering : (c : Cron.Engine Nat) → Cron.Snapshot c
  recording : (c : Cron.Engine Nat) → Cron.Snapshot c
  number : Nat
  world : W
  id : UUID
  startedAt : Int
  execute : Int → Graph → ExecuteReturn V

/-- How a call ends. A panic of the last section does not leave the call: the deferred function
waits for the lock that the call itself holds. -/
inductive RunReturn (V : Type)
  | returned (run : Option (DAGRun V))
  | panicked (fault : Fault)
  | deadlocked

namespace DAGScheduler
variable (s : DAGScheduler W V)

def executeSchedule (env : RunEnv W V) (pointer : Nat) : RunReturn V × DAGScheduler W V :=
  match s.enter env.entering pointer with
  | (.error fault, s) => (.panicked fault, s)
  | (.ok none, s) => (.returned none, s)
  | (.ok (some schedule), s) =>
    match schedule.skippedRun env.world env.id env.startedAt with
    | some run => (.returned (some run), s)
    | none =>
      let s := s.register schedule.ID env.number
      match (schedule.startRun env.id env.startedAt).finish
          (env.execute schedule.Timeout schedule.Graph) with
      | (run, false) => (.returned (some run), s.unregister schedule.ID)
      | (run, true) =>
        match s.record env.recording pointer run with
        | (.error _, s) => (.deadlocked, s)
        | (.ok (), s) => (.returned (some run), s.unregister schedule.ID)

def runNow (env : RunEnv W V) (id : UUID) : Except Text (RunReturn V) × DAGScheduler W V :=
  match s.schedules.lookup id with
  | none => (.error (sprintf "schedule %s not found" [.uuid id]), s)
  | some pointer =>
    let (run, s) := s.executeSchedule env pointer
    (.ok run, s)

end DAGScheduler

inductive ScheduleCall (W : Type)
  | add (order : ValidateOrder) (id : UUID) (name cronExpr : String) (graph : Graph)
  | remove (id : UUID)
  | setCondition (id : UUID) (condition : Option (DAGCondition W))
  | setTimeout (id : UUID) (timeout : Int)
  | enable (id : UUID)
  | disable (id : UUID)

def DAGScheduler.call (host : Host) (s : DAGScheduler W V) :
    ScheduleCall W → Option (DAGScheduler W V)
  | .add order id name cronExpr graph =>
    match s.addSchedule host order id name cronExpr graph with
    | (.error (.panic _), _) => none
    | (_, s) => some s
  | .remove id => some (s.removeSchedule id).2
  | .setCondition id condition => some (s.setCondition id condition).2
  | .setTimeout id timeout => some (s.setTimeout id timeout).2
  | .enable id => some (s.enableSchedule id).2
  | .disable id => some (s.disableSchedule id).2

end NexusPipe.Dag
