import NexusPipe.Scheduler.Cron
import NexusPipe.Scheduler.Job
import NexusPipe.Scheduler.Store

namespace NexusPipe.Scheduler
open Library Models

inductive SkipPolicy
  | none | executeLatest | skipAll | executeAll
  | other (value : Int) (unknown : value < 0 ∨ 3 < value)
  deriving DecidableEq

structure RecoveryConfig where
  Enabled : Bool
  Policy : SkipPolicy
  MaxLookback : Int
  BatchSize : Int
  Interval : Int
  DryRun : Bool
  deriving DecidableEq

def defaultRecoveryConfig : RecoveryConfig where
  Enabled := true
  Policy := .executeLatest
  MaxLookback := 24 * 60 * minute
  BatchSize := 20
  Interval := 5 * minute
  DryRun := false

/-- Without `Error`, which only `RecoverMissedJobs` fills in: see `RecoveryOutcome`. -/
structure RecoveryResult where
  ScheduleID : String
  PipelineID : String
  MissedRuns : Nat := 0
  ExecutedRuns : Nat := 0
  SkippedRuns : Nat := 0
  NextScheduledAt : Time := .zero
  Policy : SkipPolicy
  Duration : Int := 0
  deriving DecidableEq

structure World where
  store : PostgresScheduleStore
  queue : List JobExecution := []
  log : List Text := []
  deriving DecidableEq

structure ExecutionStamp where
  job : Stamp
  execution : Stamp
  correlation : UUID

/-- What one call meets outside the code: the fuel for the count, the stamps of the executions, the
error the database reports for the update, the clock, and the time the call takes. -/
structure RecoveryCall where
  fuel : Nat
  stamps : Nat → ExecutionStamp
  failure : Option Text := none
  clock : Int
  elapsed : Int

section
variable (host : Host) (config : RecoveryConfig) (call : RecoveryCall) (sch : Schedule)

def executeRecoveryJob (stamp : ExecutionStamp) (w : World) : Except Fault World :=
  if config.DryRun then .ok w
  else
    match newScheduledJob host stamp.job sch with
    | .error fault => .error (fault.errorf "create recovery job: %w" [])
    | .ok job =>
      let exec := newJobExecution stamp.execution stamp.correlation job
      .ok { w with
        log := w.log ++ [sprintf "recovery dispatching job: schedule=%s pipeline=%s exec=%s"
          [.str exec.ScheduleID, .str exec.PipelineID, .uuid exec.ID]] }

def executeRound (loc : Location) (s : Nat × Time × World) (i : Nat) : Nat × Time × World :=
  let intermediate := scheduleNext host sch.CronExpression s.2.1 loc
  if config.DryRun then (s.1 + 1, intermediate, s.2.2)
  else
    match executeRecoveryJob host config sch (call.stamps i) s.2.2 with
    | .error fault =>
      (s.1, intermediate,
        { s.2.2 with
          log := s.2.2.log ++ [sprintf "recovery execute job %d for schedule %s failed: %v"
            [.int i, .str sch.ID, fault.text]] })
    | .ok w => (s.1 + 1, intermediate, w)

def advanceStored (template : String) (nextRun : Time) (result : RecoveryResult) (w : World) :
    RecoveryResult × Option Fault × World :=
  match w.store.updateNextRunTime call.failure sch.ID nextRun call.clock with
  | .error err => (result, some (.error (sprintf template [err])), w)
  | .ok store => ({ result with Duration := call.elapsed }, none, { w with store })

def applyPolicy (loc : Location) (since : Time) (missedCount : Nat) (nextRun : Time)
    (result : RecoveryResult) (w : World) : RecoveryResult × Option Fault × World :=
  match config.Policy with
  | .skipAll =>
    advanceStored call sch "update next run after skip: %w" nextRun
      { result with SkippedRuns := missedCount, NextScheduledAt := nextRun } w
  | .executeLatest =>
    let result := { result with SkippedRuns := missedCount - 1, ExecutedRuns := 1 }
    match executeRecoveryJob host config sch (call.stamps 0) w with
    | .error fault => (result, some (fault.errorf "execute latest recovery job: %w" []), w)
    | .ok w =>
      advanceStored call sch "update next run after execute latest: %w" nextRun
        { result with NextScheduledAt := nextRun } w
  | .executeAll =>
    let s := (List.range missedCount).foldl (executeRound host config call sch loc) (0, since, w)
    let result := { result with ExecutedRuns := s.1, NextScheduledAt := nextRun }
    if config.DryRun then ({ result with Duration := call.elapsed }, none, s.2.2)
    else advanceStored call sch "update next run after execute all: %w" nextRun result s.2.2
  | .none =>
    ({ result with
      ExecutedRuns := missedCount, NextScheduledAt := nextRun, Duration := call.elapsed },
      none, w)
  | .other _ _ =>
    ({ result with
      SkippedRuns := missedCount, NextScheduledAt := nextRun, Duration := call.elapsed },
      none, w)

def recoverySince (now : Time) : Time :=
  let lookbackStart := now.add (toInt64 (-config.MaxLookback))
  match sch.LastRunTime with
  | some lastRun => if lastRun.after lookbackStart then lastRun else lookbackStart
  | none => lookbackStart

def recoverSingleSchedule (now : Time) (w : World) :
    Option (RecoveryResult × Option Fault × World) :=
  let result : RecoveryResult :=
    { ScheduleID := sch.ID, PipelineID := sch.PipelineID, Policy := config.Policy }
  if sch.Enabled = false ∨ sch.Status ≠ .active then some (result, none, w)
  else
    match host.loadLocation sch.Timezone with
    | .error err =>
      some (result, some (.error (sprintf "load timezone %s: %w" [.str sch.Timezone, err])), w)
    | .ok loc =>
      let since := recoverySince config sch now
      if sch.NextRunTimeValue.after now then
        some ({ result with NextScheduledAt := sch.NextRunTimeValue }, none, w)
      else
        match countMissedRuns host call.fuel sch.CronExpression since now (some loc) with
        | none => none
        | some (.error fault) => some (result, some (fault.errorf "count missed runs: %w" []), w)
        | some (.ok (missedCount, nextRun)) =>
          let result := { result with MissedRuns := missedCount }
          if missedCount = 0 then some (result, none, w)
          else some (applyPolicy host config call sch loc since missedCount nextRun result w)

end

structure RecoveryOutcome where
  result : RecoveryResult
  Error : Text := .str ""
  deriving DecidableEq

section
variable (host : Host) (config : RecoveryConfig) (calls : Nat → RecoveryCall)

def recoverEach (now : Time) :
    (index : Nat) → List Schedule → World → Option (List RecoveryOutcome × World)
  | _, [], w => some ([], w)
  | index, sch :: schedules, w =>
    match recoverSingleSchedule host config (calls index) sch now w with
    | none => none
    | some (_, some (.panic _), _) => none
    | some (_, some (.error err), w) =>
      let outcome : RecoveryOutcome :=
        { result := { ScheduleID := sch.ID, PipelineID := sch.PipelineID, Policy := .none }
          Error := err }
      let logged := { w with
        log := w.log ++ [sprintf "recovery error for schedule %s: %v" [.str sch.ID, err]] }
      (recoverEach now (index + 1) schedules logged).map fun rest => (outcome :: rest.1, rest.2)
    | some (result, none, w) =>
      (recoverEach now (index + 1) schedules w).map fun rest => ({ result } :: rest.1, rest.2)

/-- `order` and `failure` are what the query of the active schedules meets, `cachedAt` and `now` the
clock when they are cached and when the recovery begins. -/
def recoverMissedJobs (order : GoMap.RangeOrder String Schedule)
    (failure : Option ScheduleRepository.QueryFault) (cachedAt : Int) (now : Time) (w : World) :
    Option (Except Text (List RecoveryOutcome) × World) :=
  if config.Enabled = false then
    some (.ok [], { w with log := w.log ++ [.str "schedule recovery is disabled, skipping"] })
  else
    match w.store.getActiveSchedules (w.store.repo.list order failure activeFilter) cachedAt with
    | (.error err, store) =>
      some (.error (sprintf "get active schedules for recovery: %w" [err]), { w with store })
    | (.ok schedules, store) =>
      (recoverEach host config calls now 0 schedules { w with store }).map fun done =>
        let executed : Nat := done.1.foldl (fun n outcome => n + outcome.result.ExecutedRuns) 0
        let skipped : Nat := done.1.foldl (fun n outcome => n + outcome.result.SkippedRuns) 0
        (.ok done.1, { done.2 with
          log := done.2.log ++
            [sprintf "recovery complete: %d schedules checked, %d executed, %d skipped"
              [.int schedules.length, .int executed, .int skipped]] })

end
end NexusPipe.Scheduler
