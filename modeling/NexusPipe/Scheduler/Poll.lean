import Mathlib.Algebra.GroupWithZero.Nat
import NexusPipe.Queue.Publisher
import NexusPipe.Scheduler.Cron
import NexusPipe.Scheduler.Job
import NexusPipe.Scheduler.Store

namespace NexusPipe.Scheduler
open Library Models Queue

structure Occurrence where
  scheduleID : String
  nextRunTime : Int
  deriving DecidableEq, Repr

def Occurrence.ofRow (row : Schedule) : Occurrence := ⟨row.ID, row.NextRunTimeValue.instant⟩

inductive JobPhase
  | starting
  | publishing (state : PublishState)
  | updating -- published, before `NextRunTime` and the update of the table
  | ended
  deriving DecidableEq

structure PollJob where
  occurrence : Occurrence
  job : ScheduledJob
  phase : JobPhase := .starting
  dispatches : Nat := 0

/-- The scheduler processes share the table; a poll does not read their caches. `jobs` are the
goroutines that the polls started. -/
structure PollSystem where
  repo : ScheduleRepository
  jobs : List PollJob := []

structure PollEnv where
  host : Host
  hasJob : Nat → String → Bool
  pollLimit : Int := 50

inductive PollAction
  -- a tick of the poll loop of a process, up to the start of the goroutines
  | poll (process : Nat) (order : GoMap.RangeOrder String Schedule)
      (failure : Option ScheduleRepository.QueryFault) (locked : String → Bool) (now : Int)
      (stamps : Nat → Stamp)
  | start (job : Nat) (marshalErr : Option Text) -- up to the first attempt
  | publish (job : Nat) (delivered : Bool) (err : Option Text)
  | wait (job : Nat) (done : Option ContextError)
  | update (job : Nat) (now : Int) (failure : Option Text)

def dueJobs (env : PollEnv) (process : Nat) (stamps : Nat → Stamp) :
    List (Schedule × Nat) → List PollJob
  | [] => []
  | (sch, i) :: rest =>
    if env.hasJob process sch.ID then dueJobs env process stamps rest
    else match newScheduledJob env.host (stamps i) sch with
      | .error (.panic _) => []
      | .error (.error _) => dueJobs env process stamps rest
      | .ok job => { occurrence := .ofRow sch, job } :: dueJobs env process stamps rest

namespace PollSystem
variable (env : PollEnv) (s : PollSystem)

def polled (process : Nat) (order : GoMap.RangeOrder String Schedule)
    (failure : Option ScheduleRepository.QueryFault) (locked : String → Bool) (now : Int)
    (stamps : Nat → Stamp) : List PollJob :=
  match (newPostgresScheduleStore s.repo).getDueSchedules order failure locked now env.pollLimit with
  | .error _ => []
  | .ok due => dueJobs env process stamps due.zipIdx

def startJob (j : PollJob) (marshalErr : Option Text) : Option PollJob :=
  match j.phase with
  | .starting =>
    if j.job.Disabled then some { j with phase := .ended }
    else match marshalErr with
      | some _ => some { j with phase := .ended }
      | none => some { j with phase := .publishing (.start 2) }
  | _ => none

def afterPublish (j : PollJob) : PublishState → PollJob
  | .returned none => { j with phase := .updating }
  | .returned (some _) => { j with phase := .ended }
  | state => { j with phase := .publishing state }

def publishJob (j : PollJob) (delivered : Bool) (err : Option Text) : Option PollJob :=
  match j.phase with
  | .publishing (.attempting attempt) =>
    -- a message may have reached the queue whatever error is reported
    let j := if delivered then { j with dispatches := j.dispatches + 1 } else j
    some (afterPublish j (.published 2 attempt err))
  | _ => none

def waitJob (j : PollJob) (done : Option ContextError) : Option PollJob :=
  match j.phase with
  | .publishing (.waiting attempt) => some (afterPublish j (.waited attempt done))
  | _ => none

def updateTable (j : PollJob) (now : Int) (failure : Option Text) : ScheduleRepository :=
  -- the errors of both calls are only logged
  match nextRunTime env.host j.job.CronExpression none now with
  | .error _ => s.repo
  | .ok nextRun =>
    match s.repo.updateNextRunTime failure j.job.ScheduleID nextRun now with
    | .error _ => s.repo
    | .ok repo => repo

def onJob (job : Nat) (next : PollJob → Option PollJob) : Option PollSystem :=
  (s.jobs[job]?.bind next).map fun j => { s with jobs := s.jobs.set job j }

def step : PollAction → Option PollSystem
  | .poll process order failure locked now stamps =>
    some { s with jobs := s.jobs ++ s.polled env process order failure locked now stamps }
  | .start job marshalErr => s.onJob job fun j => startJob j marshalErr
  | .publish job delivered err => s.onJob job fun j => publishJob j delivered err
  | .wait job done => s.onJob job fun j => waitJob j done
  | .update job now failure =>
    match s.jobs[job]? with
    | some j =>
      if j.phase = .updating then
        some { repo := s.updateTable env j now failure
               jobs := s.jobs.set job { j with phase := .ended } }
      else none
    | none => none

def dispatched (o : Occurrence) : Nat :=
  ((s.jobs.filter fun j => j.occurrence = o).map (·.dispatches)).sum

end PollSystem
end NexusPipe.Scheduler
