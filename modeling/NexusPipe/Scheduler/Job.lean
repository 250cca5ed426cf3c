import NexusPipe.Models.Schedule

namespace NexusPipe.Scheduler
open Library Models

inductive JobType
  | pipeline | webhook | custom
  deriving DecidableEq, Repr

def JobType.ofString : String → Option JobType
  | "pipeline" => some .pipeline
  | "webhook" => some .webhook
  | "custom" => some .custom
  | _ => none

structure ScheduledJob where
  ID : UUID
  ScheduleID : String
  PipelineID : String
  Kind : JobType
  CronExpression : String
  Timezone : String
  Priority : Int
  MaxConcurrent : Int
  Tags : List String
  Metadata : Option (GoMap String Any)
  NextRunAt : Time
  LastRunAt : Option Time
  CreatedAt : Time
  Disabled : Bool
  deriving DecidableEq

structure Stamp where
  now : Int
  id : UUID
  deriving DecidableEq, Repr

def scheduleMetadata (host : Host) (s : Schedule) : Option (GoMap String Any) :=
  if s.Metadata = "" then none else host.unmarshal s.Metadata

def proposedType (metadata : Option (GoMap String Any)) : Option JobType :=
  match metadata.bind fun m => m.lookup "job_type" with
  | some (.string text) => JobType.ofString text
  | _ => none

def newScheduledJob (host : Host) (stamp : Stamp) (s : Schedule) : Except Fault ScheduledJob :=
  ((s.nextRunTime host stamp.now).mapError
    (.errorf "compute next run for schedule %s: %w" [.str s.ID])).map fun nextRun =>
      { ID := stamp.id
        ScheduleID := s.ID
        PipelineID := s.PipelineID
        Kind := (proposedType (scheduleMetadata host s)).getD .pipeline
        CronExpression := s.CronExpression
        Timezone := s.Timezone
        Priority := s.Priority
        MaxConcurrent := s.MaxConcurrentRuns
        Tags := s.Tags
        Metadata := scheduleMetadata host s
        NextRunAt := nextRun
        LastRunAt := s.LastRunTime
        CreatedAt := s.CreatedAt
        Disabled := !s.Enabled }

structure JobExecution where
  ID : UUID
  ScheduleID : String
  PipelineID : String
  JobType : JobType
  TriggeredAt : Time
  ScheduledAt : Time
  Attempt : Int
  MaxAttempts : Int
  CorrelationID : UUID
  Tags : List String
  Metadata : Option (GoMap String Any)
  Source : String
  deriving DecidableEq

def newJobExecution (stamp : Stamp) (correlation : UUID) (job : ScheduledJob) : JobExecution where
  ID := stamp.id
  ScheduleID := job.ScheduleID
  PipelineID := job.PipelineID
  JobType := job.Kind
  TriggeredAt := ⟨stamp.now, .utc⟩
  ScheduledAt := job.NextRunAt
  Attempt := 1
  MaxAttempts := 3
  CorrelationID := correlation
  Tags := job.Tags
  Metadata := job.Metadata
  Source := "scheduler"

end NexusPipe.Scheduler
