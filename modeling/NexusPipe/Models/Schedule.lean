import NexusPipe.Cron

namespace NexusPipe.Models

inductive ScheduleStatus
  | active | paused | failed | deleted
  | other (text : String) (unknown : text ∉ ["active", "paused", "failed", "deleted"])
  deriving DecidableEq

def ScheduleStatus.isValid : ScheduleStatus → Bool
  | .other _ _ => false
  | _ => true

def ScheduleStatus.string : ScheduleStatus → String
  | .active => "active"
  | .paused => "paused"
  | .failed => "failed"
  | .deleted => "deleted"
  | .other text _ => text

structure Schedule where
  ID : String
  PipelineID : String
  CronExpression : String
  Timezone : String
  Status : ScheduleStatus
  Enabled : Bool
  Priority : Int
  MaxConcurrentRuns : Int
  Tags : List String := []
  Metadata : String := ""
  NextRunTimeValue : Time
  LastRunTime : Option Time := none
  CreatedBy : String := ""
  CreatedAt : Time
  UpdatedAt : Time
  deriving DecidableEq

namespace Schedule
variable (host : Host) (s : Schedule)

def nextRunTime (now : Int) : Except Fault Time :=
  if s.CronExpression = "" then .error (.error (.str "cron expression is empty"))
  else
    ((host.loadLocation s.Timezone).mapError fun problem =>
        .error (sprintf "invalid timezone %s: %w" [.str s.Timezone, problem])).bind fun loc =>
      ((host.parse .standard s.CronExpression).mapError
        (.errorf "invalid cron expression %q: %w" [.str s.CronExpression])).map fun schedule =>
          schedule.next ⟨now, loc⟩

/-- The check for a nil location is left out: none comes without an error. -/
def validate : Except Fault Unit :=
  if s.ID = "" then .error (.error (.str "schedule id is required"))
  else if s.PipelineID = "" then .error (.error (.str "pipeline_id is required"))
  else if s.CronExpression = "" then .error (.error (.str "cron_expression is required"))
  else if !s.Status.isValid then
    .error (.error (sprintf "invalid schedule status: %q" [.str s.Status.string]))
  else if s.Priority < 0 then .error (.error (.str "priority must be non-negative"))
  else if s.MaxConcurrentRuns ≤ 0 then
    .error (.error (.str "max_concurrent_runs must be positive"))
  else
    ((host.loadLocation s.Timezone).mapError fun problem =>
        .error (sprintf "invalid timezone %q: %w" [.str s.Timezone, problem])).bind fun _ =>
      ((host.parse .standard s.CronExpression).mapError
        (.errorf "invalid cron expression %q: %w" [.str s.CronExpression])).map fun _ => ()

end Schedule
end NexusPipe.Models
