import NexusPipe.Cron
import NexusPipe.Library.While
import NexusPipe.Strings

namespace NexusPipe.Scheduler
open Library

variable (host : Host)

def parseCronExpression (expr : String) : Except Fault Cron.Schedule :=
  if expr = "" then .error (.error (.str "cron expression cannot be empty"))
  else
    (host.parse .standard expr).mapError (.errorf "invalid cron expression %q: %w" [.str expr])

def nextRunTime (expr : String) (loc : Option Location) (now : Int) : Except Fault Time :=
  (parseCronExpression host expr).map fun schedule => schedule.next ⟨now, loc.getD .utc⟩

def countRound (schedule : Cron.Schedule) (untilTime : Time) (s : Nat × Time) :
    (Nat × Time) ⊕ (Nat × Time) :=
  let next := schedule.next s.2
  if next.after untilTime then .inr (s.1, next) else .inl (s.1 + 1, next)

def countMissedRuns (fuel : Nat) (expr : String) (since untilTime : Time)
    (loc : Option Location) : Option (Except Fault (Nat × Time)) :=
  if since.after untilTime then some (.error (.error (.str "since must be before until")))
  else
    match parseCronExpression host expr with
    | .error fault => some (.error fault)
    | .ok schedule =>
      (loopFor (countRound schedule untilTime) fuel (0, since.isIn (loc.getD .utc))).map .ok

def scheduleNext (expr : String) (since : Time) (loc : Location) : Time :=
  match parseCronExpression host expr with
  | .error _ => since
  | .ok schedule => schedule.next (since.isIn loc)

def dayName (d : String) : String :=
  if d = "0" ∨ d = "7" then "Sunday"
  else if d = "1" then "Monday"
  else if d = "2" then "Tuesday"
  else if d = "3" then "Wednesday"
  else if d = "4" then "Thursday"
  else if d = "5" then "Friday"
  else if d = "6" then "Saturday"
  else d

def describeDayOfWeek (dow : String) : String :=
  Strings.join ((Strings.split dow ',').map fun d => dayName (trimSpace d)) ", "

def padField (f : String) : String := if f.utf8ByteSize = 1 then "0" ++ f else f

def describeText (expr : String) : String :=
  let fields := Cron.fields expr
  let fields := if fields.length = 6 then fields.drop 1 else fields
  match fields with
  | [minute, hour, dom, month, dow] =>
    if fields = ["*", "*", "*", "*", "*"] then "Every minute"
    else if fields = ["0", "*", "*", "*", "*"] then "Every hour"
    else if fields = ["0", "0", "*", "*", "*"] then "Daily at midnight"
    else if fields = ["0", "12", "*", "*", "*"] then "Daily at noon"
    else if fields = ["0", "0", "1", "*", "*"] then "First day of every month at midnight"
    else if fields = ["0", "9", "*", "*", "1"] then "Every Monday at 9:00 AM"
    else if fields = ["0", "9", "*", "*", "5"] then "Every Friday at 9:00 AM"
    else if dom = "*" ∧ month = "*" ∧ dow ≠ "*" ∧ hour ≠ "*" ∧ minute ≠ "*" then
      "Every " ++ describeDayOfWeek dow ++ " at " ++ padField hour ++ ":" ++ padField minute
    else if dom = "*" ∧ month = "*" ∧ dow = "*" ∧ hour ≠ "*" ∧ minute ≠ "*" then
      "Daily at " ++ padField hour ++ ":" ++ padField minute
    else if minute = "*/5" ∧ hour = "*" then "Every 5 minutes"
    else if minute = "*/10" ∧ hour = "*" then "Every 10 minutes"
    else if minute = "*/15" ∧ hour = "*" then "Every 15 minutes"
    else if minute = "*/30" ∧ hour = "*" then "Every 30 minutes"
    else if minute = "0" ∧ Strings.hasPrefix hour "*/" then
      "Every " ++ Strings.trimPrefix hour "*/" ++ " hours"
    else "Cron: " ++ expr
  | _ => "Custom schedule: " ++ expr

def describeSchedule (expr : String) : Except Fault String :=
  (parseCronExpression host expr).map fun _ => describeText expr

end NexusPipe.Scheduler
