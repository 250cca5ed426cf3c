import NexusPipe.Library.Schedule
import NexusPipe.Scheduler.Job
import NexusPipe.Scheduler.Store

namespace NexusPipe.Scheduler
open Library Models

structure SchedulerService where
  cron : Cron.Engine ScheduledJob
  store : PostgresScheduleStore
  activeJobs : GoMap String Nat

def newSchedulerService (repo : ScheduleRepository) : SchedulerService where
  cron := { parser := .withSeconds }
  store := { repo }
  activeJobs := ∅

namespace SchedulerService
variable (host : Host) (s : SchedulerService)

def addJob (stamp : Stamp) (schedule : Schedule) : Except Fault Nat × SchedulerService :=
  match newScheduledJob host stamp schedule with
  | .error fault => (.error (fault.errorf "create scheduled job: %w" []), s)
  | .ok job =>
    match s.cron.addFunc host schedule.CronExpression job with
    | .error fault => (.error (fault.errorf "add cron func: %w" []), s)
    | .ok (entryID, cron) =>
      (.ok entryID,
        { s with cron, activeJobs := s.activeJobs.insert schedule.ID entryID })

def removeJob (scheduleID : String) : Except Text Unit × SchedulerService :=
  match s.activeJobs.lookup scheduleID with
  | none => (.error (sprintf "schedule %s not found in active jobs" [.str scheduleID]), s)
  | some entryID =>
    (.ok (),
      { cron := s.cron.remove entryID
        activeJobs := s.activeJobs.erase scheduleID
        store := s.store.invalidateCache scheduleID })

def updateJob (stamp : Stamp) (schedule : Schedule) : Except Fault Nat × SchedulerService :=
  (s.removeJob schedule.ID).2.addJob host stamp schedule

def addJobs (stamps : Nat → Stamp) :
    List (Schedule × Nat) → SchedulerService → Except Fault Unit × SchedulerService
  | [], s => (.ok (), s)
  | item :: rest, s =>
    match s.addJob host (stamps item.2) item.1 with
    | (.error (.panic reason), s') => (.error (.panic reason), s')
    | (_, s') => addJobs stamps rest s'

def loadActiveJobs (now : Int) (stamps : Nat → Stamp) (listed : Except Text (List Schedule)) :
    Except Fault Unit × SchedulerService :=
  match s.store.getActiveSchedules listed now with
  | (.error err, store) =>
    (.error (.error (sprintf "get active schedules: %w" [err])), { s with store })
  | (.ok schedules, store) => addJobs host stamps schedules.zipIdx { s with store }

def clearJobs (order : GoMap.RangeOrder String Nat) : SchedulerService :=
  (order s.activeJobs).entries.foldl
    (fun s item =>
      { s with cron := s.cron.remove item.2, activeJobs := s.activeJobs.erase item.1 }) s

def reloadJobs (order : GoMap.RangeOrder String Nat) (now : Int) (stamps : Nat → Stamp)
    (listed : Except Text (List Schedule)) : Except Fault Unit × SchedulerService :=
  (s.clearJobs order).loadActiveJobs host now stamps listed

end SchedulerService

inductive JobCall
  | add (stamp : Stamp) (schedule : Schedule)
  | remove (scheduleID : String)
  | update (stamp : Stamp) (schedule : Schedule)
  | reload (now : Int) (stamps : Nat → Stamp) (listed : Except Text (List Schedule))

def SchedulerService.settle {V : Type} :
    Except Fault V × SchedulerService → Option SchedulerService
  | (.error (.panic _), _) => none
  | (_, s) => some s

def SchedulerService.call (host : Host) (order : GoMap.RangeOrder String Nat)
    (s : SchedulerService) : JobCall → Option SchedulerService
  | .add stamp schedule => settle (s.addJob host stamp schedule)
  | .remove scheduleID => some (s.removeJob scheduleID).2
  | .update stamp schedule => settle (s.updateJob host stamp schedule)
  | .reload now stamps listed => settle (s.reloadJobs host order now stamps listed)

end NexusPipe.Scheduler
