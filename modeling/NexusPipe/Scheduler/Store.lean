import NexusPipe.Models.Schedule

namespace NexusPipe.Scheduler
open Library Models

abbrev ScheduleRepository := GoMap String Schedule

namespace ScheduleRepository

def advance (row : Schedule) (nextRun : Time) (now : Int) : Schedule :=
  { row with
    LastRunTime :=
      if row.NextRunTimeValue.instant < nextRun.instant then some row.NextRunTimeValue
      else row.LastRunTime
    NextRunTimeValue := nextRun
    UpdatedAt := ⟨now, .utc⟩ }

def updateNextRunTime (rows : ScheduleRepository) (failure : Option Text) (id : String)
    (nextRun : Time) (now : Int) : Except Text ScheduleRepository :=
  match failure with
  | some err =>
    .error (sprintf "failed to update next run time for schedule %s: %w" [.str id, err])
  | none =>
    match rows.lookup id with
    | none => .error (sprintf "schedule %s: %w" [.str id, .str "not found"])
    | some row => .ok (rows.insert id (advance row nextRun now))

def get (rows : ScheduleRepository) (failure : Option Text) (id : String) :
    Except Text Schedule :=
  match failure with
  | some err => .error (sprintf "failed to get schedule %s: %w" [.str id, err])
  | none =>
    match rows.lookup id with
    | none => .error (sprintf "schedule %s: %w" [.str id, .str "not found"])
    | some row => .ok row

def toggleEnabled (rows : ScheduleRepository) (failure : Option Text) (id : String)
    (enabled : Bool) (now : Int) : Except Text ScheduleRepository :=
  match failure with
  | some err => .error (sprintf "failed to toggle schedule %s: %w" [.str id, err])
  | none =>
    match rows.lookup id with
    | none => .error (sprintf "schedule %s: %w" [.str id, .str "not found"])
    | some row =>
      .ok (rows.insert id { row with Enabled := enabled, UpdatedAt := ⟨now, .utc⟩ })

inductive QueryFault
  | query (err : Text)
  | scan (err : Text)
  | iterate (err : Text)
  deriving DecidableEq

structure ScheduleFilter where
  PipelineID : String := ""
  Status : Option ScheduleStatus := none
  Enabled : Option Bool := none
  Limit : Int := 0
  Offset : Int := 0

def ScheduleFilter.selects (filter : ScheduleFilter) (row : Schedule) : Bool :=
  (filter.PipelineID = "" || row.PipelineID = filter.PipelineID) &&
    filter.Status.all (fun status => row.Status = status) &&
    filter.Enabled.all (fun enabled => row.Enabled = enabled)

def listedBefore (row row' : Schedule) : Bool :=
  row.Priority < row'.Priority ||
    row.Priority = row'.Priority && row.NextRunTimeValue.instant ≤ row'.NextRunTimeValue.instant

/-- The selected rows in the order of the queries; `order` is the order in which the database comes
across the rows. -/
def select (rows : ScheduleRepository) (order : GoMap.RangeOrder String Schedule)
    (condition : Schedule → Bool) : List Schedule :=
  (((order rows).entries.map Sigma.snd).filter condition).mergeSort listedBefore

def list (rows : ScheduleRepository) (order : GoMap.RangeOrder String Schedule)
    (failure : Option QueryFault) (filter : ScheduleFilter) : Except Text (List Schedule) :=
  let limit := if filter.Limit ≤ 0 then 50 else filter.Limit
  match failure with
  | some (.query err) => .error (sprintf "failed to list schedules: %w" [err])
  | some (.scan err) => .error (sprintf "failed to scan schedule row: %w" [err])
  | some (.iterate err) => .error (sprintf "error iterating schedule rows: %w" [err])
  | none => .ok (((rows.select order filter.selects).drop filter.Offset.toNat).take limit.toNat)

def getDueSchedules (rows : ScheduleRepository) (order : GoMap.RangeOrder String Schedule)
    (failure : Option QueryFault) (locked : String → Bool) (now limit : Int) :
    Except Text (List Schedule) :=
  match failure with
  | some (.query err) => .error (sprintf "failed to get due schedules: %w" [err])
  | some (.scan err) => .error (sprintf "failed to scan due schedule: %w" [err])
  | some (.iterate err) => .error err
  | none =>
    let due := rows.select order fun row =>
      row.Enabled && row.Status = .active && row.NextRunTimeValue.instant ≤ now && !locked row.ID
    .ok (due.take limit.toNat)

end ScheduleRepository

structure CachedSchedule where
  schedule : Nat
  cachedAt : Int
  deriving DecidableEq, Repr

/-- `objects` are the schedules allocated so far, which cache and callers share. -/
structure PostgresScheduleStore where
  repo : ScheduleRepository
  objects : List Schedule := []
  cache : GoMap String CachedSchedule := ∅
  ttl : Int := 30 * second
  deriving DecidableEq

namespace PostgresScheduleStore
variable (s : PostgresScheduleStore)

def cacheRow (row : Schedule) (now : Int) : PostgresScheduleStore :=
  { s with
    objects := s.objects ++ [row]
    cache := s.cache.insert row.ID ⟨s.objects.length, now⟩ }

def getActiveSchedules (listed : Except Text (List Schedule)) (now : Int) :
    Except Text (List Schedule) × PostgresScheduleStore :=
  match listed with
  | .error err => (.error (sprintf "list active schedules: %w" [err]), s)
  | .ok rows => (.ok rows, rows.foldl (fun s row => s.cacheRow row now) s)

def updateNextRunTime (failure : Option Text) (id : String) (nextRun : Time) (now : Int) :
    Except Text PostgresScheduleStore :=
  match s.repo.updateNextRunTime failure id nextRun now with
  | .error err => .error (sprintf "update next run time: %w" [err])
  | .ok rows =>
    match s.cache.lookup id with
    | none => .ok { s with repo := rows }
    | some cached =>
      .ok { s with
        repo := rows
        objects := s.objects.modify cached.schedule fun sch =>
          { sch with NextRunTimeValue := nextRun }
        cache := s.cache.insert id { cached with cachedAt := now } }

def invalidateCache (id : String) : PostgresScheduleStore := { s with cache := s.cache.erase id }

def clearCache : PostgresScheduleStore := { s with cache := ∅ }

def refreshCache (listed : Except Text (List Schedule)) (now : Int) :
    Except Text PostgresScheduleStore :=
  match listed with
  | .error err => .error (sprintf "refresh cache: %w" [err])
  | .ok rows => .ok (rows.foldl (fun s row => s.cacheRow row now) s.clearCache)

def getFromCache (id : String) (now : Int) : Option Nat :=
  match s.cache.lookup id with
  | none => none
  | some cached => if now - cached.cachedAt > s.ttl then none else some cached.schedule

def getDueSchedules (order : GoMap.RangeOrder String Schedule)
    (failure : Option ScheduleRepository.QueryFault) (locked : String → Bool) (now limit : Int) :
    Except Text (List Schedule) :=
  let limit := if limit ≤ 0 then 50 else limit
  (s.repo.getDueSchedules order failure locked now limit).mapError fun err =>
    sprintf "get due schedules: %w" [err]

def getSchedule (failure : Option Text) (id : String) (now : Int) :
    Except Text Nat × PostgresScheduleStore :=
  match s.getFromCache id now with
  | some pointer => (.ok pointer, s)
  | none =>
    match s.repo.get failure id with
    | .error err => (.error err, s)
    | .ok row =>
      (.ok s.objects.length, { s with
        objects := s.objects ++ [row]
        cache := s.cache.insert id ⟨s.objects.length, now⟩ })

def markScheduleFailed (getFailure toggleFailure : Option Text) (id : String) (now : Int) :
    Except Text Unit × PostgresScheduleStore :=
  match s.getSchedule getFailure id now with
  | (.error err, s) => (.error (sprintf "get schedule for mark failed: %w" [err]), s)
  | (.ok pointer, s) =>
    let objects := s.objects.modify pointer fun sch =>
      { sch with Status := .failed, Enabled := false }
    match s.repo.toggleEnabled toggleFailure id false now with
    | .error err => (.error (sprintf "disable failed schedule: %w" [err]), { s with objects })
    | .ok repo => (.ok (), { s with repo, objects, cache := s.cache.erase id })

end PostgresScheduleStore

def newPostgresScheduleStore (repo : ScheduleRepository) : PostgresScheduleStore where
  repo := repo

def activeFilter : ScheduleRepository.ScheduleFilter where
  Status := some .active
  Enabled := some true
  Limit := 1000

inductive StoreCall
  | getActiveSchedules (order : GoMap.RangeOrder String Schedule)
      (failure : Option ScheduleRepository.QueryFault) (now : Int)
  | getSchedule (failure : Option Text) (id : String) (now : Int)
  | updateNextRunTime (failure : Option Text) (id : String) (nextRun : Time) (now : Int)
  | markScheduleFailed (getFailure toggleFailure : Option Text) (id : String) (now : Int)
  | invalidateCache (id : String)
  | refreshCache (order : GoMap.RangeOrder String Schedule)
      (failure : Option ScheduleRepository.QueryFault) (now : Int)
  | clearCache

/-- The store after a call, whatever the call returns. A call that fails at the database leaves the
table as it was. -/
def PostgresScheduleStore.apply (s : PostgresScheduleStore) : StoreCall → PostgresScheduleStore
  | .getActiveSchedules order failure now =>
    (s.getActiveSchedules (s.repo.list order failure activeFilter) now).2
  | .getSchedule failure id now => (s.getSchedule failure id now).2
  | .updateNextRunTime failure id nextRun now =>
    match s.updateNextRunTime failure id nextRun now with
    | .error _ => s
    | .ok s' => s'
  | .markScheduleFailed getFailure toggleFailure id now =>
    (s.markScheduleFailed getFailure toggleFailure id now).2
  | .invalidateCache id => s.invalidateCache id
  | .refreshCache order failure now =>
    match s.refreshCache (s.repo.list order failure activeFilter) now with
    | .error _ => s
    | .ok s' => s'
  | .clearCache => s.clearCache

end NexusPipe.Scheduler
