import NexusPipe.Cron
import NexusPipe.Models.Pipeline

namespace NexusPipe.Models

def TaskStatus.isTerminal (s : TaskStatus) : Bool :=
  s = .completed ∨ s = .failed ∨ s = .cancelled ∨ s = .timedOut ∨ s = .skipped

end NexusPipe.Models

namespace NexusPipe.Repository
open Library Models

def errNotFound : Text := .str "not found"

structure TaskExecution where
  Status : TaskStatus
  ErrorMessage : String := ""
  RetryCount : Int := 0
  MaxRetries : Int := 3
  StartedAt : Option Time := none
  CompletedAt : Option Time := none
  UpdatedAt : Time
  deriving DecidableEq, Repr

abbrev TaskRepository := GoMap String TaskExecution

inductive ReadError
  | notFound (message : Text)
  | other (message : Text)
  deriving DecidableEq

namespace TaskRepository
variable (rows : TaskRepository)

def getByID (failure : Option Text) (id : String) : Except ReadError TaskExecution :=
  match failure with
  | some err => .error (.other (sprintf "failed to get task %s: %w" [.str id, err]))
  | none =>
    match rows.lookup id with
    | none => .error (.notFound (sprintf "task %s: %w" [.str id, errNotFound]))
    | some row => .ok row

def withStatus (row : TaskExecution) (status : TaskStatus) (msg : String) (now : Time) :
    TaskExecution :=
  if status = .running then
    { row with Status := status, StartedAt := some (row.StartedAt.getD now), UpdatedAt := now }
  else if status = .completed ∨ status = .failed then
    { row with
      Status := status, ErrorMessage := msg, CompletedAt := some now, UpdatedAt := now }
  else { row with Status := status, ErrorMessage := msg, UpdatedAt := now }

def updateStatus (failure : Option Text) (id : String) (status : TaskStatus) (msg : String)
    (now : Time) : Except Text TaskRepository :=
  match failure with
  | some err => .error (sprintf "failed to update task %s status: %w" [.str id, err])
  | none =>
    match rows.lookup id with
    | none => .error (sprintf "task %s: %w" [.str id, errNotFound])
    | some row => .ok (rows.insert id (withStatus row status msg now))

def withRetry (row : TaskExecution) (errMsg : String) (now : Time) : TaskExecution :=
  { row with
    RetryCount := row.RetryCount + 1
    Status := if row.RetryCount + 1 ≥ row.MaxRetries then .failed else .pending
    ErrorMessage := errMsg
    UpdatedAt := now }

def incrementRetry (failure : Option Text) (id : String) (errMsg : String) (now : Time) :
    Except Text TaskRepository :=
  match failure with
  | some err => .error (sprintf "failed to increment retry for task %s: %w" [.str id, err])
  | none =>
    match rows.lookup id with
    | none => .error (sprintf "task %s: %w" [.str id, errNotFound])
    | some row =>
      -- the column is an `INTEGER`
      if 2 ^ 31 ≤ row.RetryCount + 1 then
        .error (sprintf "failed to increment retry for task %s: %w"
          [.str id, .str "integer out of range"])
      else .ok (rows.insert id (withRetry row errMsg now))

structure TaskColumns where
  ScheduledAt : Option Time
  CreatedAt : Time

/-- No other transaction holds a lock on a row. `NOW()` is `now`, and `order` is the order in which
the database finds the rows. -/
def listPending (failure : Option Text) (columns : String → TaskColumns)
    (order : GoMap.RangeOrder String TaskExecution) (now : Time) (limit : Nat) :
    Except Text (List ((_ : String) × TaskExecution)) :=
  match failure with
  | some err => .error (sprintf "failed to list pending tasks: %w" [err])
  | none =>
    let due id := (columns id).ScheduledAt.all fun scheduled => ¬ scheduled.after now
    let found := (order rows).entries.filter fun entry => entry.2.Status = .pending && due entry.1
    let created (entry : (_ : String) × TaskExecution) := (columns entry.1).CreatedAt
    .ok ((found.mergeSort fun a b => ¬ (created a).after (created b)).take limit)

end TaskRepository
end NexusPipe.Repository
