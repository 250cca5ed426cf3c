import NexusPipe.Worker.Handler

namespace NexusPipe.Api.Handlers
open Library Models Repository Worker

inductive TaskResponse
  | success (task : TaskExecution)
  | noContent
  | notFound (message : String)
  | internalError (message : String)
  deriving DecidableEq

section
variable (failure : Option Text) (repo : TaskRepository) (id : String)

def fetchTask : Except TaskResponse TaskExecution :=
  match repo.getByID failure id with
  | .ok task => .ok task
  | .error (.notFound _) => .error (.notFound "Task not found")
  | .error (.other _) => .error (.internalError "Failed to get task")

def retryTask (task : TaskExecution) (now : Time) : TaskRepository × TaskResponse :=
  match repo.incrementRetry failure id "manual retry" now with
  | .error _ => (repo, .internalError "Failed to retry task")
  | .ok repo => (repo, .success { task with Status := .pending })

/-- `RetryTask` when nobody else writes to the row in between; its two statements may fail. -/
def retryTaskAlone (fetching : Option Text) (now : Time) : TaskRepository × TaskResponse :=
  match fetchTask fetching repo id with
  | .error response => (repo, response)
  | .ok task => retryTask failure repo id task now

def cancelTask (now : Time) : TaskRepository × TaskResponse :=
  match repo.updateStatus failure id .cancelled "cancelled by user" now with
  | .error _ => (repo, .internalError "Failed to cancel task")
  | .ok repo => (repo, .noContent)

end

inductive TaskOperation
  | retry | cancel
  deriving DecidableEq

structure TaskRequest where
  operation : TaskOperation
  id : String
  task : TaskExecution
  deriving DecidableEq

def TaskRequest.finish (request : TaskRequest) (failure : Option Text) (repo : TaskRepository)
    (now : Time) : TaskRepository × TaskResponse :=
  match request.operation with
  | .retry => retryTask failure repo request.id request.task now
  | .cancel => cancelTask failure repo request.id now

structure TaskSystem (R : Type) where
  repo : TaskRepository
  requests : R → Option TaskRequest := fun _ => none

/-- A delivery makes at most one statement and reads no row, so it is one step. -/
inductive TaskAction (R : Type)
  | fetch (r : R) (operation : TaskOperation) (failure : Option Text) (id : String)
  | finish (r : R) (failure : Option Text) (now : Time)
  | deliver (cfg : HandlerConfig) (call : DeliveryCall) (msg : Queue.Delivery)

def TaskSystem.step {R : Type} [DecidableEq R] (host : HandlerHost) (s : TaskSystem R) :
    TaskAction R → Option (TaskSystem R)
  | .fetch r operation failure id =>
    match s.requests r, fetchTask failure s.repo id with
    | some _, _ => none
    | none, .error _ => some s
    | none, .ok task =>
      some { s with requests := Function.update s.requests r (some ⟨operation, id, task⟩) }
  | .finish r failure now =>
    (s.requests r).map fun request =>
      { repo := (request.finish failure s.repo now).1
        requests := Function.update s.requests r none }
  | .deliver cfg call msg => some { s with repo := (handleDelivery cfg host call s.repo msg).repo }

end NexusPipe.Api.Handlers
