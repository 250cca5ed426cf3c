import NexusPipe.Models.Pipeline

namespace NexusPipe.Pipeline
open Library Models

structure Stage where
  ID : UUID := 0
  Name : String := ""
  TaskType : TaskType
  Config : TaskConfig := {}
  Sequence : Int := 0
  Optional : Bool := false
  DependsOn : List String := []
  Timeout : Int := 0
  MaxRetry : Int := 0
  deriving DecidableEq

structure StageResult (V : Type) where
  StageName : String
  Status : TaskStatus
  Output : Option V := none
  Error : Text := .str ""
  deriving DecidableEq

/-- A handler sees the stage and the input. `W` is everything else that its answer may depend on:
the clock, the context's state, other services. -/
abbrev StageHandler (W V : Type) := W → Stage → Option V → Outcome V

structure PipelineExecutor (W V : Type) where
  handlers : GoMap TaskType (StageHandler W V)
  timeout : Int

def notImplemented (message : String) {W V : Type} : StageHandler W V :=
  fun _ _ _ => (none, some (.str message))

section
variable {W V : Type}

def executeHTTPStage : StageHandler W V := notImplemented "http stage not implemented"
def executeScriptStage : StageHandler W V := notImplemented "script stage not implemented"
def executeSQLStage : StageHandler W V := notImplemented "sql stage not implemented"
def executeShellStage : StageHandler W V := notImplemented "shell stage not implemented"
def executeTransformStage : StageHandler W V := notImplemented "transform stage not implemented"
def executeWebhookStage : StageHandler W V := notImplemented "webhook stage not implemented"
def executeNotificationStage : StageHandler W V :=
  notImplemented "notification stage not implemented"
def executeCustomStage : StageHandler W V := notImplemented "custom stage not implemented"

def PipelineExecutor.registerHandler (e : PipelineExecutor W V) (t : TaskType)
    (handler : StageHandler W V) : PipelineExecutor W V :=
  { e with handlers := e.handlers.insert t handler }

def newPipelineExecutor (W V : Type) : PipelineExecutor W V :=
  (⟨∅, 300 * second⟩ : PipelineExecutor W V)
    |>.registerHandler .http executeHTTPStage
    |>.registerHandler .script executeScriptStage
    |>.registerHandler .sql executeSQLStage
    |>.registerHandler .shell executeShellStage
    |>.registerHandler .transform executeTransformStage
    |>.registerHandler .webhook executeWebhookStage
    |>.registerHandler .notification executeNotificationStage
    |>.registerHandler .custom executeCustomStage

end

/-- What attempt number `attempt` of a stage meets: whether the stage's context is done at the top
of the attempt, whether it ends the wait before a retry, and what the handler finds. -/
structure AttemptEnv (W : Type) where
  check : Option ContextError
  backoffEnds : Bool
  world : W

abbrev StageEnv (W : Type) := Nat → AttemptEnv W

inductive StageEvent (V : Type)
  | waited (backoff : Int)
  | called (outcome : Outcome V)
  deriving DecidableEq

structure StageRun (V : Type) where
  result : StageResult V
  trace : List (StageEvent V)
  deriving DecidableEq

namespace PipelineExecutor
variable {W V : Type} (e : PipelineExecutor W V)

def getHandler (t : TaskType) : Except Text (StageHandler W V) :=
  match e.handlers.lookup t with
  | none => .error (sprintf "no handler registered for stage type: %s" [.str t.string])
  | some handler => .ok handler

def resolveTimeout (stage : Stage) : Int :=
  if stage.Timeout > 0 then stage.Timeout else e.timeout

def resolveMaxRetries (stage : Stage) : Nat :=
  if stage.MaxRetry > 0 then stage.MaxRetry.toNat else 2

def calculateBackoff (attempt : Nat) : Int :=
  let backoff := toInt64 (toInt64 (attempt * attempt) * 500 * millisecond)
  if backoff > 30 * second then 30 * second else backoff

def attemptLoop (env : StageEnv W) (stage : Stage) (handler : StageHandler W V) (input : Option V) :
    (left attempt : Nat) → (lastErr : Text) → (trace : List (StageEvent V)) → StageRun V
  | 0, _, lastErr, trace =>
    { result := {
        StageName := stage.Name
        Status := .failed
        Error := sprintf "stage failed after %d retries: %v"
          [.int (resolveMaxRetries stage), lastErr] }
      trace := trace }
  | left + 1, attempt, _, trace =>
    match (env attempt).check with
    | some .deadlineExceeded =>
      { result := {
          StageName := stage.Name
          Status := .timedOut
          Error := sprintf "stage timed out after %v" [.duration (e.resolveTimeout stage)] }
        trace := trace }
    | some .canceled =>
      { result := {
          StageName := stage.Name, Status := .cancelled, Error := .str "stage cancelled" }
        trace := trace }
    | none =>
      if attempt > 0 ∧ (env attempt).backoffEnds then
        { result := {
            StageName := stage.Name
            Status := .cancelled
            Error := .str "cancelled during retry backoff" }
          trace := trace }
      else
        let trace := if attempt > 0 then trace ++ [.waited (calculateBackoff attempt)] else trace
        let outcome := handler (env attempt).world stage input
        let trace := trace ++ [.called outcome]
        match outcome.2 with
        | none =>
          { result := {
              StageName := stage.Name, Status := .completed, Output := outcome.1 }
            trace := trace }
        | some err => attemptLoop env stage handler input left (attempt + 1) err trace

def executeStage (env : StageEnv W) (stage : Stage) (input : Option V) : StageRun V :=
  match e.getHandler stage.TaskType with
  | .error err =>
    { result := { StageName := stage.Name, Status := .failed, Error := err }, trace := [] }
  | .ok handler =>
    e.attemptLoop env stage handler input (resolveMaxRetries stage + 1) 0 .nil []

def executePipelineStages (env : Nat → StageEnv W) (input : Option V) :
    (index : Nat) → List Stage → List (StageResult V)
  | _, [] => []
  | index, stage :: stages =>
    let result := (e.executeStage (env index) stage input).result
    if result.Status = .failed ∧ !stage.Optional then [result]
    else result :: executePipelineStages env input (index + 1) stages

end PipelineExecutor

def getStagesFromPipeline (_ : Pipeline) : List Stage := []

end NexusPipe.Pipeline
