import NexusPipe.Pipeline.Events
import NexusPipe.Pipeline.Executor

namespace NexusPipe.Pipeline
open Library Models

structure PipelineRunResult (V : Type) where
  RunID : UUID
  PipelineID : UUID
  Status : PipelineStatus
  StageResults : List (StageResult V)
  Error : Text
  deriving DecidableEq

inductive RunError
  | context (err : ContextError)
  | message (text : Text)
  deriving DecidableEq

structure PipelineRun (V : Type) where
  result : PipelineRunResult V
  err : Option RunError
  events : List Event
  deriving DecidableEq

/-- What a run meets: whether the run's context is done when the loop comes to a stage, and what
the stage itself meets. -/
structure RunEnv (W : Type) where
  runID : UUID
  done : Nat → Option ContextError
  stage : Nat → StageEnv W
  -- A context that is done stays done.
  permanent : ∀ i j, i ≤ j → done i ≠ none → done j = done i
  -- A stage's context is cancelled only together with the run's.
  cancelled : ∀ i attempt, (stage i attempt).check = some .canceled →
    done (i + 1) = some .canceled

structure LoopState (V : Type) where
  stageResults : List (StageResult V)
  finalErr : Option Text
  deriving DecidableEq

inductive LoopExit (V : Type)
  | cancelled (err : ContextError) (stageResults : List (StageResult V))
  | finished (s : LoopState V)
  deriving DecidableEq

namespace PipelineExecutor
variable {W V : Type} (e : PipelineExecutor W V)

def stageLoop (env : RunEnv W) (input : Option V) :
    (index : Nat) → List Stage → LoopState V → LoopExit V
  | _, [], s => .finished s
  | index, stage :: stages, s =>
    match env.done index with
    | some err => .cancelled err s.stageResults
    | none =>
      let result := (e.executeStage (env.stage index) stage input).result
      let stageResults := s.stageResults ++ [result]
      if result.Status = .failed ∨ result.Status = .timedOut then
        let finalErr := sprintf "stage %s failed: %s" [.str stage.Name, result.Error]
        if !stage.Optional then .finished ⟨stageResults, some finalErr⟩
        else stageLoop env input (index + 1) stages ⟨stageResults, some finalErr⟩
      else stageLoop env input (index + 1) stages ⟨stageResults, s.finalErr⟩

def executePipelineOn (env : RunEnv W) (pipeline : Pipeline) (stages : List Stage)
    (input : Option V) : PipelineRun V :=
  let started : Event :=
    { EventType := .pipelineStarted, PipelineID := pipeline.ID, RunID := env.runID }
  match e.stageLoop env input 0 stages ⟨[], none⟩ with
  | .cancelled err stageResults =>
    { result := {
        RunID := env.runID
        PipelineID := pipeline.ID
        Status := .failed
        StageResults := stageResults
        Error := .str "cancelled" }
      err := some (.context err)
      events := [started,
        { EventType := .pipelineFailed, PipelineID := pipeline.ID, RunID := env.runID
          Error := .str "cancelled" }] }
  | .finished ⟨stageResults, some finalErr⟩ =>
    { result := {
        RunID := env.runID
        PipelineID := pipeline.ID
        Status := .failed
        StageResults := stageResults
        Error := finalErr }
      err := some (.message finalErr)
      events := [started,
        { EventType := .pipelineFailed, PipelineID := pipeline.ID, RunID := env.runID
          Error := finalErr }] }
  | .finished ⟨stageResults, none⟩ =>
    { result := {
        RunID := env.runID
        PipelineID := pipeline.ID
        Status := .active
        StageResults := stageResults
        Error := .str "" }
      err := none
      events := [started,
        { EventType := .pipelineCompleted, PipelineID := pipeline.ID, RunID := env.runID }] }

def executePipeline (env : RunEnv W) (pipeline : Pipeline) (input : Option V) : PipelineRun V :=
  e.executePipelineOn env pipeline (getStagesFromPipeline pipeline) input

/-- The result, nil on a failed resolution, and the error that `ExecutePipeline` returns, with the
events it publishes. -/
structure EngineRun (V : Type) where
  result : Option (PipelineRunResult V)
  err : Option RunError
  events : List Event
  deriving DecidableEq

def resolveStages : Option Pipeline → Except Text (List Stage)
  | none => .error (.str "pipeline is nil")
  | some pipeline => .ok (getStagesFromPipeline pipeline)

def handleFailure (runID pipelineID : UUID) (err : Text) : Event :=
  { EventType := .pipelineFailed, PipelineID := pipelineID, RunID := runID, Error := err }

def executeResolved (env : RunEnv W) (pipeline : Pipeline) (resolved : Except Text (List Stage))
    (input : Option V) : EngineRun V :=
  match resolved with
  | .error err =>
    { result := none
      err := some (.message (sprintf "resolve stages: %w" [err]))
      events := [
        { EventType := .pipelineStarted, PipelineID := pipeline.ID, RunID := env.runID },
        handleFailure env.runID pipeline.ID err] }
  | .ok stages =>
    let run := e.executePipelineOn env pipeline stages input
    { result := some run.result, err := run.err, events := run.events }

/-- `ExecutePipeline` logs the pipeline's ID first, so that a nil pointer is not reported as an
error. -/
def executePipelinePointer (env : RunEnv W) (pipeline : Option Pipeline) (input : Option V) :
    Except Fault (EngineRun V) :=
  match pipeline with
  | none => .error (.panic "nil pointer dereference")
  | some pipeline => .ok (e.executeResolved env pipeline (resolveStages (some pipeline)) input)

end PipelineExecutor
end NexusPipe.Pipeline
