import NexusPipe.Models.Pipeline
import NexusPipe.Repository.Task

namespace NexusPipe.Api.Handlers
open Library Models Repository

structure ConfigBody where
  MaxRetries : Option Int := none
  TimeoutSeconds : Option Int := none
  Concurrency : Option Int := none
  Priority : Option Int := none
  QueueName : Option String := none
  ExchangeName : Option String := none
  RoutingKey : Option String := none
  ErrorHandler : Option String := none
  SuccessHandler : Option String := none
  DLQEnabled : Option Bool := none
  DLQName : Option String := none
  RetryBackoffMS : Option Int := none
  MaxBackoffMS : Option Int := none
  BackoffMultiplier : Option Float64 := none
  Environment : Option String := none
  Metadata : Option (GoMap String String) := none

structure UpdatePipelineBody where
  Name : Option String := none
  Description : Option String := none
  Status : Option PipelineStatus := none
  Config : Option ConfigBody := none
  Tags : Option (GoMap String String) := none

structure UpdatePipelineRequest where
  Name : Option String
  Description : Option String
  Status : Option PipelineStatus
  Config : Option PipelineConfig
  Tags : Option (GoMap String String)

def ConfigBody.over (body : ConfigBody) (config : PipelineConfig) : PipelineConfig where
  MaxRetries := body.MaxRetries.getD config.MaxRetries
  TimeoutSeconds := body.TimeoutSeconds.getD config.TimeoutSeconds
  Concurrency := body.Concurrency.getD config.Concurrency
  Priority := body.Priority.getD config.Priority
  QueueName := body.QueueName.getD config.QueueName
  ExchangeName := body.ExchangeName.getD config.ExchangeName
  RoutingKey := body.RoutingKey.getD config.RoutingKey
  ErrorHandler := body.ErrorHandler.getD config.ErrorHandler
  SuccessHandler := body.SuccessHandler.getD config.SuccessHandler
  DLQEnabled := body.DLQEnabled.getD config.DLQEnabled
  DLQName := body.DLQName.getD config.DLQName
  RetryBackoffMS := body.RetryBackoffMS.getD config.RetryBackoffMS
  MaxBackoffMS := body.MaxBackoffMS.getD config.MaxBackoffMS
  BackoffMultiplier := body.BackoffMultiplier.getD config.BackoffMultiplier
  Environment := body.Environment.getD config.Environment
  Metadata := body.Metadata.getD config.Metadata

def zeroPipelineConfig : PipelineConfig where
  MaxRetries := 0
  TimeoutSeconds := 0
  Concurrency := 0
  Priority := 0
  QueueName := ""
  RetryBackoffMS := 0
  BackoffMultiplier := .finite 0

def UpdatePipelineBody.decode (body : UpdatePipelineBody) : UpdatePipelineRequest :=
  { body with Config := body.Config.map (·.over zeroPipelineConfig) }

inductive UpdateRefusal
  | badRequest (message : String)
  | notFound (message : String)
  | internalError (message : String)
  deriving DecidableEq

/-- `UpdatePipeline` until it calls the repository, and the pipeline it hands over. `validID` is
whether the ID is a UUID, `invalid` the error of `ShouldBindJSON`, `fetched` the pipeline read. -/
def updatePipeline (validID : Bool) (invalid : Option String) (body : UpdatePipelineBody)
    (fetched : Except ReadError Pipeline) : Except UpdateRefusal Pipeline := do
  if ¬ validID then throw (.badRequest "Invalid pipeline ID")
  if let some err := invalid then throw (.badRequest ("Invalid request body: " ++ err))
  let req := body.decode
  let pipeline ← match fetched with
    | .ok pipeline => pure pipeline
    | .error (.notFound _) => throw (.notFound "Pipeline not found")
    | .error (.other _) => throw (.internalError "Failed to update pipeline")
  if req.Status.any (!·.isValid) then throw (.badRequest "Invalid pipeline status")
  return { pipeline with
    Name := req.Name.getD pipeline.Name
    Description := req.Description.getD pipeline.Description
    Status := req.Status.getD pipeline.Status
    Config := req.Config.getD pipeline.Config
    Tags := req.Tags.getD pipeline.Tags }

end NexusPipe.Api.Handlers
