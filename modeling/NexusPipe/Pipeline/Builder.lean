import NexusPipe.Pipeline.Executor

namespace NexusPipe.Pipeline
open Library Models

structure PipelineBuilder where
  pipeline : Pipeline
  stages : List Stage
  errors : List Text
  deriving DecidableEq

def newPipelineBuilder (id : UUID) (now : Int) (name : String) : PipelineBuilder :=
  ⟨newPipeline id now name 0, [], []⟩

def newPipelineBuilderFromExisting (p : Pipeline) : PipelineBuilder :=
  ⟨p, getStagesFromPipeline p, []⟩

namespace PipelineBuilder
variable (b : PipelineBuilder)

def setChecked (bad : Bool) (message : Text) (set : Pipeline → Pipeline) : PipelineBuilder :=
  if bad then { b with errors := b.errors ++ [message] } else { b with pipeline := set b.pipeline }

def setConfig (set : PipelineConfig → PipelineConfig) (p : Pipeline) : Pipeline :=
  { p with Config := set p.Config }

def setName (name : String) : PipelineBuilder :=
  b.setChecked (name = "") (.str "pipeline name must not be empty") ({ · with Name := name })

def setDescription (desc : String) : PipelineBuilder :=
  { b with pipeline := { b.pipeline with Description := desc } }

def setStatus (status : PipelineStatus) : PipelineBuilder :=
  b.setChecked (!status.isValid) (sprintf "invalid pipeline status: %s" [.str status.string])
    ({ · with Status := status })

def withConfig (cfg : PipelineConfig) : PipelineBuilder :=
  { b with pipeline := { b.pipeline with Config := cfg } }

def withConfigModifier (fn : PipelineConfig → PipelineConfig) : PipelineBuilder :=
  { b with pipeline := setConfig fn b.pipeline }

def setMaxRetries (retries : Int) : PipelineBuilder :=
  b.setChecked (retries < 0) (.str "max retries must not be negative")
    (setConfig ({ · with MaxRetries := retries }))

def setTimeout (seconds : Int) : PipelineBuilder :=
  b.setChecked (seconds ≤ 0) (.str "timeout must be positive")
    (setConfig ({ · with TimeoutSeconds := seconds }))

def setConcurrency (c : Int) : PipelineBuilder :=
  b.setChecked (c ≤ 0) (.str "concurrency must be positive")
    (setConfig ({ · with Concurrency := c }))

def setPriority (p : Int) : PipelineBuilder :=
  b.setChecked (p < 0 ∨ p > 100) (.str "priority must be between 0 and 100")
    (setConfig ({ · with Priority := p }))

def setQueueName (name : String) : PipelineBuilder :=
  { b with pipeline := setConfig ({ · with QueueName := name }) b.pipeline }

def setCreatedBy (userID : UUID) : PipelineBuilder :=
  { b with pipeline := { b.pipeline with CreatedBy := userID } }

def addTag (key value : String) : PipelineBuilder :=
  { b with pipeline := { b.pipeline with Tags := b.pipeline.Tags.insert key value } }

def defaultStageName : String :=
  if b.pipeline.Name ≠ "" then b.pipeline.Name ++ "-stage-" ++ toString (b.stages.length + 1)
  else "stage-" ++ toString (b.stages.length + 1)

def addStage (id : UUID) (stage : Stage) : PipelineBuilder :=
  { b with stages := b.stages ++ [{ stage with
      Name := if stage.Name = "" then b.defaultStageName else stage.Name
      ID := if stage.ID = 0 then id else stage.ID
      Sequence := b.stages.length }] }

def configTimeout : Int := toInt64 (b.pipeline.Config.TimeoutSeconds * second)

def addHTTPStage (id : UUID) (name url method : String) : PipelineBuilder :=
  b.addStage id {
    Name := name
    TaskType := .http
    Config := { URL := url, Method := method }
    Timeout := b.configTimeout
    MaxRetry := b.pipeline.Config.MaxRetries }

def addSQLStage (id : UUID) (name query : String) : PipelineBuilder :=
  b.addStage id {
    Name := name
    TaskType := .sql
    Config := { SQL := query }
    Timeout := b.configTimeout
    MaxRetry := b.pipeline.Config.MaxRetries }

def addTransformStage (id : UUID) (name transform : String) : PipelineBuilder :=
  b.addStage id {
    Name := name
    TaskType := .transform
    Config := { Transform := transform }
    Timeout := b.configTimeout
    MaxRetry := 0 }

def addScriptStage (id : UUID) (name script : String) : PipelineBuilder :=
  b.addStage id {
    Name := name
    TaskType := .script
    Config := { Script := script }
    Timeout := b.configTimeout
    MaxRetry := b.pipeline.Config.MaxRetries }

def addNotificationStage (id : UUID) (name channel : String) : PipelineBuilder :=
  b.addStage id {
    Name := name
    TaskType := .notification
    Config := { NotifyChannel := channel, NotifyOnFailure := true }
    Timeout := 30 * second
    MaxRetry := 3 }

def setStages (stages : List Stage) : PipelineBuilder :=
  { b with stages := stages.mapIdx fun i s => { s with Sequence := i } }

def withStageDependency (stageName : String) (dependsOn : List String) : PipelineBuilder :=
  match b.stages.findIdx? (·.Name = stageName) with
  | some i =>
    { b with stages := b.stages.modify i fun s => { s with DependsOn := s.DependsOn ++ dependsOn } }
  | none => b

def reset (id : UUID) (now : Int) : PipelineBuilder := newPipelineBuilder id now ""

def clone : PipelineBuilder := b

def build : Except Text Pipeline :=
  if b.errors.length > 0 then .error (sprintf "pipeline build failed: %v" [.slice b.errors])
  else if b.pipeline.Name = "" then .error (.str "pipeline name is required")
  else if b.stages.length = 0 then .error (.str "pipeline must have at least one stage")
  else .ok b.pipeline

def buildWithStages : Except Text (Pipeline × List Stage) := do
  let p ← b.build
  return (p, b.stages)

end PipelineBuilder

inductive BuilderOp
  | setName (name : String)
  | setDescription (desc : String)
  | setStatus (status : PipelineStatus)
  | withConfig (cfg : PipelineConfig)
  | withConfigModifier (fn : PipelineConfig → PipelineConfig)
  | setMaxRetries (retries : Int)
  | setTimeout (seconds : Int)
  | setConcurrency (c : Int)
  | setPriority (p : Int)
  | setQueueName (name : String)
  | setCreatedBy (userID : UUID)
  | addTag (key value : String)
  | addStage (id : UUID) (stage : Stage)
  | addHTTPStage (id : UUID) (name url method : String)
  | addSQLStage (id : UUID) (name query : String)
  | addTransformStage (id : UUID) (name transform : String)
  | addScriptStage (id : UUID) (name script : String)
  | addNotificationStage (id : UUID) (name channel : String)
  | setStages (stages : List Stage)
  | withStageDependency (stageName : String) (dependsOn : List String)
  | reset (id : UUID) (now : Int)
  | clone

def PipelineBuilder.apply (b : PipelineBuilder) : BuilderOp → PipelineBuilder
  | .setName name => b.setName name
  | .setDescription desc => b.setDescription desc
  | .setStatus status => b.setStatus status
  | .withConfig cfg => b.withConfig cfg
  | .withConfigModifier fn => b.withConfigModifier fn
  | .setMaxRetries retries => b.setMaxRetries retries
  | .setTimeout seconds => b.setTimeout seconds
  | .setConcurrency c => b.setConcurrency c
  | .setPriority p => b.setPriority p
  | .setQueueName name => b.setQueueName name
  | .setCreatedBy userID => b.setCreatedBy userID
  | .addTag key value => b.addTag key value
  | .addStage id stage => b.addStage id stage
  | .addHTTPStage id name url method => b.addHTTPStage id name url method
  | .addSQLStage id name query => b.addSQLStage id name query
  | .addTransformStage id name transform => b.addTransformStage id name transform
  | .addScriptStage id name script => b.addScriptStage id name script
  | .addNotificationStage id name channel => b.addNotificationStage id name channel
  | .setStages stages => b.setStages stages
  | .withStageDependency stageName dependsOn => b.withStageDependency stageName dependsOn
  | .reset id now => PipelineBuilder.reset id now
  | .clone => b.clone

inductive BuilderOrigin
  | new (id : UUID) (now : Int) (name : String)
  | fromExisting (p : Pipeline)

def BuilderOrigin.builder : BuilderOrigin → PipelineBuilder
  | .new id now name => newPipelineBuilder id now name
  | .fromExisting p => newPipelineBuilderFromExisting p

def builderAfter (origin : BuilderOrigin) (ops : List BuilderOp) : PipelineBuilder :=
  ops.foldl PipelineBuilder.apply origin.builder

end NexusPipe.Pipeline
