import NexusPipe.Go

namespace NexusPipe.Models
open Library

inductive PipelineStatus
  | active | inactive | paused | archived | draft | failed
  | other (text : String)
      (unknown : text ∉ ["active", "inactive", "paused", "archived", "draft", "failed"])
  deriving DecidableEq

def PipelineStatus.isValid : PipelineStatus → Bool
  | .other _ _ => false
  | _ => true

def PipelineStatus.string : PipelineStatus → String
  | .active => "active"
  | .inactive => "inactive"
  | .paused => "paused"
  | .archived => "archived"
  | .draft => "draft"
  | .failed => "failed"
  | .other text _ => text

inductive TaskType
  | http | grpc | script | sql | shell | webhook | transform | notification | custom
  | other (text : String)
      (unknown : text ∉ ["http", "grpc", "script", "sql", "shell", "webhook", "transform",
        "notification", "custom"])
  deriving DecidableEq

def TaskType.isValid : TaskType → Bool
  | .other _ _ => false
  | _ => true

def TaskType.string : TaskType → String
  | .http => "http"
  | .grpc => "grpc"
  | .script => "script"
  | .sql => "sql"
  | .shell => "shell"
  | .webhook => "webhook"
  | .transform => "transform"
  | .notification => "notification"
  | .custom => "custom"
  | .other text _ => text

inductive TaskStatus
  | pending | scheduled | running | completed | failed | cancelled | retrying | paused | timedOut
  | skipped
  deriving DecidableEq, Repr

structure TaskConfig where
  Method : String := ""
  URL : String := ""
  Headers : GoMap String String := ∅
  QueryParams : GoMap String String := ∅
  Body : String := ""
  Script : String := ""
  Command : String := ""
  SQL : String := ""
  ServiceName : String := ""
  Endpoint : String := ""
  ProtoFile : String := ""
  Retryable : Bool := false
  RetryBackoffMS : Int := 0
  Condition : String := ""
  Transform : String := ""
  OutputMapping : GoMap String String := ∅
  NotifyOnFailure : Bool := false
  NotifyChannel : String := ""
  deriving DecidableEq

structure PipelineConfig where
  MaxRetries : Int
  TimeoutSeconds : Int
  Concurrency : Int
  Priority : Int
  QueueName : String
  ExchangeName : String := ""
  RoutingKey : String := ""
  ErrorHandler : String := ""
  SuccessHandler : String := ""
  DLQEnabled : Bool := false
  DLQName : String := ""
  RetryBackoffMS : Int
  MaxBackoffMS : Int := 0
  BackoffMultiplier : Float64
  Environment : String := ""
  Metadata : GoMap String String := ∅
  deriving DecidableEq

def defaultPipelineConfig : PipelineConfig where
  MaxRetries := 3
  TimeoutSeconds := 300
  Concurrency := 1
  Priority := 0
  QueueName := "nexuspipe.pipelines.default"
  ExchangeName := "nexuspipe.events"
  RoutingKey := "pipeline.execute"
  DLQEnabled := true
  DLQName := "nexuspipe.pipelines.dlq"
  RetryBackoffMS := 1000
  MaxBackoffMS := 60000
  BackoffMultiplier := .finite 2
  Environment := "production"

structure Pipeline where
  ID : UUID
  Name : String
  Description : String
  Status : PipelineStatus
  Version : Int
  Config : PipelineConfig
  Tags : GoMap String String
  CreatedBy : UUID
  CreatedAt : Int
  UpdatedAt : Int
  DeletedAt : Option Int
  deriving DecidableEq

def newPipeline (id : UUID) (now : Int) (name : String) (createdBy : UUID) : Pipeline where
  ID := id
  Name := name
  Description := ""
  Status := .draft
  Version := 1
  Config := defaultPipelineConfig
  Tags := ∅
  CreatedBy := createdBy
  CreatedAt := now
  UpdatedAt := now
  DeletedAt := none

end NexusPipe.Models
