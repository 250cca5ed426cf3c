import NexusPipe.Library.Schedule
import NexusPipe.Queue.Consumer
import NexusPipe.Queue.Message
import NexusPipe.Repository.Task

namespace NexusPipe.Worker
open Library Models Queue Repository

structure HandlerConfig where
  TaskTimeout : Int
  MaxRetries : Int64
  DLQName : String
  AckOnSuccess : Bool
  NackOnFailure : Bool
  RequeueOnNack : Bool
  deriving DecidableEq

def defaultHandlerConfig : HandlerConfig where
  TaskTimeout := 60 * second
  MaxRetries := 3
  DLQName := "tasks.dlq"
  AckOnSuccess := true
  NackOnFailure := true
  RequeueOnNack := false

structure TaskResult where
  Status : Option TaskStatus
  Error : String := ""
  Retryable : Bool := false
  deriving DecidableEq, Repr

/-- `decodeTask` decodes the payload into a `models.Task`, of which only the ID is used. -/
structure HandlerHost extends JsonHost where
  decodeTask : List UInt8 → Except Text String
  formatDuration : Int → String
  formatRFC3339 : Time → String

/-- What one call of `HandleDelivery` meets: whether its context is done before the processor is
called, the processor's answer, the errors of the repository, of `AcquireChannel` and of the
settlement, whether the broker takes the message that is published to the DLQ, and the time. -/
structure DeliveryCall where
  timedOut : Bool := false
  result : Option TaskResult := none
  procErr : Option String := none
  repoErr : Option Text := none
  acquireErr : Option Text := none
  accepted : Bool := true
  settleErr : Option Text := none
  now : Time
  deriving DecidableEq

structure Publishing where
  ContentType : String
  Body : List UInt8
  Timestamp : Time
  Headers : List (String × Text)
  deriving DecidableEq

inductive HandlerEvent
  | processed (env : Envelope)
  | retryScheduled (env : Envelope)
  | published (queue : String) (message : Publishing) (accepted : Bool)
  | settled (how : Settlement) (err : Option Text)

structure HandlerRun where
  repo : TaskRepository
  events : List HandlerEvent
  err : Option Text

def HandlerRun.after (run : HandlerRun) (events : List HandlerEvent) : HandlerRun :=
  { run with events := events ++ run.events }

def keepOnError (repo : TaskRepository) : Except Text TaskRepository → TaskRepository
  | .ok updated => updated
  | .error _ => repo

section
variable (cfg : HandlerConfig) (host : HandlerHost) (call : DeliveryCall) (repo : TaskRepository)
  (msg : Delivery)

def settle (how : Settlement) (wrap : Text → Text) : HandlerRun :=
  ⟨repo, [.settled how call.settleErr], call.settleErr.map wrap⟩

def handleSuccess (id : String) : HandlerRun :=
  let repo := keepOnError repo (repo.updateStatus call.repoErr id .completed "" call.now)
  if cfg.AckOnSuccess then settle call repo .ack fun err => sprintf "ack failed: %w" [err]
  else ⟨repo, [], none⟩

def retryDelay (retryCount : Int64) : Int :=
  let shifted := if 0 ≤ retryCount ∧ retryCount < 64 then toInt64 (2 ^ retryCount.toInt.toNat) else 0
  min (toInt64 (shifted * second)) (30 * second)

def retryEnvelope (env : Envelope) (errMsg : String) : Envelope :=
  let retryCount := env.RetryCount
  let delay := retryDelay retryCount
  let headers := env.Headers.getD ∅
  let headers := headers.insert "x-retry-count" (.int (retryCount + 1))
  let headers := headers.insert "x-retry-delay" (.string (host.formatDuration delay))
  let headers := headers.insert "x-original-error" (.string errMsg)
  let headers := headers.insert "x-next-retry" (.string (host.formatRFC3339 (call.now.add delay)))
  { env with RetryCount := retryCount + 1, Headers := some headers }

def handleRetry (env : Envelope) (id errMsg : String) : HandlerRun :=
  let scheduled := [.retryScheduled (retryEnvelope host call env errMsg)]
  let repo := keepOnError repo (repo.incrementRetry call.repoErr id errMsg call.now)
  if cfg.NackOnFailure then
    (settle call repo (.nack cfg.RequeueOnNack) fun err =>
      sprintf "nack for retry failed: %w" [err]).after scheduled
  else ⟨repo, scheduled, none⟩

def dlqFailed (wrap : Text → Text) (err : Text) : HandlerRun :=
  if cfg.NackOnFailure then settle call repo (.nack false) id else ⟨repo, [], some (wrap err)⟩

def dlqMessage (payload : List UInt8) (errMsg : String) : Publishing where
  ContentType := "application/json"
  Body := payload
  Timestamp := call.now
  Headers := [("x-original-routing-key", .str msg.RoutingKey), ("x-error", .str errMsg),
    ("x-failed-at", .str (host.formatRFC3339 call.now))]

def routeToDLQ (env : Envelope) (errMsg : String) : HandlerRun :=
  match (env.marshal host.toJsonHost).2 with
  | .error err => dlqFailed cfg call repo (fun err => sprintf "marshal for dlq: %w" [err]) err
  | .ok payload =>
    match call.acquireErr with
    | some err =>
      dlqFailed cfg call repo (fun err => sprintf "acquire channel for dlq: %w" [err]) err
    | none =>
      let message := dlqMessage host call msg payload errMsg
      -- an error of the publish is only logged
      let published := [.published cfg.DLQName message call.accepted]
      if cfg.NackOnFailure then
        (settle call repo (.nack false) fun err =>
          sprintf "nack after dlq routing failed: %w" [err]).after published
      else ⟨repo, published, none⟩

def undecodableMessage (err : Text) : Publishing where
  ContentType := "application/octet-stream"
  Body := msg.Body
  Timestamp := call.now
  Headers := [("x-error", sprintf "deserialize_error: %v" [err]),
    ("x-failed-at", .str (host.formatRFC3339 call.now)),
    ("x-original-routing-key", .str msg.RoutingKey)]

def handleDeserializeError (err : Text) : HandlerRun :=
  let nacked := settle call repo (.nack false) id
  match call.acquireErr with
  | some _ => nacked
  | none =>
    nacked.after [.published cfg.DLQName (undecodableMessage host call msg err) call.accepted]

def timeoutMessage (payload : List UInt8) : Publishing where
  ContentType := "application/json"
  Body := payload
  Timestamp := call.now
  Headers := [("x-error", .str "task_timeout"),
    ("x-timeout", .str (host.formatDuration cfg.TaskTimeout)),
    ("x-failed-at", .str (host.formatRFC3339 call.now))]

def handleTimeout (env : Envelope) : HandlerRun :=
  let nacked := settle call repo (.nack false) id
  match call.acquireErr with
  | some _ => nacked
  | none =>
    -- an error of `Marshal` is not looked at
    let payload := (env.marshal host.toJsonHost).2.toOption.getD []
    nacked.after [.published cfg.DLQName (timeoutMessage cfg host call payload) call.accepted]

def errorMessage (result : Option TaskResult) (procErr : Option String) : String :=
  let errMsg := (result.map (·.Error)).getD ""
  if errMsg = "" then procErr.getD "" else errMsg

def retries (env : Envelope) (result : Option TaskResult) : Bool :=
  (result.map (·.Retryable)).getD false ∧ env.RetryCount < cfg.MaxRetries

def handleProcessingError (env : Envelope) (id : String) (result : Option TaskResult)
    (procErr : Option String) : HandlerRun :=
  let errMsg := errorMessage result procErr
  if retries cfg env result then handleRetry cfg host call repo env id errMsg
  else
    let repo := keepOnError repo (repo.updateStatus call.repoErr id .failed errMsg call.now)
    routeToDLQ cfg host call repo msg env errMsg

def dispatchResult (env : Envelope) (id : String) : HandlerRun :=
  match call.procErr with
  | some err => handleProcessingError cfg host call repo msg env id call.result (some err)
  | none =>
    let result := call.result.getD { Status := some .failed, Error := "nil result from processor" }
    if result.Status = some .failed then
      handleProcessingError cfg host call repo msg env id (some result) none
    else handleSuccess cfg call repo id

def handleDelivery : HandlerRun :=
  match envelopeFromDelivery host.toJsonHost msg with
  | .error err => handleDeserializeError cfg host call repo msg err
  | .ok env =>
    match host.decodeTask (env.Payload.getD []) with
    | .error err => handleDeserializeError cfg host call repo msg err
    | .ok id =>
      if call.timedOut then handleTimeout cfg host call repo env
      else (dispatchResult cfg host call repo msg env id).after [.processed env]

end

def HandlerEvent.removes : HandlerEvent → Bool
  | .settled .ack none | .settled (.nack false) none => true
  | _ => false

/-- The message as far as the broker has it: `queued` until it is removed. `processed` are the
envelopes that the processor was called for, `dead` the messages that the DLQ has taken. -/
structure MessageState where
  repo : TaskRepository
  queued : Option Delivery
  processed : List Envelope := []
  dead : List Publishing := []

def processedEnvelope : HandlerEvent → Option Envelope
  | .processed env => some env
  | _ => none

def deadLettered : HandlerEvent → Option Publishing
  | .published _ message true => some message
  | _ => none

/-- One delivery. A message that is not removed, be it requeued, unsettled or behind a failed
settlement, is delivered again with the same body. -/
def MessageState.deliver (cfg : HandlerConfig) (host : HandlerHost) (s : MessageState)
    (call : DeliveryCall) : Option MessageState :=
  s.queued.map fun msg =>
    let run := handleDelivery cfg host call s.repo msg
    { repo := run.repo
      queued := if run.events.any (·.removes) then none else some { msg with Redelivered := true }
      processed := s.processed ++ run.events.filterMap processedEnvelope
      dead := s.dead ++ run.events.filterMap deadLettered }

end NexusPipe.Worker
