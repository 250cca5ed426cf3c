import NexusPipe.Webhooks.Delivery
import NexusPipe.Webhooks.History

namespace NexusPipe.Webhooks
open Library

structure NotificationEvent where
  ID : UUID
  EventType : String
  Payload : List UInt8
  deriving DecidableEq, Repr

set_option linter.dupNamespace false in
structure NotificationTask where
  ID : UUID
  Event : NotificationEvent
  Webhooks : List UUID
  CreatedAt : Time
  Retries : Int := 0
  MaxRetries : Int
  deriving DecidableEq, Repr

structure DeadLetterEntry where
  ID : UUID
  Task : NotificationTask
  Reason : Text
  FailedAt : Time
  RetryCount : Int
  deriving DecidableEq, Repr

structure NotifierConfig where
  QueueSize : Int
  WorkerCount : Int
  BatchSize : Int
  BatchInterval : Int
  DeadLetterLimit : Int
  deriving DecidableEq, Repr

def defaultNotifierConfig : NotifierConfig where
  QueueSize := 1024
  WorkerCount := 4
  BatchSize := 10
  BatchInterval := 500 * millisecond
  DeadLetterLimit := 1000

/-- A call of `processTask`: the copy of the task it works on, the webhooks that its loop has not done
with, and whether `Deliver` is running for the first of them. -/
structure Processing where
  number : Nat
  task : NotificationTask
  ahead : List UUID
  sending : Bool := false
  deriving DecidableEq, Repr

/-- A goroutine of `worker`, at its select or in `processTask`, or one of `batchProcessor`, at its
select or in `flushBatch` (the last one before it returns, if the select saw the stop). -/
inductive Processor
  | idle
  | busy (p : Processing)
  | gathering (batch : List NotificationTask)
  | flushing (p : Processing) (rest : List NotificationTask) (last : Bool)
  | exited
  deriving DecidableEq, Repr

def Processor.processing : Processor → Option Processing
  | .busy p | .flushing p _ _ => some p
  | _ => none

def Processor.resume (p : Processing) : Processor → Processor
  | .busy _ => .busy p
  | .flushing _ rest last => .flushing p rest last
  | q => q

inductive DeliverOutcome
  | delivered
  | failed (err : Text)
  | panicked
  deriving DecidableEq, Repr

inductive NotifierEvent
  | began (number : Nat) (task : UUID)
  | sent (number : Nat) (task webhook : UUID)
  | succeeded (number : Nat) (task webhook : UUID)
  | deadLettered (task : UUID)
  deriving DecidableEq, Repr

/-- `timers` are the tasks that wait for a retry. `crashed` is set by a panic, which ends the process.
`accepted`, `begun` and `log` are history: the tasks that `Notify` took, the number of calls of
`processTask`, and what has happened. -/
structure EventNotifier where
  config : NotifierConfig
  taskCh : List NotificationTask := []
  deadLetter : List DeadLetterEntry := []
  started : Bool := false
  stopClosed : Bool := false
  processors : List Processor := []
  timers : List NotificationTask := []
  crashed : Bool := false
  accepted : List NotificationTask := []
  begun : Nat := 0
  log : List NotifierEvent := []
  deriving DecidableEq, Repr

def newEventNotifier (config : NotifierConfig) : Except Fault EventNotifier :=
  if config.QueueSize < 0 then .error (.panic "makechan: size out of range")
  else if config.DeadLetterLimit < 0 then .error (.panic "runtime error: makeslice: cap out of range")
  else .ok { config }

namespace EventNotifier
variable (n : EventNotifier)

def start : EventNotifier :=
  if n.started then n
  else
    { n with
      started := true
      processors := n.processors ++
        List.replicate n.config.WorkerCount.toNat .idle ++ [.gathering []]
      -- the ticker of the batch processor panics
      crashed := n.config.BatchInterval ≤ 0 }

def stop : EventNotifier :=
  if n.started then { n with started := false, crashed := n.stopClosed, stopClosed := true } else n

def beginTask (i : Nat) (task : NotificationTask) (within : Processing → Processor) : EventNotifier :=
  let p : Processing := { number := n.begun, task, ahead := task.Webhooks }
  { n with
    processors := n.processors.set i (within p)
    begun := n.begun + 1
    log := n.log ++ [.began n.begun task.ID] }

def flushBatch (i : Nat) (last : Bool) : List NotificationTask → EventNotifier
  | [] => { n with processors := n.processors.set i (if last then .exited else .gathering []) }
  | task :: rest => n.beginTask i task fun p => .flushing p rest last

def receive (i : Nat) (task : NotificationTask) : Option EventNotifier :=
  match n.processors[i]? with
  | some .idle => some (n.beginTask i task .busy)
  | some (.gathering batch) =>
    let batch := batch ++ [task]
    if n.config.BatchSize ≤ batch.length then some (n.flushBatch i false batch)
    else some { n with processors := n.processors.set i (.gathering batch) }
  | _ => none

/-- The send of a select with a default branch: handed to a goroutine that waits, or put into the
buffer. The inner `none` is the default branch. -/
def trySend (task : NotificationTask) : Option Nat → Option (Option EventNotifier)
  | some i => if n.taskCh = [] then (n.receive i task).map some else none
  | none =>
    some (if n.taskCh.length < n.config.QueueSize then some { n with taskCh := n.taskCh ++ [task] }
      else none)

def moveToDeadLetter (id : UUID) (now : Time) (task : NotificationTask) (reason : Text) :
    EventNotifier :=
  let entry : DeadLetterEntry :=
    { ID := id, Task := task, Reason := reason, FailedAt := now, RetryCount := task.Retries }
  if n.config.DeadLetterLimit ≤ n.deadLetter.length then
    match n.deadLetter with
    -- `n.deadLetter[1:]` of an empty list
    | [] => { n with crashed := true }
    | _ :: kept =>
      { n with deadLetter := kept ++ [entry], log := n.log ++ [.deadLettered task.ID] }
  else { n with deadLetter := n.deadLetter ++ [entry], log := n.log ++ [.deadLettered task.ID] }

def notify (id : UUID) (now : Time) (event : NotificationEvent) (webhooks : List UUID)
    (receiver : Option Nat) : Option (EventNotifier × Option Text) :=
  if webhooks = [] then some (n, none)
  else
    let task : NotificationTask :=
      { ID := id, Event := event, Webhooks := webhooks, CreatedAt := now, MaxRetries := 3 }
    (n.trySend task receiver).map fun
      | some n' => ({ n' with accepted := n'.accepted ++ [task] }, none)
      | none =>
        (n, some (sprintf "notification queue full, dropping event %s" [.uuid event.ID]))

def delivered (i : Nat) (q : Processor) (p : Processing) (w : UUID) (ahead : List UUID) (id : UUID)
    (now : Time) : DeliverOutcome → EventNotifier
  | .delivered =>
    { n with
      processors := n.processors.set i (q.resume { p with ahead, sending := false })
      log := n.log ++ [.succeeded p.number p.task.ID w] }
  | .failed err =>
    if p.task.Retries < p.task.MaxRetries then
      let task := { p.task with Retries := p.task.Retries + 1 }
      { n with
        processors := n.processors.set i (q.resume { p with task, ahead, sending := false })
        timers := n.timers ++ [task] }
    else
      { n with
        processors := n.processors.set i (q.resume { p with ahead, sending := false })
        }.moveToDeadLetter id now p.task (sprintf "max retries exceeded: %v" [err])
  | .panicked => { n with crashed := true }

def fire (k : Nat) (receiver : Option Nat) (id : UUID) (now : Time) : Option EventNotifier :=
  match n.timers[k]? with
  | none => none
  | some task =>
    let n := { n with timers := n.timers.eraseIdx k }
    (n.trySend task receiver).map fun
      | some n' => n'
      | none => n.moveToDeadLetter id now task (.str "retry queue full")

end EventNotifier

inductive NotifierAction
  | start
  | stop
  | notify (id : UUID) (now : Time) (event : NotificationEvent) (webhooks : List UUID)
      (receiver : Option Nat)
  -- the select of a goroutine sees a task, the stop or the tick
  | take (i : Nat)
  | quit (i : Nat)
  | tick (i : Nat)
  -- `Deliver` is called for the next webhook, returns, and `processTask` returns
  | send (i : Nat)
  | finish (i : Nat) (outcome : DeliverOutcome) (id : UUID) (now : Time)
  | leave (i : Nat)
  | fire (k : Nat) (receiver : Option Nat) (id : UUID) (now : Time)

namespace EventNotifier

def step (n : EventNotifier) (a : NotifierAction) : Option EventNotifier :=
  if n.crashed then none
  else
    match a with
    | .start => some n.start
    | .stop => some n.stop
    | .notify id now event webhooks receiver =>
      -- `uuid.New` does not repeat an ID
      if id ∈ n.accepted.map (·.ID) then none
      else (n.notify id now event webhooks receiver).map (·.1)
    | .take i =>
      match n.taskCh with
      | [] => none
      | task :: rest => { n with taskCh := rest }.receive i task
    | .quit i =>
      if n.stopClosed then
        match n.processors[i]? with
        | some .idle => some { n with processors := n.processors.set i .exited }
        | some (.gathering batch) => some (n.flushBatch i true batch)
        | _ => none
      else none
    | .tick i =>
      match n.processors[i]? with
      | some (.gathering batch) => some (n.flushBatch i false batch)
      | _ => none
    | .send i =>
      match n.processors[i]? with
      | none => none
      | some q =>
        match q.processing with
        | some { number, task, ahead := w :: ahead, sending := false } =>
          some { n with
            processors := n.processors.set i
              (q.resume { number, task, ahead := w :: ahead, sending := true })
            log := n.log ++ [.sent number task.ID w] }
        | _ => none
    | .finish i outcome id now =>
      match n.processors[i]? with
      | none => none
      | some q =>
        match q.processing with
        | some { number, task, ahead := w :: ahead, sending := true } =>
          some (n.delivered i q { number, task, ahead := w :: ahead, sending := true } w ahead id
            now outcome)
        | _ => none
    | .leave i =>
      match n.processors[i]? with
      | some (.busy { ahead := [], .. }) =>
        some { n with processors := n.processors.set i .idle }
      | some (.flushing { ahead := [], .. } rest last) => some (n.flushBatch i last rest)
      | _ => none
    | .fire k receiver id now => n.fire k receiver id now

end EventNotifier

def newDelivery (id : UUID) (now : Time) (event : NotificationEvent) (wh : Webhook) :
    WebhookDelivery where
  ID := id
  WebhookID := wh.ID
  EventType := event.EventType
  URL := wh.URL
  Status := .delivering
  StatusCode := 0
  RequestBody := event.Payload
  ResponseBody := ""
  DurationMS := 0
  Attempt := 1
  MaxRetries := wh.RetryConfig.MaxRetries
  Error := ""
  CreatedAt := now
  UpdatedAt := now

/-- The error is one of `Deliver`, whose last attempt was not the last that the webhook allows. -/
def isShort (wh : Webhook) (result : DeliveryResult) (err : Option Text) : Bool :=
  err.isSome ∧ result.Attempt < wh.RetryConfig.MaxRetries

def statusAfter (wh : Webhook) (result : DeliveryResult) (err : Option Text) : DeliveryStatus :=
  if err = none then .success
  else if result.Attempt < wh.RetryConfig.MaxRetries then .retrying
  else .failed

def reports (render : Text → String) (now : Time) (id : UUID) (wh : Webhook) (result : DeliveryResult)
    (err : Option Text) : List HistoryCall :=
  [.updateDeliveryStatus now id (statusAfter wh result err) result.StatusCode result.ResponseBody
      ((err.map render).getD ""),
    .updateDeliveryAttempt now id result.Attempt (result.Duration.tdiv millisecond)]

def outcomeOf : Option Text → DeliverOutcome
  | none => .delivered
  | some err => .failed err

/-- `deliveryID` is the variable of `processTask` in each goroutine, and `replaying` the tasks that
calls of `ReplayDeadLetter` and `ReplayAllDeadLetter` have in hand. The rest is bookkeeping: the calls
that the history has seen, the deliveries recorded for each task, and those that ended in an error
before the last attempt that their webhook allows. -/
structure RecordingNotifier where
  notifier : EventNotifier
  history : WebhookHistory
  deliveryID : Nat → Option UUID := fun _ => none
  replaying : List NotificationTask := []
  calls : List HistoryCall := []
  recorded : List (UUID × UUID) := []
  short : List UUID := []

inductive RecordingAction
  -- what the notifier does without its history
  | other (a : NotifierAction)
  | send (i : Nat) (id : UUID) (now : Time) (wh : Webhook) (spare : List HistoryEntry)
  | finish (i : Nat) (env : DeliverEnv) (fuel : Nat) (wh : Webhook) (id : UUID) (now : Time)
  -- the retention of the history, and a call of `Clear`
  | enforceRetention (now : Time) (spare : Nat → List HistoryEntry)
  | clear
  -- an entry of the dead letter list is removed for a replay, and its task sent or put back
  | replay (index : Nat)
  | resend (k : Nat) (receiver : Option Nat) (id : UUID) (now : Time)

namespace RecordingNotifier

def start (config : NotifierConfig) (retention : RetentionConfig) : RecordingNotifier where
  notifier := { config }
  history := newWebhookHistory retention

variable (config : DeliveryConfig) (render : Text → String) (s : RecordingNotifier)

def callHistory (calls : List HistoryCall) : RecordingNotifier :=
  match calls.foldlM WebhookHistory.call s.history with
  | .error _ => { s with notifier := { s.notifier with crashed := true } }
  | .ok history => { s with history, calls := s.calls ++ calls }

def processingAt (i : Nat) : Option Processing := s.notifier.processors[i]?.bind Processor.processing

def finishWith (i : Nat) (deliveryID : UUID) (wh : Webhook) (id : UUID) (now : Time) (d : Delivered) :
    Option RecordingNotifier :=
  match d.returned with
  | .ok (some result, err) =>
    let s := s.callHistory (reports render now deliveryID wh result err)
    (s.notifier.step (.finish i (outcomeOf err) id now)).map fun notifier =>
      { s with
        notifier
        short := if isShort wh result err then s.short ++ [deliveryID] else s.short }
  -- `Deliver` panics, or `processTask` at the fields of a nil result
  | _ => (s.notifier.step (.finish i .panicked id now)).map fun notifier => { s with notifier }

/-- `config` is that of the deliverer. The fields of a webhook are read through its pointer, and may be
others from one time to the next. -/
def step : RecordingAction → Option RecordingNotifier
  | .other (.send _) | .other (.finish ..) => none
  | .other a => (s.notifier.step a).map fun notifier => { s with notifier }
  | .send i id now wh spare =>
    match s.processingAt i with
    | none => none
    | some p =>
      -- `uuid.New` does not repeat an ID
      if id ∈ s.recorded.map (·.2) ∨ p.ahead.head? ≠ some wh.ID then none
      else
        (s.notifier.step (.send i)).map fun notifier =>
          { s with
            notifier
            deliveryID := fun j => if j = i then some id else s.deliveryID j
            recorded := s.recorded ++ [(p.task.ID, id)]
          }.callHistory
            [.recordDelivery (newDelivery id now p.task.Event wh) wh.Name wh.URL spare]
  | .finish i env fuel wh id now =>
    match s.processingAt i, s.deliveryID i with
    | some p, some deliveryID =>
      if p.ahead.head? ≠ some wh.ID then none
      else
        (deliver config (.bytes p.task.Event.Payload) env fuel).bind fun d =>
          s.finishWith render i deliveryID wh id now d
    | _, _ => none
  | .enforceRetention now spare =>
    if s.notifier.crashed then none else some (s.callHistory [.enforceRetention now spare])
  | .clear => if s.notifier.crashed then none else some (s.callHistory [.clear])
  | .replay index =>
    if s.notifier.crashed then none
    else
      s.notifier.deadLetter[index]?.map fun entry =>
        { s with
          notifier := { s.notifier with deadLetter := s.notifier.deadLetter.eraseIdx index }
          replaying := s.replaying ++ [entry.Task] }
  | .resend k receiver id now =>
    if s.notifier.crashed then none
    else
      s.replaying[k]?.bind fun task =>
        let task := { task with Retries := 0 }
        (s.notifier.trySend task receiver).map fun sent =>
          { s with
            replaying := s.replaying.eraseIdx k
            notifier := sent.getD
              (s.notifier.moveToDeadLetter id now task (.str "replay queue full")) }

end RecordingNotifier
end NexusPipe.Webhooks
