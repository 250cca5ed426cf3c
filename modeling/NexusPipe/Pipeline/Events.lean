import NexusPipe.Go

namespace NexusPipe.Pipeline
open Library

inductive EventType
  | pipelineStarted | pipelineCompleted | pipelineFailed | pipelineRetrying | pipelineCancelled
  | pipelinePaused
  | stageStarted | stageCompleted | stageFailed | stageRetrying | stageSkipped
  | runCreated | runFinished
  | other (text : String)
      (unknown : text ∉ ["pipeline.started", "pipeline.completed", "pipeline.failed",
        "pipeline.retrying", "pipeline.cancelled", "pipeline.paused", "stage.started",
        "stage.completed", "stage.failed", "stage.retrying", "stage.skipped", "run.created",
        "run.finished"])
  deriving DecidableEq

structure Event where
  EventType : EventType
  PipelineID : UUID
  RunID : UUID
  StageName : String := ""
  Error : Text := .str ""
  deriving DecidableEq

/-- `H` are the handlers. Two subscriptions of one function are equal values. -/
structure EventBus (H : Type) where
  handlers : GoMap EventType (List H)

/-- The variables whose addresses `Unsubscribe` compares: that of an iteration of its loop and its
parameter. -/
inductive HandlerVariable
  | h (iteration : Nat)
  | handler
  deriving DecidableEq

def newEventBus (H : Type) : EventBus H := ⟨∅⟩

namespace EventBus
variable {H : Type} (b : EventBus H)

def subscribe (eventType : EventType) (handler : H) : EventBus H :=
  ⟨b.handlers.insert eventType (b.handlers.get eventType ++ [handler])⟩

def unsubscribe (eventType : EventType) (_handler : H) : EventBus H :=
  let handlers := b.handlers.get eventType
  match (List.range handlers.length).find? fun i => HandlerVariable.h i = .handler with
  | some i => ⟨b.handlers.insert eventType (handlers.eraseIdx i)⟩
  | none => b

def subscribeAll (order : GoMap.RangeOrder EventType (List H)) (handler : H) : EventBus H :=
  (order b.handlers).entries.foldl (fun b x => b.subscribe x.1 handler) b

def subscribeMany (handler : H) (types : List EventType) : EventBus H :=
  types.foldl (fun b t => b.subscribe t handler) b

def clearHandlers : EventBus H := ⟨∅⟩

def clearHandlersForType (eventType : EventType) : EventBus H :=
  ⟨b.handlers.erase eventType⟩

def recovering (call : Except String Unit) : Except String Unit :=
  match call with
  | .ok () => .ok ()
  | .error _ => .ok ()

/-- The handlers called, unless a panic gets out of the loop. `behaviour` says which handlers panic
on the event. -/
def callHandlers (behaviour : H → Event → Except String Unit) (event : Event) :
    List H → Except String (List H)
  | [] => .ok []
  | handler :: handlers => do
    recovering (behaviour handler event)
    let later ← callHandlers behaviour event handlers
    return handler :: later

def dispatch (behaviour : H → Event → Except String Unit) (event : Event) :
    Except String (List H) :=
  match b.handlers.lookup event.EventType with
  | none => .ok []
  | some handlers => callHandlers behaviour event handlers

def publish (behaviour : H → Event → Except String Unit) (event : Event) :
    Except String (List H) :=
  b.dispatch behaviour event

end EventBus

inductive BusCall (H : Type)
  | subscribe (eventType : EventType) (handler : H)
  | unsubscribe (eventType : EventType) (handler : H)
  | subscribeAll (handler : H)
  | subscribeMany (handler : H) (types : List EventType)
  | clearHandlers
  | clearHandlersForType (eventType : EventType)

def EventBus.apply {H : Type} (order : GoMap.RangeOrder EventType (List H)) (b : EventBus H) :
    BusCall H → EventBus H
  | .subscribe eventType handler => b.subscribe eventType handler
  | .unsubscribe eventType handler => b.unsubscribe eventType handler
  | .subscribeAll handler => b.subscribeAll order handler
  | .subscribeMany handler types => b.subscribeMany handler types
  | .clearHandlers => clearHandlers
  | .clearHandlersForType eventType => b.clearHandlersForType eventType

/-- The events of one bus are told apart by the number of their `Publish` call. -/
structure Published where
  number : Nat
  event : Event
  deriving DecidableEq

inductive Dispatcher
  | waiting -- in the `select` of the goroutine's loop
  | dispatching (item : Published) (draining : Bool)
  | draining -- in the `select` of `drainRemaining`
  | exited
  deriving DecidableEq

inductive StopCall
  | notCalled | waiting | returned
  deriving DecidableEq

structure AsyncEventBus where
  bufferSize : Nat
  eventCh : List Published := []
  dispatcher : Dispatcher := .waiting
  stop : StopCall := .notCalled
  accepted : List Published := []
  dropped : List Published := []
  dispatched : List Published := []
  deriving DecidableEq

def newAsyncEventBus (bufferSize : Int) : AsyncEventBus where
  bufferSize := if bufferSize ≤ 0 then 256 else bufferSize.toNat

inductive AsyncAction
  | publish (event : Event)
  | receive -- a `select` takes an event from the channel
  | observeStop -- the `select` of the loop takes the closed stop channel
  | dispatchReturns
  | drained -- the `select` of `drainRemaining` finds the channel empty
  | stop
  | stopReturns

namespace AsyncEventBus
variable (b : AsyncEventBus)

def publish (event : Event) : AsyncEventBus :=
  let item : Published := ⟨b.accepted.length + b.dropped.length, event⟩
  if b.eventCh.length < b.bufferSize then
    { b with eventCh := b.eventCh ++ [item], accepted := b.accepted ++ [item] }
  else { b with dropped := b.dropped ++ [item] }

def receive : Option AsyncEventBus :=
  match b.dispatcher, b.eventCh with
  | .waiting, item :: rest => some { b with eventCh := rest, dispatcher := .dispatching item false }
  | .draining, item :: rest => some { b with eventCh := rest, dispatcher := .dispatching item true }
  | _, _ => none

def observeStop : Option AsyncEventBus :=
  if b.dispatcher = .waiting ∧ b.stop ≠ .notCalled then some { b with dispatcher := .draining }
  else none

def dispatchReturns : Option AsyncEventBus :=
  match b.dispatcher with
  | .dispatching item draining => some { b with
      dispatcher := if draining then .draining else .waiting
      dispatched := b.dispatched ++ [item] }
  | _ => none

def drained : Option AsyncEventBus :=
  if b.dispatcher = .draining ∧ b.eventCh = [] then some { b with dispatcher := .exited } else none

def stopReturns : Option AsyncEventBus :=
  if b.stop = .waiting ∧ b.dispatcher = .exited then some { b with stop := .returned } else none

def step : AsyncAction → Option AsyncEventBus
  | .publish event => some (b.publish event)
  | .receive => b.receive
  | .observeStop => b.observeStop
  | .dispatchReturns => b.dispatchReturns
  | .drained => b.drained
  | .stop => if b.stop = .notCalled then some { b with stop := .waiting } else none
  | .stopReturns => b.stopReturns

end AsyncEventBus
end NexusPipe.Pipeline
