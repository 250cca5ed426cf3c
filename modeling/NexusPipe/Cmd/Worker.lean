import NexusPipe.Library.Schedule
import NexusPipe.Queue.Consumer
import NexusPipe.Queue.Message

namespace NexusPipe.Cmd.Worker
open Library Queue

structure Handlers where
  handlePipelineExecute : List UInt8 → Option Text
  handleTaskProcess : List UInt8 → Option Text
  handleEventIngest : List UInt8 → Option Text

def handlers : Handlers := ⟨fun _ => none, fun _ => none, fun _ => none⟩

def handleDelivery (handlers : Handlers) (msg : Delivery) : Option Text :=
  if msg.RoutingKey = "pipeline.execute" then handlers.handlePipelineExecute msg.Body
  else if msg.RoutingKey = "task.process" then handlers.handleTaskProcess msg.Body
  else if msg.RoutingKey = "event.ingest" then handlers.handleEventIngest msg.Body
  else some (sprintf "unknown routing key: %s" [.str msg.RoutingKey])

def processMessage (handlers : Handlers) (msg : Delivery) : Settlement :=
  match handleDelivery handlers msg with
  | some _ => .nack msg.Redelivered
  | none => .ack

/-- Where the broker has a message: ready for delivery, delivered to a consumer that has not settled
it, left behind by one whose settlement failed, or gone. -/
inductive Place
  | ready (redelivered : Bool)
  | delivered (msg : Delivery)
  | unsettled
  | acked
  | rejected
  deriving DecidableEq, Repr

structure Message where
  RoutingKey : String
  Body : List UInt8
  place : Place := .ready false
  deliveries : Nat := 0
  requeues : Nat := 0
  deriving DecidableEq, Repr

inductive Action
  | deliver (tag : Nat)
  -- `processMessage` runs to its end, with the error of the settlement
  | process (handlers : Handlers) (settleErr : Option Text)
  -- the channel closes, and the broker takes back what is not settled
  | channelClosed

namespace Message

def settle (m : Message) : Settlement → Message
  | .ack => { m with place := .acked }
  | .nack true => { m with place := .ready true, requeues := m.requeues + 1 }
  | .nack false => { m with place := .rejected }

def step (m : Message) : Action → Option Message
  | .deliver tag =>
    match m.place with
    | .ready redelivered =>
      some { m with
        place := .delivered
          { DeliveryTag := tag, Redelivered := redelivered, RoutingKey := m.RoutingKey,
            Body := m.Body }
        deliveries := m.deliveries + 1 }
    | _ => none
  | .process handlers settleErr =>
    match m.place with
    | .delivered msg =>
      some (if settleErr = none then m.settle (processMessage handlers msg)
        else { m with place := .unsettled })
    | _ => none
  | .channelClosed =>
    match m.place with
    | .delivered _ | .unsettled => some { m with place := .ready true }
    | _ => none

end Message
end NexusPipe.Cmd.Worker
