import NexusPipe.Go
import NexusPipe.Library.While

namespace NexusPipe.Queue
open Library

set_option linter.dupNamespace false in
structure ConsumerConfig where
  Queue : String
  AutoAck : Bool := false
  RequeueOnFail : Bool := false
  MaxRetry : Int := 0
  RetryDelay : Int := 0
  deriving DecidableEq, Repr

def defaultConsumerConfig (queue : String) : ConsumerConfig where
  Queue := queue
  AutoAck := false
  RequeueOnFail := true
  MaxRetry := 3
  RetryDelay := second

structure Consumer where
  cfg : ConsumerConfig
  deriving DecidableEq, Repr

inductive Settlement
  | ack
  | nack (requeue : Bool)
  deriving DecidableEq, Repr

inductive ConsumerEvent
  | waited (delay : Int)
  | handled (err : Option Text)
  | settled (how : Settlement)
  deriving DecidableEq, Repr

/-- What the rounds of one delivery meet: the handler's error, whether the context is done at the
top of the round, and whether it ends the wait before a retry. A context that is done stays so. -/
structure DeliveryEnv where
  handler : Nat → Option Text
  done : Nat → Bool
  interrupted : Nat → Bool
  done_succ : ∀ round, done round = true → done (round + 1) = true
  done_of_interrupted : ∀ round, interrupted round = true → done (round + 1) = true

structure ProcessState where
  attempt : Int
  round : Nat
  events : List ConsumerEvent
  deriving DecidableEq

namespace Consumer
variable (c : Consumer)

def retryDelay (attempt : Int) : Int :=
  toInt64 (c.cfg.RetryDelay * toInt64 (2 ^ (attempt - 1).toNat))

def nack (requeue : Bool) : List ConsumerEvent :=
  if c.cfg.AutoAck then [] else [.settled (.nack requeue)]

def ack : List ConsumerEvent :=
  if !c.cfg.AutoAck then [.settled .ack] else []

def processRound (env : DeliveryEnv) (s : ProcessState) : ProcessState ⊕ List ConsumerEvent :=
  if s.attempt ≤ c.cfg.MaxRetry then
    if env.done s.round then .inr (s.events ++ c.nack false)
    else if s.attempt > 0 ∧ env.interrupted s.round then .inr (s.events ++ c.nack false)
    else
      let events := if s.attempt > 0 then s.events ++ [.waited (c.retryDelay s.attempt)] else s.events
      let events := events ++ [.handled (env.handler s.round)]
      match env.handler s.round with
      | some _ => .inl ⟨toInt64 (s.attempt + 1), s.round + 1, events⟩
      | none => .inr (events ++ c.ack)
  else .inr (s.events ++ c.nack c.cfg.RequeueOnFail)

def processMessage (env : DeliveryEnv) (fuel : Nat) : Option (List ConsumerEvent) :=
  loopFor (c.processRound env) fuel ⟨0, 0, []⟩

end Consumer

inductive WorkerTurn
  | shutdown
  | closed
  | delivery (env : DeliveryEnv)

def Consumer.workerLoop (c : Consumer) (fuel : Nat) :
    List WorkerTurn → Option (List (DeliveryEnv × List ConsumerEvent))
  | [] => some []
  | .shutdown :: _ => some []
  | .closed :: _ => some []
  | .delivery env :: turns => do
    let events ← c.processMessage env fuel
    let later ← workerLoop c fuel turns
    return (env, events) :: later

end NexusPipe.Queue
