import Mathlib.Data.List.Dedup
import NexusPipe.Go

namespace NexusPipe.Queue
open Library

inductive ExchangeType
  | direct | topic | fanout
  deriving DecidableEq, Repr

inductive TableValue
  | string (s : String)
  | int (i : Int)
  deriving DecidableEq, Repr

abbrev Table := GoMap String TableValue

structure ExchangeConfig where
  Name : String
  ExchangeType : ExchangeType
  Durable : Bool := false
  AutoDelete : Bool := false
  Internal : Bool := false
  deriving DecidableEq

structure QueueConfig where
  Name : String
  Durable : Bool := false
  AutoDelete : Bool := false
  Exclusive : Bool := false
  Args : Table := ∅
  DLX : String := ""
  DLQ : String := ""
  DLXRouting : String := ""
  MessageTTL : Int := 0
  MaxLength : Int := 0
  MaxLengthBytes : Int := 0
  MaxPriority : Int := 0

set_option linter.dupNamespace false in
structure BindingConfig where
  Queue : String
  Exchange : String
  Routing : String
  deriving DecidableEq

def setPositive (args : Table) (key : String) (value : Int) : Table :=
  if value > 0 then args.insert key (.int value) else args

def defaultQueueArgs (qc : QueueConfig) : Table :=
  let args : Table := ∅
  let args := if qc.DLX ≠ "" then args.insert "x-dead-letter-exchange" (.string qc.DLX) else args
  let args :=
    if qc.DLQ ≠ "" then args.insert "x-dead-letter-routing-key" (.string qc.DLXRouting) else args
  let args := setPositive args "x-message-ttl" qc.MessageTTL
  let args := setPositive args "x-max-length" qc.MaxLength
  let args := setPositive args "x-max-length-bytes" qc.MaxLengthBytes
  setPositive args "x-max-priority" qc.MaxPriority

structure DeclaredQueue where
  Durable : Bool
  AutoDelete : Bool
  Exclusive : Bool
  Args : Table

structure Broker where
  exchanges : GoMap String ExchangeConfig := ∅
  queues : GoMap String DeclaredQueue := ∅
  bindings : List BindingConfig := []

def words (key : String) : List (List Char) :=
  if key = "" then [] else key.toList.splitOn '.'

def topicMatches : List (List Char) → List (List Char) → Bool
  | [], ws => ws.isEmpty
  | ['#'] :: pattern, ws => ws.tails.any (topicMatches pattern)
  | ['*'] :: pattern, ws => !ws.isEmpty && topicMatches pattern ws.tail
  | word :: pattern, ws => ws.head? == some word && topicMatches pattern ws.tail

def ExchangeType.delivers : ExchangeType → (routing key : String) → Bool
  | .direct, routing, key => routing = key
  | .topic, routing, key => topicMatches (words routing) (words key)
  | .fanout, _, _ => true

namespace Broker
variable (b : Broker)

/-- The queues a message published to an exchange reaches. The exchange without a name delivers to
the queue named by the key. -/
def route (exchange key : String) : List String :=
  if exchange = "" then
    if key ∈ b.queues then [key] else []
  else match b.exchanges.lookup exchange with
    | none => []
    | some cfg =>
      ((b.bindings.filter fun binding =>
        binding.Exchange = exchange ∧ cfg.ExchangeType.delivers binding.Routing key).map (·.Queue)).dedup

def deadLetter (queue key : String) : List String :=
  match b.queues.lookup queue with
  | none => []
  | some declared =>
    match declared.Args.lookup "x-dead-letter-exchange" with
    | some (.string exchange) =>
      match declared.Args.lookup "x-dead-letter-routing-key" with
      | some (.string routing) => b.route exchange routing
      | _ => b.route exchange key
    | _ => []

end Broker

inductive Declaration
  | exchange (cfg : ExchangeConfig)
  | queue (cfg : QueueConfig)
  | binding (cfg : BindingConfig)

abbrev Channel := Broker → Declaration → Option Text

section
variable (ch : Channel) (b : Broker)

def declareExchange (cfg : ExchangeConfig) : Except Text Broker :=
  match ch b (.exchange cfg) with
  | some err => .error err
  | none => .ok { b with exchanges := b.exchanges.insert cfg.Name cfg }

def declareQueue (cfg : QueueConfig) : Except Text Broker :=
  let args := cfg.Args ∪ defaultQueueArgs cfg
  match ch b (.queue cfg) with
  | some err => .error err
  | none => .ok { b with
      queues := b.queues.insert cfg.Name ⟨cfg.Durable, cfg.AutoDelete, cfg.Exclusive, args⟩ }

def bindQueue (cfg : BindingConfig) : Except Text Broker :=
  match ch b (.binding cfg) with
  | some err => .error err
  | none => .ok { b with bindings := b.bindings ++ [cfg] }

end

structure TopologyBuilder where
  exchanges : List ExchangeConfig := []
  queues : List QueueConfig := []
  bindings : List BindingConfig := []

namespace TopologyBuilder
variable (tb : TopologyBuilder)

def addExchange (cfg : ExchangeConfig) : TopologyBuilder :=
  { tb with exchanges := tb.exchanges ++ [cfg] }

def addQueue (cfg : QueueConfig) : TopologyBuilder :=
  { tb with queues := tb.queues ++ [cfg] }

def addBinding (cfg : BindingConfig) : TopologyBuilder :=
  { tb with bindings := tb.bindings ++ [cfg] }

def declareAll (ch : Channel) (b : Broker) : Except Text Broker := do
  let b ← tb.exchanges.foldlM (fun b exc => (declareExchange ch b exc).mapError fun err =>
    sprintf "declare exchange %s: %w" [.str exc.Name, err]) b
  let b ← tb.queues.foldlM (fun b q => (declareQueue ch b q).mapError fun err =>
    sprintf "declare queue %s: %w" [.str q.Name, err]) b
  tb.bindings.foldlM (fun b binding => (bindQueue ch b binding).mapError fun err =>
    sprintf "bind queue %s to %s: %w" [.str binding.Queue, .str binding.Exchange, err]) b

end TopologyBuilder

def nexusTopology : TopologyBuilder :=
  let dlx : ExchangeConfig := {
    Name := "nexuspipe.dlx", ExchangeType := .direct, Durable := true }
  let dlq : QueueConfig := {
    Name := "nexuspipe.dlq"
    Durable := true
    Args := ((∅ : Table).insert "x-message-ttl" (.int 60000)).insert "x-dead-letter-exchange"
      (.string "nexuspipe.direct") }
  let directExchange : ExchangeConfig := {
    Name := "nexuspipe.direct", ExchangeType := .direct, Durable := true }
  let topicExchange : ExchangeConfig := {
    Name := "nexuspipe.topic", ExchangeType := .topic, Durable := true }
  let fanoutExchange : ExchangeConfig := {
    Name := "nexuspipe.fanout", ExchangeType := .fanout, Durable := true }
  let eventsQueue : QueueConfig := {
    Name := "nexuspipe.events", Durable := true, DLX := "nexuspipe.dlx", DLXRouting := "dead-letter" }
  let notificationsQueue : QueueConfig := {
    Name := "nexuspipe.notifications"
    Durable := true
    DLX := "nexuspipe.dlx"
    DLXRouting := "dead-letter" }
  ({} : TopologyBuilder)
    |>.addExchange dlx
    |>.addQueue dlq
    |>.addBinding { Queue := "nexuspipe.dlq", Exchange := "nexuspipe.dlx", Routing := "dead-letter" }
    |>.addExchange directExchange
    |>.addExchange topicExchange
    |>.addExchange fanoutExchange
    |>.addQueue eventsQueue
    |>.addQueue notificationsQueue
    |>.addBinding { Queue := "nexuspipe.events", Exchange := "nexuspipe.topic", Routing := "event.#" }
    |>.addBinding {
      Queue := "nexuspipe.notifications", Exchange := "nexuspipe.topic", Routing := "notification.#" }

def declareTopology (acquired : Except Text Channel) (b : Broker) : Except Text Broker := do
  let ch ← acquired.mapError fun err => sprintf "acquire channel for topology: %w" [err]
  (nexusTopology.declareAll ch b).mapError fun err => sprintf "declare all topology: %w" [err]

end NexusPipe.Queue
