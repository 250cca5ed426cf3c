import NexusPipe.Library.While
import NexusPipe.Webhooks.Manager

namespace NexusPipe.Webhooks
open Library

structure DeliveryResult where
  StatusCode : Int := 0
  ResponseBody : String := ""
  Duration : Int := 0
  Attempt : Int
  Error : Option Text := none
  deriving DecidableEq, Repr

/-- A payload under `interface{}`: a `[]byte` or `json.RawMessage`, or a value with what
`json.Marshal` makes of it. -/
inductive DeliveryPayload
  | bytes (data : List UInt8)
  | other (marshalled : Except Text (List UInt8))

def serializePayload : DeliveryPayload → Except Text (List UInt8)
  | .bytes data => .ok data
  | .other marshalled => marshalled.mapError fun err => sprintf "json marshal: %w" [err]

/-- What an attempt meets: a URL of which no request can be made, an error of the HTTP client, or a
response. -/
inductive Exchange
  | unsendable (err : Text)
  | failed (err : Text) (duration : Int)
  | response (statusCode : Int) (body : String) (duration : Int)
  deriving DecidableEq, Repr

def sendAttempt (exchange : Exchange) (attempt : Int) : DeliveryResult :=
  match exchange with
  | .unsendable err => { Attempt := attempt, Error := some (sprintf "create request: %w" [err]) }
  | .failed err duration =>
    { Attempt := attempt
      Duration := duration
      Error := some (sprintf "http request failed: %w" [err]) }
  | .response statusCode body duration =>
    { StatusCode := statusCode
      ResponseBody := body
      Duration := duration
      Attempt := attempt
      Error :=
        if statusCode ≥ 200 ∧ statusCode < 300 then none
        else some (sprintf "unexpected status: %d" [.int statusCode]) }

/-- The surroundings of one call of `Deliver`, by the rounds of its loop: what the attempt meets, and
the error of the context if the wait before it ends that way. -/
structure DeliverEnv where
  exchange : Nat → Exchange
  interrupted : Nat → Option ContextError

structure DeliverState where
  attempt : Int := 1
  lastResult : Option DeliveryResult := none
  sent : List DeliveryResult := []
  deriving DecidableEq, Repr

structure Delivered where
  returned : Except Fault (Outcome DeliveryResult)
  sent : List DeliveryResult
  deriving DecidableEq

def deliverRound (config : DeliveryConfig) (env : DeliverEnv) (s : DeliverState) :
    DeliverState ⊕ Delivered :=
  if s.attempt ≤ config.MaxRetries then
    match if s.attempt > 1 then env.interrupted s.sent.length else none with
    | some err => .inr ⟨.ok (s.lastResult, some err.text), s.sent⟩
    | none =>
      let result := sendAttempt (env.exchange s.sent.length) s.attempt
      let sent := s.sent ++ [result]
      if result.Error = none ∧ result.StatusCode ≥ 200 ∧ result.StatusCode < 300 then
        .inr ⟨.ok (some result, none), sent⟩
      else .inl ⟨toInt64 (s.attempt + 1), some result, sent⟩
  else
    match s.lastResult with
    | none => .inr ⟨.error (.panic "invalid memory address or nil pointer dereference"), s.sent⟩
    | some result =>
      .inr ⟨.ok (some result, some (sprintf "webhook delivery failed after %d attempts: %s"
        [.int config.MaxRetries, result.Error.getD (.str "%!s(<nil>)")])), s.sent⟩

def deliver (config : DeliveryConfig) (payload : DeliveryPayload) (env : DeliverEnv) (fuel : Nat) :
    Option Delivered :=
  match serializePayload payload with
  | .error err => some ⟨.ok (none, some (sprintf "serialize payload: %w" [err])), []⟩
  | .ok _ => loopFor (deliverRound config env) fuel {}

/-- The calls of `Deliver` that the loop of `processTask` makes for the webhooks of a task. A panic
ends the process: one in `Deliver`, or the one at the fields of a nil result. `none` when a call takes
more than `fuel` rounds. -/
def deliverAll (config : DeliveryConfig) (payload : List UInt8) (fuel : Nat) :
    List (Webhook × DeliverEnv) → Option (List (Webhook × Delivered))
  | [] => some []
  | (wh, env) :: rest =>
    (deliver config (.bytes payload) env fuel).bind fun d =>
      match d.returned with
      | .ok (some _, _) => (deliverAll config payload fuel rest).map fun calls => (wh, d) :: calls
      | _ => some [(wh, d)]

end NexusPipe.Webhooks
