import NexusPipe.Go

/-! # The package `internal/retry`

`Do` and `DoWithData` run concurrently with whoever cancels their context. -/

namespace NexusPipe.Retry

structure AttemptError (E : Type) where
  attempt : Int
  maxAttempts : Int
  err : E
  deriving DecidableEq

/-- `ctx.Err()`, or `all %d attempts failed: %w`, which wraps nil if there was no attempt. -/
inductive RetryError (E : Type)
  | context (err : ContextError)
  | exhausted (maxAttempts : Int) (lastErr : Option (AttemptError E))
  deriving DecidableEq

inductive Phase (A : Type)
  | loop (attempt : Nat)
  | selecting (attempt : Nat)
  | calling (attempt : Nat)
  | running (attempt : Nat)
  | returned (answer : A)
  deriving DecidableEq

structure Call (A V E : Type) where
  ctx : Option ContextError := none
  phase : Phase A := .loop 0
  lastErr : Option (AttemptError E) := none
  outcomes : List (Except E V) := []

/-- The select takes `done` or `timer`; with both ready, either. -/
inductive CallAction (V E : Type)
  | cancel (err : ContextError)
  | proceed
  | done
  | timer
  | outcome (result : Except E V)

structure Answers (A V E : Type) where
  success : V → A
  failure : RetryError E → A

section
variable {A V E : Type} (answers : Answers A V E) (maxAttempts : Int)

def retryStep (s : Call A V E) : CallAction V E → Option (Call A V E)
  | .cancel err => if s.ctx = none then some { s with ctx := some err } else none
  | .proceed =>
    match s.phase with
    | .loop attempt =>
      if attempt < maxAttempts then
        some { s with phase := if attempt > 0 then .selecting attempt else .calling attempt }
      else
        some { s with phase := .returned (answers.failure (.exhausted maxAttempts s.lastErr)) }
    | .calling attempt => some { s with phase := .running attempt }
    | _ => none
  | .done =>
    match s.phase, s.ctx with
    | .selecting _, some err => some { s with phase := .returned (answers.failure (.context err)) }
    | _, _ => none
  | .timer =>
    match s.phase with
    | .selecting attempt => some { s with phase := .calling attempt }
    | _ => none
  | .outcome result =>
    match s.phase, result with
    | .running _, .ok v =>
      some { s with
        phase := .returned (answers.success v)
        outcomes := s.outcomes ++ [.ok v] }
    | .running attempt, .error err =>
      some { s with
        phase := .loop (attempt + 1)
        lastErr := some ⟨attempt + 1, maxAttempts, err⟩
        outcomes := s.outcomes ++ [.error err] }
    | _, _ => none

end

def doAnswers {E : Type} : Answers (Option (RetryError E)) Unit E := ⟨fun _ => none, some⟩

def doWithDataAnswers {T E : Type} (zero : T) : Answers (T × Option (RetryError E)) T E :=
  ⟨fun result => (result, none), fun err => (zero, some err)⟩

def doStep {E : Type} (maxAttempts : Int) := retryStep (doAnswers (E := E)) maxAttempts

def doWithDataStep {T E : Type} (zero : T) (maxAttempts : Int) :=
  retryStep (doWithDataAnswers (E := E) zero) maxAttempts

inductive Strategy
  | fixed | linear | exponential | exponentialWithJitter
  deriving DecidableEq

set_option linter.dupNamespace false in
structure Config where
  MaxAttempts : Int
  BaseDelay : Int
  MaxDelay : Int
  Strategy : Strategy
  Jitter : Float64

def defaultConfig : Config where
  MaxAttempts := 3
  BaseDelay := 100 * millisecond
  MaxDelay := 30 * second
  Strategy := .exponential
  Jitter := .ofRat (mkRat 1 5)

section
variable (machine : Conversion) (cfg : Config)

def exponentialDelay (attempt : Int) : Int :=
  toInt64 (cfg.BaseDelay * (machine.convert (powTwo (toInt64 (attempt - 1)))).toInt)

def calculateDelay (random : Float64) (attempt : Int) : Int :=
  let delay :=
    match cfg.Strategy with
    | .fixed => cfg.BaseDelay
    | .linear => toInt64 (cfg.BaseDelay * attempt)
    | .exponential => exponentialDelay machine cfg attempt
    | .exponentialWithJitter =>
      let delay := exponentialDelay machine cfg attempt
      if (Float64.finite 0).lt cfg.Jitter then
        let spread := (random.mul (.finite 2)).sub (.finite 1)
        let jitter := machine.convert (((Float64.ofRat delay).mul cfg.Jitter).mul spread)
        let delay := toInt64 (delay + jitter.toInt)
        if delay < 0 then cfg.BaseDelay else delay
      else delay
  if cfg.MaxDelay > 0 ∧ delay > cfg.MaxDelay then cfg.MaxDelay else delay

end

inductive FuncError
  | new (text : String)
  | permanentError (err : FuncError)
  | wrapped (text : String) (err : FuncError)
  deriving DecidableEq

def FuncError.chain : FuncError → List FuncError
  | .new text => [.new text]
  | .permanentError err => .permanentError err :: err.chain
  | .wrapped text err => .wrapped text err :: err.chain

def isPermanent : FuncError → Bool
  | .permanentError _ => true
  | _ => false

def RetryError.chain : RetryError FuncError → List FuncError
  | .context _ => []
  | .exhausted _ lastErr => lastErr.elim [] (·.err.chain)

end NexusPipe.Retry
