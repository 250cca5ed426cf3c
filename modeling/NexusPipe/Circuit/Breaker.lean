import NexusPipe.Go
import NexusPipe.Library.Schedule

namespace NexusPipe.Circuit
open Library

inductive State
  | closed | opened | halfOpen
  deriving DecidableEq, Repr

structure Config where
  FailureThreshold : UInt32 := 0
  SuccessThreshold : UInt32 := 0
  Timeout : Int := 0
  HalfOpenMaxCalls : UInt32 := 0
  HalfOpenProbeInterval : Int := 0
  OnStateChange : Bool := false
  deriving DecidableEq

def newConfig : Config where
  FailureThreshold := 5
  SuccessThreshold := 3
  Timeout := 30 * second
  HalfOpenMaxCalls := 1
  HalfOpenProbeInterval := 5 * second

def Config.withDefaults (config : Config) : Config where
  FailureThreshold := if config.FailureThreshold = 0 then 5 else config.FailureThreshold
  SuccessThreshold := if config.SuccessThreshold = 0 then 3 else config.SuccessThreshold
  Timeout := if config.Timeout = 0 then 30 * second else config.Timeout
  HalfOpenMaxCalls := if config.HalfOpenMaxCalls = 0 then 1 else config.HalfOpenMaxCalls
  HalfOpenProbeInterval :=
    if config.HalfOpenProbeInterval = 0 then 5 * second else config.HalfOpenProbeInterval
  OnStateChange := config.OnStateChange

structure CircuitBreaker where
  config : Config
  state : State
  failures : UInt32
  successes : UInt32
  totalCalls : UInt64
  failedCalls : UInt64
  successCalls : UInt64
  openCount : UInt64
  lastFailure : Int
  lastStateChange : Int
  deriving DecidableEq

def new (config : Config) (now : Int) : CircuitBreaker where
  config := config.withDefaults
  state := .closed
  failures := 0
  successes := 0
  totalCalls := 0
  failedCalls := 0
  successCalls := 0
  openCount := 0
  lastFailure := 0
  lastStateChange := now

def maxDuration : Int := 2 ^ 63 - 1

def since (now t : Int) : Int := min (now - t) maxDuration

namespace CircuitBreaker
variable (cb : CircuitBreaker)

def expired (now : Int) : Bool :=
  cb.config.Timeout > 0 ∧ since now cb.lastStateChange > cb.config.Timeout

def total : UInt32 := cb.failures + cb.successes

def setState (newState : State) (now : Int) : CircuitBreaker :=
  { cb with
    state := newState
    lastStateChange := now
    failures := 0
    successes := 0
    openCount := if newState = .opened then cb.openCount + 1 else cb.openCount }

def reset (now : Int) : CircuitBreaker :=
  { cb with state := .closed, failures := 0, successes := 0, lastStateChange := now }

end CircuitBreaker

/-- What follows `setState`: `ready` answers true and the function runs, or nothing. -/
inductive After
  | run | finish
  deriving DecidableEq, Repr

/-- The access a goroutine makes next. Every atomic access and every locked section is one, and so
are the call of the function, the reading of `lastStateChange` and the callback. -/
inductive Pc
  | loadReady
  | checkTimeout
  | checkTotal
  | countRejected
  | callFn
  | countFailure
  | stampFailure
  | loadFailure
  | addHalfOpenFailure
  | addClosedFailure
  | countSuccess
  | loadSuccess
  | addSuccess
  | clearFailures
  | reset
  | loadOld (newState : State) (after : After)
  | store (old newState : State) (after : After)
  | notify (old newState : State) (after : After)
  | loadProbe
  | checkProbe
  | done
  deriving DecidableEq, Repr

inductive Event
  | admitted
  -- The pair is the one kept for `OnStateChange`.
  | changed (before after : State) (pair : State × State)
  | notified (pair : State × State)
  deriving DecidableEq, Repr

structure Access where
  pc : Pc
  cb : CircuitBreaker
  events : List Event
  deriving DecidableEq

def leave (cb : CircuitBreaker) (events : List Event) : After → Access
  | .run => ⟨.callFn, cb, .admitted :: events⟩
  | .finish => ⟨.done, cb, events⟩

def access (cb : CircuitBreaker) (now : Int) (ok : Bool) : Pc → Option Access
  -- ready
  | .loadReady => some <| match cb.state with
      | .closed => ⟨.callFn, cb, [.admitted]⟩
      | .opened => ⟨.checkTimeout, cb, []⟩
      | .halfOpen => ⟨.checkTotal, cb, []⟩
  | .checkTimeout => some <|
      if cb.expired now then ⟨.loadOld .halfOpen .run, cb, []⟩ else ⟨.countRejected, cb, []⟩
  | .checkTotal => some <|
      if cb.total ≥ cb.config.HalfOpenMaxCalls then ⟨.countRejected, cb, []⟩
      else ⟨.callFn, cb, [.admitted]⟩
  -- Call
  | .countRejected => some ⟨.done, { cb with failedCalls := cb.failedCalls + 1 }, []⟩
  | .callFn => some ⟨if ok then .countSuccess else .countFailure, cb, []⟩
  -- recordFailure
  | .countFailure => some ⟨.stampFailure, { cb with failedCalls := cb.failedCalls + 1 }, []⟩
  | .stampFailure => some ⟨.loadFailure, { cb with lastFailure := now }, []⟩
  | .loadFailure => some <| match cb.state with
      | .halfOpen => ⟨.addHalfOpenFailure, cb, []⟩
      | .closed => ⟨.addClosedFailure, cb, []⟩
      | .opened => ⟨.done, cb, []⟩
  | .addHalfOpenFailure =>
    some ⟨.loadOld .opened .finish, { cb with failures := cb.failures + 1 }, []⟩
  | .addClosedFailure => some
      ⟨if cb.failures + 1 ≥ cb.config.FailureThreshold then .loadOld .opened .finish else .done,
        { cb with failures := cb.failures + 1 }, []⟩
  -- recordSuccess
  | .countSuccess => some ⟨.loadSuccess, { cb with successCalls := cb.successCalls + 1 }, []⟩
  | .loadSuccess => some <| match cb.state with
      | .halfOpen => ⟨.addSuccess, cb, []⟩
      | .closed => ⟨.clearFailures, cb, []⟩
      | .opened => ⟨.done, cb, []⟩
  | .addSuccess => some
      ⟨if cb.successes + 1 ≥ cb.config.SuccessThreshold then .reset else .done,
        { cb with successes := cb.successes + 1 }, []⟩
  | .clearFailures => some ⟨.done, { cb with failures := 0 }, []⟩
  -- reset reports half-open whatever it overwrites
  | .reset => some ⟨.notify .halfOpen .closed .finish, cb.reset now,
      [.changed cb.state .closed (.halfOpen, .closed)]⟩
  -- setState
  | .loadOld newState after => some <|
      if cb.state = newState then leave cb [] after else ⟨.store cb.state newState after, cb, []⟩
  | .store old newState after => some ⟨.notify old newState after, cb.setState newState now,
      [.changed cb.state newState (old, newState)]⟩
  | .notify old newState after => some <|
      leave cb (if cb.config.OnStateChange then [.notified (old, newState)] else []) after
  -- probeLoop
  | .loadProbe => some ⟨if cb.state = .opened then .checkProbe else .done, cb, []⟩
  | .checkProbe => some <|
      if cb.expired now then ⟨.loadOld .halfOpen .finish, cb, []⟩ else ⟨.done, cb, []⟩
  | .done => none

/-- Goroutine 0 is the probe loop, which is `done` between two ticks; the others are calls. -/
structure Run where
  cb : CircuitBreaker
  now : Int
  goroutines : List Pc
  trace : List Event
  deriving DecidableEq

/-- When the ticks come is left to the schedule; the interval only says whether there are any. -/
inductive Action
  | advance (d : Nat)
  | call
  | tick
  | step (i : Nat) (ok : Bool)
  deriving DecidableEq, Repr

def start (config : Config) (now : Int) : Run := ⟨new config now, now, [.done], []⟩

def Run.move (s : Run) (i : Nat) (a : Access) : Run :=
  { s with cb := a.cb, goroutines := s.goroutines.set i a.pc, trace := a.events ++ s.trace }

def runStep (s : Run) : Action → Option Run
  | .advance d => some { s with now := s.now + d }
  | .call => some { s with
      cb := { s.cb with totalCalls := s.cb.totalCalls + 1 }
      goroutines := s.goroutines ++ [.loadReady] }
  | .tick =>
    if s.cb.config.HalfOpenProbeInterval > 0 ∧ s.goroutines[0]? = some .done then
      some { s with goroutines := s.goroutines.set 0 .loadProbe }
    else none
  | .step i ok =>
    match s.goroutines[i]? with
    | none => none
    | some pc => (access s.cb s.now ok pc).map (s.move i)

structure MetricSnapshot where
  State : State
  TotalCalls : UInt64
  FailedCalls : UInt64
  SuccessCalls : UInt64
  OpenCount : UInt64
  LastFailure : Int
  LastStateChange : Int
  deriving DecidableEq

def CircuitBreaker.metrics (cb : CircuitBreaker) : MetricSnapshot where
  State := cb.state
  TotalCalls := cb.totalCalls
  FailedCalls := cb.failedCalls
  SuccessCalls := cb.successCalls
  OpenCount := cb.openCount
  LastFailure := cb.lastFailure
  LastStateChange := cb.lastStateChange

end NexusPipe.Circuit
