import NexusPipe.Cron
import NexusPipe.Library.While

/-! # The package `pkg/retry` -/

namespace NexusPipe.Pkg.Retry
open Library

structure Config (E : Type) where
  MaxAttempts : Int
  BaseDelay : Int
  MaxDelay : Int
  Strategy : Int
  Jitter : Int
  RetryableErr : Option (E → Bool)

inductive ResultErr (E : Type)
  | retryFailed (lastErr : Option E)
  | contextCanceled (err : ContextError)
  deriving DecidableEq

structure Result (V E : Type) where
  Value : Option V
  Err : Option (ResultErr E)
  Attempts : Int
  TotalTime : Int
  deriving DecidableEq

structure CacheEntry (V E : Type) where
  value : Option V
  err : Option (ResultErr E)
  expiresAt : Time
  deriving DecidableEq

structure ResultCache (V E : Type) where
  entries : GoMap String (CacheEntry V E)
  ttl : Int
  capacity : Int

structure FirstKey where
  pick : Finset String → String
  member : ∀ keys, keys.Nonempty → pick keys ∈ keys

section
variable {V E : Type}

def newResultCache (ttl capacity : Int) : ResultCache V E where
  entries := ∅
  ttl := ttl
  capacity := if capacity ≤ 0 then 1000 else capacity

def ResultCache.get (c : ResultCache V E) (key : String) (now : Time) :
    Option (CacheEntry V E) × ResultCache V E :=
  match c.entries.lookup key with
  | none => (none, c)
  | some entry =>
    if !entry.expiresAt.isZero && now.after entry.expiresAt then
      (none, { c with entries := c.entries.erase key })
    else (some entry, c)

def ResultCache.set (c : ResultCache V E) (key : String) (value : Option V)
    (err : Option (ResultErr E)) (ttl : Int) (first : FirstKey) (now : Time) : ResultCache V E :=
  let entries :=
    if c.capacity ≤ c.entries.len then c.entries.erase (first.pick c.entries.keys) else c.entries
  let exp := if ttl > 0 then now.add ttl else Time.zero
  { c with entries := entries.insert key { value := value, err := err, expiresAt := exp } }

end

structure Retryer (V E : Type) where
  config : Config E
  cache : Option (ResultCache V E) := none

def new {V E : Type} (config : Config E) : Retryer V E where
  config :=
    { config with
      MaxAttempts := if config.MaxAttempts ≤ 0 then 3 else config.MaxAttempts
      BaseDelay := if config.BaseDelay ≤ 0 then 100 * millisecond else config.BaseDelay
      MaxDelay := if config.MaxDelay ≤ 0 then 30 * second else config.MaxDelay
      RetryableErr := some (config.RetryableErr.getD fun _ => true) }

def Retryer.withCache {V E : Type} (r : Retryer V E) (ttl capacity : Int) : Retryer V E :=
  { r with cache := some (newResultCache ttl capacity) }

/-- What a call meets: the outcome of each attempt, the context's error where the loop or the wait
after an attempt sees it done, and the readings of the clock. -/
structure DoCall (V E : Type) where
  outcome : Int → Except E V
  checked : Int → Option ContextError := fun _ => none
  waited : Int → Option ContextError := fun _ => none
  start : Time
  readAt : Time
  storedAt : Time
  finish : Time
  first : FirstKey

structure LoopState (E : Type) where
  attempt : Int := 1
  attempts : Int := 0
  lastErr : Option E := none
  deriving DecidableEq

inductive LoopEnd (V E : Type)
  | canceled (err : ContextError) (attempts : Int)
  | succeeded (val : V) (attempts : Int)
  | failed (lastErr : Option E) (attempts : Int)
  deriving DecidableEq

section
variable {V E : Type}

def Config.retryable (config : Config E) (err : E) : Bool :=
  (config.RetryableErr.getD fun _ => true) err

def nextRound (config : Config E) (call : DoCall V E) (s : LoopState E) : LoopState E ⊕ LoopEnd V E :=
  if s.attempt ≤ config.MaxAttempts then
    match call.checked s.attempt with
    | some err => .inr (.canceled err s.attempts)
    | none =>
      match call.outcome s.attempt with
      | .ok val => .inr (.succeeded val s.attempt)
      | .error err =>
        let next := ⟨toInt64 (s.attempt + 1), s.attempt, some err⟩
        if !config.retryable err then .inr (.failed (some err) s.attempt)
        else if s.attempt < config.MaxAttempts then
          match call.waited s.attempt with
          | some done => .inr (.canceled done s.attempt)
          | none => .inl next
        else .inl next
  else .inr (.failed s.lastErr s.attempts)

def cacheKey : String := ""

def Retryer.read (r : Retryer V E) (call : DoCall V E) : Option (CacheEntry V E) × Retryer V E :=
  match r.cache with
  | none => (none, r)
  | some cache =>
    let (found, cache) := cache.get cacheKey call.readAt
    (found, { r with cache := some cache })

def Retryer.store (r : Retryer V E) (call : DoCall V E) (value : Option V)
    (err : Option (ResultErr E)) : Retryer V E :=
  { r with cache := r.cache.map fun cache =>
    cache.set cacheKey value err cache.ttl call.first call.storedAt }

def Retryer.conclude (r : Retryer V E) (call : DoCall V E) (ending : LoopEnd V E) :
    Result V E × Retryer V E :=
  let totalTime := call.finish.sub call.start
  match ending with
  | .canceled err attempts => (⟨none, some (.contextCanceled err), attempts, totalTime⟩, r)
  | .succeeded val attempts => (⟨some val, none, attempts, totalTime⟩, r.store call (some val) none)
  | .failed lastErr attempts =>
    let err := .retryFailed lastErr
    (⟨none, some err, attempts, totalTime⟩, r.store call none (some err))

def Retryer.doCall (r : Retryer V E) (fuel : Nat) (call : DoCall V E) :
    Option (Result V E × Retryer V E) :=
  match r.read call with
  | (some entry, r) =>
    some (⟨entry.value, entry.err, 0, call.finish.sub call.start⟩, r)
  | (none, r) => (loopFor (nextRound r.config call) fuel {}).map (r.conclude call)

end

def strategyExponential : Int := 1
def strategyFibonacci : Int := 2

def fibonacciDelay (attempt base : Int) : Int :=
  let next (pair : Int × Int) := (pair.2, toInt64 (pair.1 + pair.2))
  toInt64 ((next^[(attempt - 2).toNat] (1, 1)).2 * base)

def Retryer.delay {V E : Type} (r : Retryer V E) (machine : Conversion) (attempt : Int) : Int :=
  let d :=
    if r.config.Strategy = strategyExponential then
      let mult := powTwo (toInt64 (attempt - 1))
      toInt64 ((machine.convert mult).toInt * r.config.BaseDelay)
    else if r.config.Strategy = strategyFibonacci then fibonacciDelay attempt r.config.BaseDelay
    else toInt64 (attempt * r.config.BaseDelay)
  let d := if r.config.MaxDelay > 0 ∧ d > r.config.MaxDelay then r.config.MaxDelay else d
  if r.config.Jitter > 0 then
    let j := (toInt64 (r.config.Jitter * attempt)).tmod (toInt64 (r.config.Jitter + 1))
    toInt64 (d + j)
  else d

end NexusPipe.Pkg.Retry
