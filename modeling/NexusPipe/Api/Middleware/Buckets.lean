import NexusPipe.Api.Middleware.RateLimit

/-! # Requests to a limiter that come one after the other

No request is between two others then, and a bucket is known by its key. -/

namespace NexusPipe.Api.Middleware
open Library

def rational : Arithmetic Rat where
  ofInt i := i
  seconds d := d / second
  add := (· + ·)
  sub := (· - ·)
  mul := (· * ·)
  div := (· / ·)
  lt a b := a < b
  le a b := a ≤ b
  eq a b := a = b

structure Buckets (N : Type) where
  limiter : RateLimiter N
  closures : Nat → TokenBucket N
  keyed : Scope → GoMap String (TokenBucket N) := fun _ => ∅

/-- A request reads the clock twice for the cleanup, and twice for each bucket: when it may have to
make the bucket, and when it refills it. -/
structure TimedRequest (N : Type) (closures : Nat) where
  handler : Handler closures
  clientIP : String
  userID : String
  clock : Nat → Time
  order : Scope → GoMap.RangeOrder String (TokenBucket N)

namespace Buckets
variable {N : Type} {closures : Nat} (num : Arithmetic N) (s : Buckets N)

def start (config : RateLimiterConfig N) (created : Time) : Buckets N :=
  let limiter := newRateLimiter num config created
  { limiter, closures := fun _ => limiter.newGlobalBucket num }

def performCleanup (order : Scope → GoMap.RangeOrder String (TokenBucket N)) (since now : Time) :
    Buckets N :=
  if since.sub s.limiter.lastCleanup < s.limiter.cleanupInterval then s
  else
    let threshold := now.add (toInt64 (-2 * s.limiter.cleanupInterval))
    { s with
      limiter := { s.limiter with lastCleanup := now }
      keyed := fun scope => (order scope (s.keyed scope)).entries.foldl (fun buckets entry =>
        if entry.2.lastRefill.before threshold then buckets.erase entry.1 else buckets)
        (s.keyed scope) }

def takeKeyed (scope : Scope) (key : String) (created now : Time) : Answer N × Buckets N :=
  let bucket := ((s.keyed scope).lookup key).getD (s.limiter.newBucket num created scope)
  let (answer, bucket) := take num bucket now
  (answer, { s with keyed := Function.update s.keyed scope ((s.keyed scope).insert key bucket) })

def takeFrom (created now : Time) : Target → Answer N × Buckets N
  | .global closure =>
    let (answer, bucket) := take num (s.closures closure) now
    (answer, { s with closures := Function.update s.closures closure bucket })
  | .ip key => s.takeKeyed num .ip key created now
  | .user key => s.takeKeyed num .user key created now

def serve (s : Buckets N) (clock : Nat → Time) : List Stage → Response N × Buckets N
  | [] => (.next, s)
  | stage :: stages =>
    match s.takeFrom num (clock 0) (clock 1) stage.target with
    | (.rejected retryAfter, s) => (.tooManyRequests stage.error retryAfter, s)
    | (.admitted, s) => s.serve (fun i => clock (i + 2)) stages

def request (r : TimedRequest N closures) : Response N × Buckets N :=
  let clock i := r.clock (i + 2)
  match r.handler.enter (N := N) r.clientIP r.userID with
  | .arriving stages => (s.performCleanup r.order (r.clock 0) (r.clock 1)).serve num clock stages
  | .locating stages => s.serve num clock stages
  | _ => (.next, s)

def requests (s : Buckets N) : List (TimedRequest N closures) → List (Response N) × Buckets N
  | [] => ([], s)
  | r :: rest =>
    let (response, s) := s.request num r
    let (responses, s) := s.requests rest
    (response :: responses, s)

/-- No two readings of the clock are as far apart as that, since `Sub` saturates. -/
def unevicted : Buckets N := { s with limiter := { s.limiter with cleanupInterval := 2 ^ 63 } }

end Buckets
end NexusPipe.Api.Middleware
