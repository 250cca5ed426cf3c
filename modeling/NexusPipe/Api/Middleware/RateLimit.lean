import NexusPipe.Cron
import NexusPipe.Library.Section

namespace NexusPipe.Api.Middleware
open Library

/-- The numbers that tokens are counted in, and what the code does with them. -/
structure Arithmetic (N : Type) where
  ofInt : Int → N
  seconds : Int → N
  add : N → N → N
  sub : N → N → N
  mul : N → N → N
  div : N → N → N
  lt : N → N → Bool
  le : N → N → Bool
  eq : N → N → Bool

def float64 : Arithmetic Float64 where
  ofInt i := .ofRat i
  seconds := .seconds
  add := .add
  sub := .sub
  mul := .mul
  div := .div
  lt := Float64.lt
  le := Float64.le
  eq a b := a.le b && b.le a

structure TokenBucket (N : Type) where
  tokens : N
  lastRefill : Time
  rate : N
  burst : Int
  deriving DecidableEq

inductive Answer (N : Type)
  | admitted
  | rejected (retryAfter : N)
  deriving DecidableEq

section
variable {N : Type} (num : Arithmetic N)

def refillBucket (bucket : TokenBucket N) (now : Time) : TokenBucket N :=
  let elapsed := num.seconds (now.sub bucket.lastRefill)
  let tokensToAdd := num.mul elapsed bucket.rate
  let tokens := num.add bucket.tokens tokensToAdd
  let tokens := if num.lt (num.ofInt bucket.burst) tokens then num.ofInt bucket.burst else tokens
  { bucket with tokens := tokens, lastRefill := now }

def retryAfter (bucket : TokenBucket N) : N :=
  let needed := num.sub (num.ofInt 1) bucket.tokens
  if num.le needed (num.ofInt 0) then num.ofInt 0 else num.div needed bucket.rate

def take (bucket : TokenBucket N) (now : Time) : Answer N × TokenBucket N :=
  let bucket := refillBucket num bucket now
  if num.lt bucket.tokens (num.ofInt 1) then (.rejected (retryAfter num bucket), bucket)
  else (.admitted, { bucket with tokens := num.sub bucket.tokens (num.ofInt 1) })

inductive TakePc (N : Type)
  | start
  | clocked (now : Time)
  | measured (now : Time) (tokensToAdd : N)
  | summed (now : Time) (tokens : N)
  | added (now : Time)
  | exceeding (now : Time)
  | capped (now : Time)
  | refilled (now : Time)
  | enough (now : Time)
  | counted (now : Time) (tokens : N)
  | short (now : Time)
  deriving DecidableEq

def takeStep (clock : Time) : TakePc N → TokenBucket N →
    (TakePc N ⊕ (Time × Answer N)) × TokenBucket N
  | .start, b => (.inl (.clocked clock), b)
  | .clocked now, b =>
    (.inl (.measured now (num.mul (num.seconds (now.sub b.lastRefill)) b.rate)), b)
  | .measured now tokensToAdd, b => (.inl (.summed now (num.add b.tokens tokensToAdd)), b)
  | .summed now tokens, b => (.inl (.added now), { b with tokens := tokens })
  | .added now, b =>
    (.inl (if num.lt (num.ofInt b.burst) b.tokens then .exceeding now else .capped now), b)
  | .exceeding now, b => (.inl (.capped now), { b with tokens := num.ofInt b.burst })
  | .capped now, b => (.inl (.refilled now), { b with lastRefill := now })
  | .refilled now, b =>
    (.inl (if num.lt b.tokens (num.ofInt 1) then .short now else .enough now), b)
  | .enough now, b => (.inl (.counted now (num.sub b.tokens (num.ofInt 1))), b)
  | .counted now tokens, b => (.inr (now, .admitted), { b with tokens := tokens })
  | .short now, b => (.inr (now, .rejected (retryAfter num b)), b)

def taking : Section (TakePc N) (TokenBucket N) Time (Time × Answer N) where
  begins pc := ∃ now, pc = .clocked now
  step := takeStep num

end

structure RateLimiterConfig (N : Type) where
  GlobalRate : N
  GlobalBurst : Int
  IPRate : N
  IPBurst : Int
  UserRate : N
  UserBurst : Int
  CleanupInterval : Int
  deriving DecidableEq

structure RateLimiter (N : Type) where
  ipBuckets : GoMap String Nat := ∅
  userBuckets : GoMap String Nat := ∅
  globalRate : N
  globalBurst : Int
  ipRate : N
  ipBurst : Int
  userRate : N
  userBurst : Int
  cleanupInterval : Int
  lastCleanup : Time

section
variable {N : Type} (num : Arithmetic N)

def newRateLimiter (config : RateLimiterConfig N) (now : Time) : RateLimiter N :=
  let rate (given : N) (default : Int) := if num.eq given (num.ofInt 0) then num.ofInt default else given
  let orElse (given default : Int) := if given = 0 then default else given
  { globalRate := rate config.GlobalRate 1000
    globalBurst := orElse config.GlobalBurst 1500
    ipRate := rate config.IPRate 10
    ipBurst := orElse config.IPBurst 20
    userRate := rate config.UserRate 100
    userBurst := orElse config.UserBurst 200
    cleanupInterval := orElse config.CleanupInterval (5 * minute)
    lastCleanup := now }

def RateLimiter.newGlobalBucket (rl : RateLimiter N) : TokenBucket N where
  tokens := num.ofInt rl.globalBurst
  lastRefill := Time.zero
  rate := rl.globalRate
  burst := rl.globalBurst

inductive Scope
  | ip | user
  deriving DecidableEq

def RateLimiter.buckets (rl : RateLimiter N) : Scope → GoMap String Nat
  | .ip => rl.ipBuckets
  | .user => rl.userBuckets

def RateLimiter.withBuckets (rl : RateLimiter N) (buckets : GoMap String Nat) :
    Scope → RateLimiter N
  | .ip => { rl with ipBuckets := buckets }
  | .user => { rl with userBuckets := buckets }

def RateLimiter.newBucket (rl : RateLimiter N) (now : Time) : Scope → TokenBucket N
  | .ip => ⟨num.ofInt rl.ipBurst, now, rl.ipRate, rl.ipBurst⟩
  | .user => ⟨num.ofInt rl.userBurst, now, rl.userRate, rl.userBurst⟩

def RateLimiter.getOrCreate (rl : RateLimiter N) (scope : Scope) (key : String) (now : Time)
    (free : Nat) : Nat × Option (TokenBucket N) × RateLimiter N :=
  match (rl.buckets scope).lookup key with
  | some b => (b, none, rl)
  | none =>
    (free, some (rl.newBucket num now scope),
      rl.withBuckets ((rl.buckets scope).insert key free) scope)

def RateLimiter.getOrCreateIPBucket (rl : RateLimiter N) := rl.getOrCreate num .ip

def RateLimiter.getOrCreateUserBucket (rl : RateLimiter N) := rl.getOrCreate num .user

end

inductive Target
  | global (closure : Nat)
  | ip (key : String)
  | user (key : String)
  deriving DecidableEq

structure Stage where
  target : Target
  error : String
  deriving DecidableEq

inductive Handler (closures : Nat)
  | globalRateLimit (closure : Fin closures)
  | ipRateLimit
  | userRateLimit
  | rateLimit (closure : Fin closures)
  deriving DecidableEq

inductive Response (N : Type)
  | next
  | tooManyRequests (error : String) (retryAfter : N)
  deriving DecidableEq

inductive RequestPc (N : Type)
  | arriving (stages : List Stage)
  | cleaning (stages : List Stage)
  | sweeping (now threshold : Time) (todo : List (Scope × String)) (stages : List Stage)
  | locating (stages : List Stage)
  | taking (bucket : Nat) (pc : TakePc N) (error : String) (stages : List Stage)
  | responded (response : Response N)
  deriving DecidableEq

def userStages (userID error : String) : List Stage :=
  if userID = "" then [] else [⟨.user userID, error⟩]

def Handler.enter {closures : Nat} {N : Type} (clientIP userID : String) :
    Handler closures → RequestPc N
  | .globalRateLimit closure => .locating [⟨.global closure, "global rate limit exceeded"⟩]
  | .ipRateLimit => .arriving [⟨.ip clientIP, "rate limit exceeded for this IP"⟩]
  | .userRateLimit => .arriving (userStages userID "rate limit exceeded for this user")
  | .rateLimit closure =>
    .arriving ([⟨.global closure, "global rate limit exceeded"⟩,
      ⟨.ip clientIP, "IP rate limit exceeded"⟩] ++ userStages userID "user rate limit exceeded")

/-- `holder` is the request that holds the mutex of the maps between its steps. -/
structure Limiting (N R : Type) where
  limiter : RateLimiter N
  heap : List (Shared (TokenBucket N) (Time × Answer N))
  holder : Option R := none
  requests : R → RequestPc N

structure LimitingAction (R : Type) where
  request : R
  clock : Time
  ipOrder : GoMap.RangeOrder String Nat
  userOrder : GoMap.RangeOrder String Nat

namespace Limiting
variable {N R : Type} [DecidableEq R] (num : Arithmetic N)

def goto (s : Limiting N R) (r : R) (pc : RequestPc N) : Limiting N R :=
  { s with requests := Function.update s.requests r pc }

def locate (s : Limiting N R) (r : R) (located : Nat × Option (TokenBucket N) × RateLimiter N)
    (error : String) (stages : List Stage) : Option (Limiting N R) :=
  if s.holder = none then
    let made := located.2.1.toList.map fun bucket => { initial := bucket, current := bucket }
    some ({ s with limiter := located.2.2, heap := s.heap ++ made }.goto r
      (.taking located.1 .start error stages))
  else none

def step (s : Limiting N R) (a : LimitingAction R) : Option (Limiting N R) :=
  let r := a.request
  match s.requests r with
  | .arriving stages =>
    if s.holder = none then
      if a.clock.sub s.limiter.lastCleanup < s.limiter.cleanupInterval then
        some (s.goto r (.locating stages))
      else some ({ s with holder := some r }.goto r (.cleaning stages))
    else none
  | .cleaning stages =>
    let threshold := a.clock.add (toInt64 (-2 * s.limiter.cleanupInterval))
    let todo := (a.ipOrder s.limiter.ipBuckets).entries.map (fun entry => (.ip, entry.1)) ++
      (a.userOrder s.limiter.userBuckets).entries.map (fun entry => (.user, entry.1))
    some (s.goto r (.sweeping a.clock threshold todo stages))
  | .sweeping now threshold ((scope, key) :: todo) stages =>
    let buckets := s.limiter.buckets scope
    (buckets.lookup key).bind fun b => s.heap[b]?.map fun cell =>
      let buckets :=
        if threshold.after cell.current.lastRefill then buckets.erase key else buckets
      { s with limiter := s.limiter.withBuckets buckets scope }.goto r
        (.sweeping now threshold todo stages)
  | .sweeping now _ [] stages =>
    some ({ s with limiter := { s.limiter with lastCleanup := now }, holder := none }.goto r
      (.locating stages))
  | .locating [] => some (s.goto r (.responded .next))
  | .locating (⟨.global closure, error⟩ :: stages) =>
    some (s.goto r (.taking closure .start error stages))
  | .locating (⟨.ip key, error⟩ :: stages) =>
    s.locate r (s.limiter.getOrCreateIPBucket num key a.clock s.heap.length) error stages
  | .locating (⟨.user key, error⟩ :: stages) =>
    s.locate r (s.limiter.getOrCreateUserBucket num key a.clock s.heap.length) error stages
  | .taking b pc error stages =>
    s.heap[b]?.map fun cell =>
      match takeStep num a.clock pc cell.current with
      | (.inl pc, bucket) =>
        { s with heap := s.heap.set b { cell with current := bucket } }.goto r
          (.taking b pc error stages)
      | (.inr (now, answer), bucket) =>
        let cell := { cell with current := bucket, answers := cell.answers ++ [(now, answer)] }
        { s with heap := s.heap.set b cell }.goto r
          (match answer with
          | .admitted => .locating stages
          | .rejected retryAfter => .responded (.tooManyRequests error retryAfter))
  | .responded _ => none

def start (config : RateLimiterConfig N) (created : Time) (closures : Nat)
    (requests : R → Handler closures × String × String) : Limiting N R :=
  let limiter := newRateLimiter num config created
  let bucket := limiter.newGlobalBucket num
  { limiter := limiter
    heap := List.replicate closures { initial := bucket, current := bucket }
    requests := fun r => (requests r).1.enter (requests r).2.1 (requests r).2.2 }

end Limiting
end NexusPipe.Api.Middleware
