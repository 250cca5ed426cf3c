import NexusPipe.Api.Middleware.Auth

namespace NexusPipe

def Time.unix (t : Time) : Int := t.instant / second - 62135596800

namespace Api
open Library Strings Middleware

structure JwtClaims where
  Subject : String
  Roles : List String
  deriving DecidableEq, Repr

def validateJWT (_tokenString _secret : String) : Except Text JwtClaims :=
  .ok { Subject := "user", Roles := ["user"] }

structure RouterContext where
  user_id : String
  user_roles : List String
  deriving DecidableEq, Repr

def authMiddleware (jwtSecret : String) (request : Request) :
    Except (Nat × String × String) RouterContext :=
  let authHeader := request.header "Authorization"
  if authHeader = "" then .error (401, "UNAUTHORIZED", "Missing authorization header")
  else
    let tokenString := trimPrefix authHeader "Bearer "
    if tokenString = authHeader then
      .error (401, "UNAUTHORIZED", "Invalid authorization format, use Bearer <token>")
    else
      match validateJWT tokenString jwtSecret with
      | .error _ => .error (401, "UNAUTHORIZED", "Invalid or expired token")
      | .ok claims => .ok ⟨claims.Subject, claims.Roles⟩

structure Visitor where
  count : Int
  lastSeen : Time
  deriving DecidableEq, Repr

structure RateLimiter where
  visitors : GoMap String Visitor
  rate : Int
  window : Int

def newRateLimiter (rate window : Int) : RateLimiter := ⟨∅, rate, window⟩

namespace RateLimiter
variable (rl : RateLimiter)

def cleanup (order : GoMap.RangeOrder String Visitor) (now : String → Time) : RateLimiter :=
  { rl with
    visitors := (order rl.visitors).entries.foldl
      (fun visitors x =>
        if (now x.1).sub x.2.lastSeen > toInt64 (rl.window * 2) then visitors.erase x.1 else visitors)
      rl.visitors }

def allow (ip : String) (now : Time) : (Bool × Int × Int) × RateLimiter :=
  let resetAt := (now.add rl.window).unix
  let fresh :=
    ((true, rl.rate - 1, resetAt), { rl with visitors := rl.visitors.insert ip ⟨1, now⟩ })
  match rl.visitors.lookup ip with
  | none => fresh
  | some v =>
    if now.sub v.lastSeen > rl.window then fresh
    else
      let v : Visitor := ⟨v.count + 1, now⟩
      let seen := { rl with visitors := rl.visitors.insert ip v }
      if v.count > rl.rate then ((false, 0, resetAt), seen)
      else ((true, rl.rate - v.count, resetAt), seen)

end RateLimiter

inductive LimiterEvent
  | allow (ip : String) (now : Time)
  | cleanup (order : GoMap.RangeOrder String Visitor) (now : String → Time)

def RateLimiter.apply (rl : RateLimiter) : LimiterEvent → RateLimiter
  | .allow ip now => (rl.allow ip now).2
  | .cleanup order now => rl.cleanup order now

def RateLimiter.after (rl : RateLimiter) (events : List LimiterEvent) : RateLimiter :=
  events.foldl RateLimiter.apply rl

end Api
end NexusPipe
