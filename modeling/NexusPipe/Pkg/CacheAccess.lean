import NexusPipe.Library.RWMutex
import NexusPipe.Pkg.Retry

/-! # Goroutines at one cached `Retryer` -/

namespace NexusPipe.Pkg.Retry
open Library

/-- Where a goroutine stands in `Do`, or in `ResetCache`. In `looking` it is inside the lookup of
the map, in `deleting`, `storing` and `clearing` inside a modification. -/
inductive CachePc (V E : Type)
  | idle
  | looking
  | comparing (entry : CacheEntry V E)
  | deleting
  | releasing (hit : Bool)
  | running
  | locking (value : Option V) (err : Option (ResultErr E))
  | storing (value : Option V) (err : Option (ResultErr E))
  | resetting
  | clearing
  | unlocking

/-- The next step of a goroutine. An idle one calls `Do` or resets the cache; the loop of `Do` ends
with something to store unless it was cancelled. -/
structure CacheAction (V E G : Type) where
  goroutine : G
  now : Time
  first : FirstKey
  reset : Bool := false
  stores : Option (Option V × Option (ResultErr E)) := none

structure CacheUsers (V E G : Type) where
  cache : ResultCache V E
  mu : RWMutex G := {}
  pcs : G → CachePc V E := fun _ => .idle

namespace CacheUsers
variable {V E G : Type} [DecidableEq G] (s : CacheUsers V E G)

def goto (g : G) (pc : CachePc V E) : CacheUsers V E G :=
  { s with pcs := Function.update s.pcs g pc }

def step (a : CacheAction V E G) : Option (CacheUsers V E G) :=
  let g := a.goroutine
  match s.pcs g with
  | .idle =>
    if a.reset then some (s.goto g .resetting)
    else (s.mu.rLock g).map fun mu => { s with mu }.goto g .looking
  | .looking =>
    match s.cache.entries.lookup cacheKey with
    | none => some (s.goto g (.releasing false))
    | some entry => some (s.goto g (.comparing entry))
  | .comparing entry =>
    if !entry.expiresAt.isZero && a.now.after entry.expiresAt then some (s.goto g .deleting)
    else some (s.goto g (.releasing true))
  | .deleting =>
    let cache := { s.cache with entries := s.cache.entries.erase cacheKey }
    some ({ s with cache }.goto g (.releasing false))
  | .releasing hit =>
    some ({ s with mu := s.mu.rUnlock g }.goto g (if hit then .idle else .running))
  | .running =>
    match a.stores with
    | none => some (s.goto g .idle)
    | some (value, err) => some (s.goto g (.locking value err))
  | .locking value err => (s.mu.lock g).map fun mu => { s with mu }.goto g (.storing value err)
  | .storing value err =>
    let cache := s.cache.set cacheKey value err s.cache.ttl a.first a.now
    some ({ s with cache }.goto g .unlocking)
  | .resetting => (s.mu.lock g).map fun mu => { s with mu }.goto g .clearing
  | .clearing => some ({ s with cache := { s.cache with entries := ∅ } }.goto g .unlocking)
  | .unlocking => some ({ s with mu := s.mu.unlock }.goto g .idle)

end CacheUsers
end NexusPipe.Pkg.Retry
