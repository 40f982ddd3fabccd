import Mathlib.Algebra.Group.Nat.Defs
import DashBeam.Protocol.Control

/-!
# The rate limiter of unpaired control traffic

A token bucket per endpoint id, with a cap on the number of buckets. Instants are in nanoseconds;
the refill interval is in milliseconds, as `allow` reads it.
-/

namespace DashBeam.Native

open Protocol

def unpairedBurst : Nat := 8

def unpairedRefillIntervalMs : Nat := 2000

def maxTrackedPeers : Nat := 512

structure Bucket where
  tokens : Nat
  lastRefill : Nat
  deriving DecidableEq, Repr

/-- `UnpairedRateLimiter`. The map's entries are kept as a list with one entry a key. -/
structure UnpairedRateLimiter where
  burst : Nat
  refillIntervalMs : Nat
  buckets : List (String × Bucket)
  deriving DecidableEq, Repr

namespace UnpairedRateLimiter

def new : UnpairedRateLimiter := ⟨unpairedBurst, unpairedRefillIntervalMs, []⟩

/-- Whole refill intervals since the bucket's last refill, as a `u32`. -/
def refills (limiter : UnpairedRateLimiter) (bucket : Bucket) (now : Nat) : Nat :=
  ((now - bucket.lastRefill) / 1000000 / max limiter.refillIntervalMs 1) % 2 ^ 32

def saturatingAdd (a b : Nat) : Nat := min (a + b) (2 ^ 32 - 1)

/-- Drops the buckets that have fully refilled. -/
def prune (limiter : UnpairedRateLimiter) (now : Nat) : UnpairedRateLimiter :=
  { limiter with
    buckets := limiter.buckets.filter fun entry =>
      saturatingAdd entry.2.tokens (limiter.refills entry.2 now) < limiter.burst }

def refilled (limiter : UnpairedRateLimiter) (bucket : Bucket) (now : Nat) : Bucket :=
  let refills := limiter.refills bucket now
  if refills > 0 then
    ⟨min (saturatingAdd bucket.tokens refills) limiter.burst,
      bucket.lastRefill + limiter.refillIntervalMs * 1000000 * refills⟩
  else bucket

def setBucket (limiter : UnpairedRateLimiter) (key : String) (bucket : Bucket) :
    UnpairedRateLimiter :=
  if (limiter.buckets.lookup key).isSome then
    { limiter with
      buckets := limiter.buckets.map fun entry => if entry.1 = key then (key, bucket) else entry }
  else { limiter with buckets := limiter.buckets ++ [(key, bucket)] }

/-- Charges one token to the bucket of `key`, which is there or is made full. -/
def charge (limiter : UnpairedRateLimiter) (key : String) (now : Nat) :
    Bool × UnpairedRateLimiter :=
  let bucket := (limiter.buckets.lookup key).getD ⟨limiter.burst, now⟩
  let bucket := limiter.refilled bucket now
  if bucket.tokens = 0 then (false, limiter.setBucket key bucket)
  else (true, limiter.setBucket key { bucket with tokens := bucket.tokens - 1 })

def allow {Id : Type} (I : Iroh Id) (limiter : UnpairedRateLimiter) (endpointId : String)
    (now : Nat) : Bool × UnpairedRateLimiter :=
  let key := I.toLowercase endpointId
  if (limiter.buckets.lookup key).isNone && limiter.buckets.length ≥ maxTrackedPeers then
    let limiter := limiter.prune now
    if limiter.buckets.length ≥ maxTrackedPeers then (false, limiter)
    else limiter.charge key now
  else limiter.charge key now

end UnpairedRateLimiter

end DashBeam.Native
