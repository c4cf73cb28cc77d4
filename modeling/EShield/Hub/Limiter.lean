import EShield.Lib.Exec
import EShield.Lib.Saturating
import EShield.Lib.TokenBucket

/-!
# The rate limiter of the hub

Each node has a bucket of whole tokens with the time of its last refill. A call adds the whole tokens
of the time since then, and takes one.
-/

namespace EShield.Hub

def NS_PER_S : Nat := 1000000000

structure RateLimiter where
  /-- Tokens of each node, and when they were last refilled. -/
  buckets : String → Option (UInt64 × UInt64)
  ratePerS : UInt64
  burst : UInt64

namespace RateLimiter

def new (ratePerS burst : UInt64) : RateLimiter :=
  { buckets := fun _ => none, ratePerS := ratePerS, burst := burst }

/-- The refill since the last one. Without a whole token to add the bucket stays as it is. -/
def refill (ratePerS burst : UInt64) (bucket : UInt64 × UInt64) (nowNs : UInt64) :
    UInt64 × UInt64 :=
  let elapsedNs := nowNs.saturatingSub bucket.2
  if elapsedNs > 0 then
    let added : UInt64 := .ofNat (elapsedNs.toNat * ratePerS.toNat / NS_PER_S)
    if added > 0 then (min (bucket.1.saturatingAdd added) burst, nowNs) else bucket
  else bucket

def check (l : RateLimiter) (nodeName : String) (nowNs : UInt64) : Bool × RateLimiter :=
  let bucket := refill l.ratePerS l.burst ((l.buckets nodeName).getD (l.burst, nowNs)) nowNs
  if bucket.1 > 0 then
    (true,
      { l with buckets := Function.update l.buckets nodeName (some (bucket.1 - 1, bucket.2)) })
  else (false, { l with buckets := Function.update l.buckets nodeName (some bucket) })

end RateLimiter

/-! ## Runs -/

/-- The limiter over time, beside it for each node the ideal bucket and the times of its calls that the
limiter has granted. -/
structure LimiterRun where
  limiter : RateLimiter
  ideal : String → Option TokenBucket.Bucket := fun _ => none
  granted : String → List Nat := fun _ => []

/-- Tokens that the ideal bucket gets in a nanosecond. -/
def RateLimiter.ratePerNs (l : RateLimiter) : ℚ := l.ratePerS.toNat / NS_PER_S

/-- What the ideal bucket of the node makes of a call. -/
def idealCheck (w : LimiterRun) (nodeName : String) (nowNs : UInt64) : Bool × TokenBucket.Bucket :=
  TokenBucket.event w.limiter.burst.toNat w.limiter.ratePerNs nowNs.toNat (w.ideal nodeName)

/-- A call of a node. The clock does not go back between the calls of one node. -/
def limiterStep (w : LimiterRun) (call : String × UInt64) : Option LimiterRun :=
  if ∃ b ∈ w.ideal call.1, call.2.toNat < b.time then none
  else
    let r := w.limiter.check call.1 call.2
    some
      { limiter := r.2
        ideal := Function.update w.ideal call.1 (some (idealCheck w call.1 call.2).2)
        granted :=
          if r.1 then
            Function.update w.granted call.1 (w.granted call.1 ++ [call.2.toNat])
          else w.granted }

end EShield.Hub
