import Gatehouse.Rate
import Gatehouse.Time.Instant
/-!
# Token buckets

A bucket holds up to its capacity of tokens and needs no timer: at each call it is first
credited for the time since the latest instant it has seen, and then the cost is taken if the
level allows. An instant earlier than that credits nothing and does not set the bucket back.
-/

namespace Gatehouse

/-- A bucket of tokens, as of its last call. -/
structure TokenBucket where
  capacity : Binary64
  refillPerSecond : Binary64
  tokens : Binary64
  lastRefill : Instant
deriving DecidableEq

namespace TokenBucket

def full (rate : Rate) (now : Instant) : TokenBucket where
  capacity := rate.capacity
  refillPerSecond := rate.refillPerSecond
  tokens := rate.capacity
  lastRefill := now

/-- What flows in between the last refill and an instant, before the capacity cuts it off. -/
def credit (b : TokenBucket) (now : Instant) : Binary64 :=
  (now.since b.lastRefill).toSeconds * b.refillPerSecond

/-- The bucket credited up to an instant. -/
def refill (b : TokenBucket) (now : Instant) : TokenBucket :=
  { b with
    tokens := (b.tokens + b.credit now).min b.capacity
    lastRefill := b.lastRefill.latest now }

/-- Takes `cost` tokens at an instant if that many are there after refilling; otherwise the
level stays as refilled. -/
def tryTake (b : TokenBucket) (cost : Binary64) (now : Instant) : TokenBucket × Bool :=
  let b := b.refill now
  if b.tokens.lt cost then (b, false)
  else ({ b with tokens := b.tokens - cost }, true)

def tryTakeOne (b : TokenBucket) (now : Instant) : TokenBucket × Bool := b.tryTake .one now

end TokenBucket

end Gatehouse
