import Gatehouse.TokenBucket
/-!
# The global limiter

One bucket shared by every connection to a listener.
-/

namespace Gatehouse

/-- A rate and the bucket that enforces it. -/
structure GlobalLimiter where
  rate : Rate
  bucket : TokenBucket
deriving DecidableEq

namespace GlobalLimiter

/-- A limiter with a full bucket. -/
def create (rate : Rate) (now : Instant) : GlobalLimiter := ⟨rate, .full rate now⟩

/-- Takes a token for one connection. -/
def tryTake (g : GlobalLimiter) (now : Instant) : GlobalLimiter × Bool :=
  let (bucket, granted) := g.bucket.tryTakeOne now
  ({ g with bucket }, granted)

end GlobalLimiter

end Gatehouse
