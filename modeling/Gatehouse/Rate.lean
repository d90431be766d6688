import Gatehouse.Time.Duration
/-!
# Rates

A rate is a number of admissions per period. It is what a token bucket is built from: the number
is the bucket's capacity, and the quotient of number and period is what flows in per second.
-/

namespace Gatehouse

/-- A number that can be a rate: finite and above zero. -/
def Binary64.isPositive (x : Binary64) : Bool := x.isFinite && Binary64.zero.lt x

/-- A finite positive number of admissions per period that is not zero. -/
structure Rate where
  count : Binary64
  period : Duration
  count_pos : count.isPositive = true
  period_pos : 0 < period.nanos
deriving DecidableEq

/-- A count and a period that make no rate. -/
structure InvalidRate where
  count : Binary64
  period : Duration
deriving DecidableEq

def InvalidRate.message (e : InvalidRate) : String :=
  "invalid rate: " ++ e.count.render ++ " per " ++ e.period.render

namespace Rate

/-- The rate of `count` per `period`, provided that the count is finite and positive and the
period is not zero. -/
def create (count : Binary64) (period : Duration) : Except InvalidRate Rate :=
  if h : count.isPositive = true ∧ 0 < period.nanos then .ok ⟨count, period, h.1, h.2⟩
  else .error ⟨count, period⟩

def second : Duration := Duration.ofSeconds 1

/-- A number of admissions per second. -/
def perSecond (count : Binary64) : Except InvalidRate Rate := create count second

/-- The most that a bucket of this rate holds. -/
def capacity (r : Rate) : Binary64 := r.count

/-- A bucket that never holds a whole token admits nobody. -/
def admitsAny (r : Rate) : Bool := Binary64.one.le r.count

/-- Tokens that flow in per second. -/
def refillPerSecond (r : Rate) : Binary64 := r.count / r.period.toSeconds

/-- The text of a rate: count, slash, period. -/
def render (r : Rate) : String := r.count.render ++ "/" ++ r.period.render

end Rate

end Gatehouse
