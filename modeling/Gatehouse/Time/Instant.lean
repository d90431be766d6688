import Gatehouse.Time.Duration
/-!
# Instants

A reading of the clock, in nanoseconds from an arbitrary origin. The clock may stall or run
backwards: the time since a later instant is no time at all.
-/

namespace Gatehouse

/-- Clock readings lie within `2 ^ 63` seconds of the origin. -/
def instantLimit : Int := (twoTo 63 * nanosPerSecond : Nat)

/-- A reading of the clock. -/
structure Instant where
  nanos : Int
  le_nanos : -instantLimit ≤ nanos
  nanos_lt : nanos < instantLimit
deriving DecidableEq

namespace Instant

/-- The instant at some nanoseconds from the origin, or nothing if that is too far. -/
def ofNanos? (nanos : Int) : Option Instant :=
  if h : -instantLimit ≤ nanos ∧ nanos < instantLimit then some ⟨nanos, h.1, h.2⟩ else none

def origin : Instant := ⟨0, by decide +kernel, by decide +kernel⟩

instance : Inhabited Instant := ⟨origin⟩

/-- The time from an earlier instant to this one; none if the other is not earlier. -/
def since (now earlier : Instant) : Duration :=
  ⟨(now.nanos - earlier.nanos).toNat, by
    have h1 := now.nanos_lt
    have h2 := earlier.le_nanos
    have hpos := twoTo_pos 63
    have h64 : twoTo 64 = twoTo 63 * 2 := twoTo_succ 63
    unfold instantLimit nanosPerSecond at h1 h2
    unfold durationLimit nanosPerSecond
    omega⟩

def latest (a b : Instant) : Instant := if a.nanos < b.nanos then b else a

end Instant

end Gatehouse
