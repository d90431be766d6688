import Gatehouse.Binary64.Shortest
/-!
# Durations

A duration is a whole number of nanoseconds, fewer than `2 ^ 64` seconds in all. It is read from
seconds in binary64, exactly and then rounded to the nearest nanosecond, and it is turned back
into binary64 seconds from its whole seconds and its nanoseconds, each rounded.
-/

namespace Gatehouse

def nanosPerSecond : Nat := 1000000000

/-- The first number of nanoseconds that is no duration. -/
def durationLimit : Nat := twoTo 64 * nanosPerSecond

/-- A length of time. -/
structure Duration where
  nanos : Nat
  nanos_lt : nanos < durationLimit
deriving DecidableEq

namespace Duration

/-- The duration of some nanoseconds, or nothing if there are too many. -/
def ofNanos? (nanos : Nat) : Option Duration :=
  if h : nanos < durationLimit then some ⟨nanos, h⟩ else none

/-- Whole seconds and the nanoseconds beyond them, or nothing if there are too many. -/
def ofParts? (seconds nanos : Nat) : Option Duration := ofNanos? (seconds * nanosPerSecond + nanos)

/-- No time at all. -/
def zero : Duration := ⟨0, by decide +kernel⟩

instance : Inhabited Duration := ⟨zero⟩

/-- Some seconds, fewer than `2 ^ 64`. -/
def ofSeconds (seconds : Nat) (h : seconds < twoTo 64 := by decide +kernel) : Duration :=
  ⟨seconds * nanosPerSecond, Nat.mul_lt_mul_of_pos_right h (by decide)⟩

def isZero (d : Duration) : Bool := d.nanos = 0

/-- The whole seconds of a duration. -/
def seconds (d : Duration) : Nat := d.nanos / nanosPerSecond

/-- The nanoseconds of a duration beyond its whole seconds. -/
def subsecond (d : Duration) : Nat := d.nanos % nanosPerSecond

def max (a b : Duration) : Duration := if a.nanos < b.nanos then b else a

/-! ## Seconds in binary64 -/

/-- The number of seconds in some nanoseconds: whole seconds and the rest are converted, the
rest is divided, and the two are added, each step rounded. -/
def secondsOfNanos (nanos : Nat) : Binary64 :=
  Binary64.ofNat (nanos / nanosPerSecond) +
    Binary64.ofNat (nanos % nanosPerSecond) / Binary64.ofNat nanosPerSecond

/-- The length of a duration in seconds. -/
def toSeconds (d : Duration) : Binary64 := secondsOfNanos d.nanos

/-- Why a number of seconds is no duration. -/
inductive Misfit where
  | negative
  | tooBigOrNaN
deriving DecidableEq

def Misfit.message : Misfit → String
  | .negative => "cannot convert float seconds to Duration: value is negative"
  | .tooBigOrNaN => "cannot convert float seconds to Duration: value is either too big or NaN"

/-- The duration nearest to a number of seconds, of two equally near the one with an even number
of nanoseconds. Every number below zero is refused, however small; negative zero is zero. -/
def fromSeconds : Binary64 → Except Misfit Duration
  | .nan => .error .tooBigOrNaN
  | .infinite s => .error (if s then .negative else .tooBigOrNaN)
  | .finite s u _ =>
    if s ∧ u ≠ 0 then .error .negative
    else
      match ofNanos? (roundDiv (u * nanosPerSecond) Binary64.unitsPerOne) with
      | some d => .ok d
      | none => .error .tooBigOrNaN

/-! ## Text -/

/-- The units a duration is written in, the largest first: name, and nanoseconds in one. -/
def unitNames : List (String × Nat) :=
  [("s", nanosPerSecond), ("ms", 1000000), ("µs", 1000)]

/-- The digits of a fraction below one of `size`, a power of ten, without trailing zeros. -/
def fractionText (part size : Nat) : String :=
  if part = 0 then ""
  else
    let padded := (Text.digits 10 (size + part)).drop 1
    String.ofList ('.' :: (padded.reverse.dropWhile (· == '0')).reverse)

/-- Nanoseconds in a unit of some size. -/
def inUnit (nanos : Nat) (unit : String × Nat) : String :=
  Text.decimal (nanos / unit.2) ++ fractionText (nanos % unit.2) unit.2 ++ unit.1

/-- The text of a duration: in the largest of seconds, milliseconds, microseconds and
nanoseconds of which there is a whole one, with a fraction where needed. -/
def render (d : Duration) : String :=
  match unitNames.find? fun unit => decide (unit.2 ≤ d.nanos) with
  | some unit => inUnit d.nanos unit
  | none => inUnit d.nanos ("ns", 1)

end Duration

end Gatehouse
