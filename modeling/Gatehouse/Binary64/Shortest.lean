import Gatehouse.Binary64.Numeral
/-!
# Shortest decimal text

A number is written with the fewest significant digits that read back to it; among those, the
digits nearest to its exact value, and of two equally near the larger. The text is always
positional: there is no exponent, and a whole number has no point.
-/

namespace Gatehouse.Binary64

open Gatehouse.Text

/-- A decimal number `digits * 10 ^ exponent`. -/
structure Decimal where
  digits : Nat
  exponent : Int
deriving DecidableEq, Inhabited

/-- The decimal reads back to the magnitude `units`. -/
def Decimal.readsBack (d : Decimal) (units : Nat) : Bool :=
  decimalUnits d.digits d.exponent = units

/-- A magnitude is this whole number of times `10 ^ -1074`. -/
def exactDigits (units : Nat) : Nat := units * Nat.pow 5 1074

/-- The better of the two decimals with `count` digits around a magnitude that read back, if
there is one: the nearer, or the upper when they are equally near. -/
def withDigits? (units count : Nat) : Option Decimal :=
  let exact := exactDigits units
  let dropped := (digits 10 exact).length - count
  let grid := Nat.pow 10 dropped
  let below : Decimal := ⟨exact / grid, (dropped : Int) - 1074⟩
  let above : Decimal := ⟨exact / grid + 1, (dropped : Int) - 1074⟩
  match below.readsBack units, above.readsBack units with
  | false, false => none
  | true, false => some below
  | false, true => some above
  | true, true => some (if 2 * (exact % grid) < grid then below else above)

/-- The shortest decimal that reads back to a magnitude. Seventeen digits are always enough. -/
def shortest (units : Nat) : Decimal :=
  ((List.range 17).findSome? fun i => withDigits? units (i + 1)).getD ⟨exactDigits units, -1074⟩

/-- Splits off the trailing zeros of a number, at most `fuel` of them: what is left, and how
many went. -/
def stripZeros : Nat → Nat → Nat × Nat
  | 0, n => (n, 0)
  | fuel + 1, n =>
    if n ≠ 0 ∧ n % 10 = 0 then
      let (rest, zeros) := stripZeros fuel (n / 10)
      (rest, zeros + 1)
    else (n, 0)

/-- A decimal in positional notation. -/
def Decimal.positional (d : Decimal) : List Char :=
  let (kept, zeros) := stripZeros (Text.digits 10 d.digits).length d.digits
  let text := Text.digits 10 kept
  let exponent := d.exponent + zeros
  if 0 ≤ exponent then
    text ++ List.replicate exponent.toNat '0'
  else
    let places := (-exponent).toNat
    if places < text.length then
      text.take (text.length - places) ++ '.' :: text.drop (text.length - places)
    else
      '0' :: '.' :: (List.replicate (places - text.length) '0' ++ text)

/-- The sign that goes in front of a magnitude. -/
def signText (negative : Bool) : List Char := if negative then ['-'] else []

def render : Binary64 → String
  | .nan => "NaN"
  | .infinite s => String.ofList (signText s ++ "inf".toList)
  | .finite s u _ =>
    String.ofList (signText s ++ (if u = 0 then ['0'] else (shortest u).positional))

end Gatehouse.Binary64
