import Gatehouse.Binary64.Basic
import Gatehouse.Text.Digits
/-!
# Reading decimal numerals

A numeral has an optional sign, digits with at most one point among them, and an optional
exponent of ten. Its value is rounded once, so the result is the binary64 number nearest to what
is written.
-/

namespace Gatehouse.Binary64

open Gatehouse.Text

/-- The magnitude nearest to `digits * 10 ^ exponent`, no upper limit being set. Exponents that
are certainly out of range are settled without raising ten to them. -/
def decimalUnits (digits : Nat) (exponent : Int) : Nat :=
  if digits = 0 then 0
  else if 400 < exponent then overflowUnits
  else if exponent < -(400 + digits.log2 : Int) then 0
  else if 0 ≤ exponent then nearestUnits (digits * Nat.pow 10 exponent.toNat * unitsPerOne) 1
  else nearestUnits (digits * unitsPerOne) (Nat.pow 10 (-exponent).toNat)

theorem decimalUnits_short (digits : Nat) (exponent : Int) :
    ∃ m e : Nat, m < twoTo 53 ∧ decimalUnits digits exponent = m * twoTo e := by
  unfold decimalUnits
  split
  · exact ⟨0, 0, twoTo_pos 53, (Nat.zero_mul _).symm⟩
  · split
    · exact ⟨1, 2098, by decide +kernel, (Nat.one_mul _).symm⟩
    · split
      · exact ⟨0, 0, twoTo_pos 53, (Nat.zero_mul _).symm⟩
      · split
        · exact nearestUnits_short _ _
        · exact nearestUnits_short _ _

/-- The number nearest to `± digits * 10 ^ exponent`. -/
def ofDecimal (negative : Bool) (digits : Nat) (exponent : Int) : Binary64 :=
  if h : decimalUnits digits exponent < overflowUnits then
    .finite negative (decimalUnits digits exponent) ⟨h, decimalUnits_short digits exponent⟩
  else
    .infinite negative

/-- Takes a sign off the front; without one the sign is plus. -/
def takeSign : List Char → Bool × List Char
  | '-' :: cs => (true, cs)
  | '+' :: cs => (false, cs)
  | cs => (false, cs)

/-- The exponent that follows the digits: none, or a mark, an optional sign and digits. -/
def readExponent? : List Char → Option Int
  | [] => some 0
  | mark :: cs =>
    if mark = 'e' ∨ mark = 'E' then
      let (negative, ds) := takeSign cs
      (natural? 10 ds).map fun n => if negative then -(n : Int) else n
    else none

def readUnsigned? (negative : Bool) (cs : List Char) : Option Binary64 :=
  let whole := cs.takeWhile isDigit
  let afterWhole := cs.dropWhile isDigit
  let (fraction, rest) :=
    match afterWhole with
    | '.' :: more => (more.takeWhile isDigit, more.dropWhile isDigit)
    | other => ([], other)
  match natural? 10 (whole ++ fraction), readExponent? rest with
  | some digits, some exponent =>
    some (ofDecimal negative digits (exponent - fraction.length))
  | _, _ => none

/-- The words for the infinities and for no number are read in any case. -/
def readWord? (negative : Bool) (cs : List Char) : Option Binary64 :=
  let word := cs.map Char.toLower
  if word = "inf".toList ∨ word = "infinity".toList then some (.infinite negative)
  else if word = "nan".toList then some .nan
  else none

/-- The number that a text writes, or nothing if it is no numeral. -/
def read? (cs : List Char) : Option Binary64 :=
  let (negative, body) := takeSign cs
  (readUnsigned? negative body).orElse fun _ => readWord? negative body

end Gatehouse.Binary64
