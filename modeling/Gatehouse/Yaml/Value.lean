import Gatehouse.Binary64.Shortest
import Gatehouse.Text.Quoted
import Gatehouse.Yaml.Node
/-!
# Values of scalars

What a scalar says beyond its text. A plain scalar without a tag is taken for the first of these
that it can be: nothing, a truth value, an integer, a number, a text. Under a tag it is what the
tag says or does not fit; all others are texts.
-/

namespace Gatehouse.Yaml

open Gatehouse.Text

inductive Value where
  | null
  | boolean (b : Bool)
  /-- an integer without a minus sign, below `2 ^ 64` -/
  | natural (n : Nat)
  /-- an integer with a minus sign or under a tag, within 64 bits -/
  | integer (n : Int)
  /-- an integer beyond 64 bits but within 128; `name` says within which -/
  | wide (n : Int) (name : String)
  | number (x : Binary64)
  | text (s : String)
  /-- a text that is not what its tag says -/
  | misfit (s wanted : String)
deriving DecidableEq

namespace Value

/-- An integer within 64 bits that is written with or without a sign. -/
def signed64? (cs : List Char) : Option Int :=
  let (negative, ds) := Binary64.takeSign cs
  match natural? 10 ds with
  | some n =>
    if negative then (if n ≤ twoTo 63 then some (-(n : Int)) else none)
    else if n < twoTo 63 then some n else none
  | none => none

/-- An integer in another base, after the mark of the base. A plus sign may follow the mark; a
minus sign stands in front of it. -/
def ofBase? (base : Nat) (negative : Bool) (cs : List Char) : Option Value :=
  if negative then
    match natural? base cs with
    | some n => if n ≤ twoTo 63 then some (.integer (-(n : Int))) else none
    | none => none
  else
    let ds := match cs with
      | '+' :: rest => rest
      | other => other
    match natural? base ds with
    | some n => if n < twoTo 64 then some (.natural n) else none
    | none => none

/-- An integer with a mark of its base: hexadecimal, octal or binary. -/
def withBaseMark? (cs : List Char) : Option Value :=
  let (negative, body) := Binary64.takeSign cs
  match body with
  | '0' :: 'x' :: ds => ofBase? 16 negative ds
  | '0' :: 'o' :: ds => ofBase? 8 negative ds
  | '0' :: 'b' :: ds => ofBase? 2 negative ds
  | _ => none

/-- Digits with a leading zero are no integer. -/
def hasLeadingZero (cs : List Char) : Bool :=
  let ds := cs.dropWhile fun c => c = '-' || c = '+'
  1 < ds.length && ds.head? = some '0' && ds.all isDigit

/-- An integer in decimal, of up to 128 bits. -/
def decimal? (cs : List Char) : Option Value :=
  let (negative, ds) := Binary64.takeSign cs
  match natural? 10 ds with
  | none => none
  | some n =>
    if negative then
      if n ≤ twoTo 63 then some (.integer (-(n : Int)))
      else if n ≤ twoTo 127 then some (.wide (-(n : Int)) "i128")
      else none
    else
      if n < twoTo 64 then some (.natural n)
      else if n < twoTo 128 then some (.wide n "u128")
      else none

/-- The words for infinity and for no number. -/
def specialNumber? (cs : List Char) : Option Binary64 :=
  let infinities := [".inf".toList, ".Inf".toList, ".INF".toList]
  if infinities.contains (cs.dropWhile (· == '+')) then some (.infinite false)
  else if cs.head? = some '-' && infinities.contains (cs.drop 1) then some (.infinite true)
  else if [".nan".toList, ".NaN".toList, ".NAN".toList].contains cs then some .nan
  else none

def finiteNumber? (cs : List Char) : Option Binary64 :=
  match Binary64.read? cs with
  | some x => if x.isFinite then some x else none
  | none => none

/-- What a plain scalar without a tag says. -/
def ofPlain (s : String) : Value :=
  let cs := s.toList
  if s = "~" ∨ s = "null" then .null
  else if s = "true" then .boolean true
  else if s = "false" then .boolean false
  else
    match withBaseMark? cs with
    | some v => v
    | none =>
      if hasLeadingZero cs then .text s
      else
        match decimal? cs with
        | some v => v
        | none =>
          match specialNumber? cs with
          | some x => .number x
          | none =>
            match finiteNumber? cs with
            | some x => .number x
            | none => .text s

/-- What a scalar says under a tag. -/
def ofTagged (tag : Tag) (s : String) : Value :=
  match tag with
  | .core "bool" =>
    if s = "true" then .boolean true
    else if s = "false" then .boolean false
    else .misfit s "a boolean"
  | .core "int" =>
    match signed64? s.toList with
    | some n => .integer n
    | none => .misfit s "an integer"
  | .core "float" =>
    match Binary64.read? s.toList with
    | some x => .number x
    | none => .misfit s "a float"
  | .core "null" => if s = "~" ∨ s = "null" then .null else .misfit s "null"
  | _ => .text s

/-- The binary64 number of a value that is an integer within 64 bits or a number. -/
def number? : Value → Option Binary64
  | .natural n => some (.ofNat n)
  | .integer n => some (.ofInt n)
  | .number x => some x
  | _ => none

/-- A number as it is quoted in messages: a whole one gets a point and a zero. -/
def describeNumber (x : Binary64) : String :=
  let text := x.render
  if x.isFinite && !text.toList.contains '.' then text ++ ".0" else text

/-- A value as it is named in messages. -/
def describe : Value → String
  | .null => "unit value"
  | .boolean b => "boolean `" ++ (if b then "true" else "false") ++ "`"
  | .natural n => "integer `" ++ decimal n ++ "`"
  | .integer n => "integer `" ++ decimalInt n ++ "`"
  | .wide n name => "integer `" ++ decimalInt n ++ "` as " ++ name
  | .number x => "floating point `" ++ describeNumber x ++ "`"
  | .text s => "string " ++ quoted s
  | .misfit s _ => "string " ++ quoted s

end Value

def Scalar.value (s : Scalar) : Value :=
  match s.tag with
  | some tag => .ofTagged tag s.text
  | none => if s.plain then .ofPlain s.text else .text s.text

end Gatehouse.Yaml
