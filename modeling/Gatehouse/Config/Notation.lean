import Gatehouse.Config.Record
/-!
# Notations of values

How the values in a configuration are written: durations as seconds, addresses and networks as
text, lists of networks as sequences, and rates either as a number per second or as a mapping
with a number and a period.
-/

namespace Gatehouse.Config

open Gatehouse.Yaml

/-! ## Texts -/

/-- The text of a scalar, whatever else it says. -/
def readText (spot : Spot) (expected : String) (node : Node) : Decoded String :=
  match node.content with
  | .scalar s => .ok s.text
  | other => spot.mismatch other expected

/-- A node that says that there is nothing: plain, and null. -/
def saysNothing (spot : Spot) (node : Node) : Decoded Bool :=
  match node.content with
  | .scalar s =>
    match s.tag with
    | none => .ok (s.plain && (s.text = "~" || s.text = "null"))
    | some (.core "null") =>
      if !s.plain then .ok false
      else if s.text = "~" ∨ s.text = "null" then .ok true
      else spot.reject (.invalidValue s.text "null")
    | some _ => .ok false
  | .sequence _ => .ok false
  | .mapping _ => .ok false

/-- A value that may be left out by saying so. -/
def readOptional {α : Type} (read : Spot → Node → Decoded α) (spot : Spot) (node : Node) :
    Decoded (Option α) := do
  if ← saysNothing spot node then return none else return some (← read spot node)

def readString (spot : Spot) (node : Node) : Decoded String := readText spot "a string" node

def readEndpoint (spot : Spot) (node : Node) : Decoded Endpoint := do
  let text ← readText spot "socket address" node
  match Endpoint.read? text.toList with
  | some endpoint => return endpoint
  | none => spot.refuse .badEndpoint

/-! ## Networks -/

/-- One network, as an item of a list. -/
def readNetwork (spot : Spot) (node : Node) : Decoded Network := do
  let text ← readString spot node
  match Network.parse text with
  | .ok net => return net
  | .error e => spot.reject (.badNetwork e)

/-- Networks from the item with the given index on. -/
def readNetworkItems (spot : Spot) (index : Nat) : List Node → Decoded (List Network)
  | [] => .ok []
  | item :: items => do
    let net ← readNetwork (spot.inside (.item index)) item
    let nets ← readNetworkItems spot (index + 1) items
    return net :: nets

def readNetworks (spot : Spot) (node : Node) : Decoded (List Network) :=
  match node.content with
  | .sequence items => readNetworkItems spot 0 items
  | other => spot.mismatch other "a sequence"

/-- A network as an item of a list: its text, in quotes if such texts are `quoted`. -/
def writeNetwork (quoted : String → Bool) (net : Network) : Node :=
  .scalar { text := net.render, plain := !quoted net.render }

def writeNetworks (quoted : String → Bool) (nets : List Network) : Node :=
  .sequence (nets.map (writeNetwork quoted))

/-! ## Durations -/

/-- A number, written as an integer or with a point. -/
def readNumber (spot : Spot) (node : Node) : Decoded Binary64 :=
  match node.content with
  | .scalar s =>
    match s.value.number? with
    | some x => .ok x
    | none => spot.mismatch (.scalar s) "f64"
  | other => spot.mismatch other "f64"

/-- A duration above zero, in seconds. -/
def readDuration (spot : Spot) (node : Node) : Decoded Duration := do
  let seconds ← readNumber spot node
  match Duration.fromSeconds seconds with
  | .error why => spot.reject (.badDuration seconds why)
  | .ok d => if d.isZero then spot.reject (.nonPositiveDuration seconds) else return d

/-! ## Rates -/

/-- Looks through the items of a sequence from the one with the given index on. -/
def lookThroughItems (look : Path → Node → Decoded Unit) (path : Path) (index : Nat) :
    List Node → Decoded Unit
  | [] => .ok ()
  | item :: items => do
    look (path ++ [.item index]) item
    lookThroughItems look path (index + 1) items

/-- Looks through the entries of a mapping, each key before its value. -/
def lookThroughEntries (look : Path → Node → Decoded Unit) (path : Path) :
    List (Node × Node) → Decoded Unit
  | [] => .ok ()
  | (key, value) :: entries => do
    look path key
    look (path ++ [RecordShape.segmentOf key]) value
    lookThroughEntries look path entries

/-- Looks through a node of any kind. Scalars have to fit their tags and 64 bits, and at most
`depth` collections may be nested. -/
def lookThrough (depth : Nat) (path : Path) (node : Node) : Decoded Unit :=
  match depth, node.content with
  | _, .scalar s =>
    match s.value with
    | .misfit text wanted => .error (.problem path (.invalidValue text wanted))
    | .wide n name => .error (.problem path (.invalidType (.value (.wide n name)) "any value"))
    | _ => .ok ()
  | 0, _ => .error .nestedTooDeep
  | depth + 1, .sequence items => lookThroughItems (lookThrough depth) path 0 items
  | depth + 1, .mapping entries => lookThroughEntries (lookThrough depth) path entries

/-- A number and the length of a window in seconds. -/
structure RateWindow where
  count : Option Binary64 := none
  seconds : Option Binary64 := none
deriving DecidableEq

/-- What a key of a window stands for. -/
inductive WindowKey where
  | count
  | seconds
  | ignored
deriving DecidableEq

/-- The meaning of a key, by its name or by the number of the field; keys of other kinds have
none. -/
def WindowKey.ofNode? (node : Node) : Option WindowKey :=
  match node.content with
  | .scalar s =>
    match s.value with
    | .text "rate" => some .count
    | .text "per" => some .seconds
    | .text _ => some .ignored
    | .natural 0 => some .count
    | .natural 1 => some .seconds
    | .natural _ => some .ignored
    | _ => none
  | _ => none

/-- The number that a node is. -/
def numberOf? (node : Node) : Option Binary64 :=
  match node.content with
  | .scalar s => s.value.number?
  | _ => none

/-- The window with one more entry; no entry may come twice, and what is not ignored has to be a
number. -/
def RateWindow.add? (w : RateWindow) (entry : Node × Node) : Option RateWindow :=
  match WindowKey.ofNode? entry.1 with
  | some .ignored => some w
  | some .count =>
    match w.count, numberOf? entry.2 with
    | none, some x => some { w with count := some x }
    | _, _ => none
  | some .seconds =>
    match w.seconds, numberOf? entry.2 with
    | none, some x => some { w with seconds := some x }
    | _, _ => none
  | none => none

/-- The number and the seconds that a node denotes, if it is one of the notations of a rate. -/
def rateNotation? (node : Node) : Option (Binary64 × Binary64) :=
  match node.content with
  | .scalar s => s.value.number?.map fun x => (x, .one)
  | .sequence _ => none
  | .mapping entries =>
    match entries.foldlM RateWindow.add? {} with
    | some w => w.count.map fun x => (x, w.seconds.getD .one)
    | none => none

/-- The rate of a number per window; a window that is no duration counts as none at all. -/
def rateOfWindow (count seconds : Binary64) : Except InvalidRate Rate :=
  match Duration.fromSeconds seconds with
  | .ok period => Rate.create count period
  | .error _ => .error ⟨count, .zero⟩

/-- A rate, within at most `depth` more collections. -/
def readRate (depth : Nat) (spot : Spot) (node : Node) : Decoded Rate := do
  lookThrough depth spot.path node
  match rateNotation? node with
  | none => spot.reject .noRateNotation
  | some (count, seconds) =>
    match rateOfWindow count seconds with
    | .ok rate => return rate
    | .error e => spot.reject (.badRate e)

end Gatehouse.Config
