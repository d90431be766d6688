import Gatehouse.Access.Network
import Gatehouse.Rate
import Gatehouse.Yaml.Malformed
import Gatehouse.Yaml.Value
/-!
# Errors in configurations

A text that is not one document is unreadable. Otherwise the first problem in the order of the
document is reported, with the path of the node that has it.
-/

namespace Gatehouse

namespace Config

open Gatehouse.Text

/-- A step from a node to one inside it. -/
inductive Segment where
  | key (name : String)
  | item (index : Nat)
  /-- under a key that has no name of its own -/
  | unnamed
deriving DecidableEq

/-- The way from the root to a node. -/
abbrev Path := List Segment

/-- The mark that stands for the root in front of the index of an item. -/
def Path.rootMark : String := "."

/-- The text of the path to a node inside one; the root has no text. -/
def Segment.extend (parent : Option String) : Segment → String
  | .key name => (parent.map (· ++ ".")).getD "" ++ name
  | .item index => parent.getD Path.rootMark ++ "[" ++ decimal index ++ "]"
  | .unnamed => (parent.map (· ++ ".")).getD "" ++ "?"

/-- The text of a path, nothing at the root. -/
def Path.render (path : Path) : Option String :=
  path.foldl (fun parent segment => some (segment.extend parent)) none

/-- The text of a path in front of a message. A path that reads like the mark of the root is left
out as well. -/
def Path.heading (path : Path) : Option String :=
  match path.render with
  | some text => if text = rootMark then none else some text
  | none => none

/-- What was found where something else was expected. -/
inductive Found where
  | value (v : Yaml.Value)
  | sequence
  | mapping
deriving DecidableEq

def Found.describe : Found → String
  | .value v => v.describe
  | .sequence => "sequence"
  | .mapping => "map"

/-- What is found at a node. -/
def Found.ofContent : Yaml.Content → Found
  | .scalar s => .value s.value
  | .sequence _ => .sequence
  | .mapping _ => .mapping

/-- What can be wrong with a node. -/
inductive Problem where
  | invalidType (found : Found) (expected : String)
  | invalidValue (text expected : String)
  | missingField (name : String)
  | unknownField (name : String) (known : List String)
  | duplicateField (name : String)
  | tooFewItems (count : Nat) (what : String) (fields : Nat)
  | tooManyItems (count used : Nat)
  | noRateNotation
  | badEndpoint
  | badDuration (seconds : Binary64) (why : Duration.Misfit)
  | nonPositiveDuration (seconds : Binary64)
  | badRate (e : InvalidRate)
  | badNetwork (e : NetworkError)
deriving DecidableEq

/-- A name in backquotes. -/
def ticked (name : String) : String := "`" ++ name ++ "`"

/-- The names that could have stood where an unknown one does. -/
def oneOf : List String → String
  | [] => "there are no fields"
  | [a] => "expected " ++ ticked a
  | [a, b] => "expected " ++ ticked a ++ " or " ++ ticked b
  | names => "expected one of " ++ String.intercalate ", " (names.map ticked)

def Problem.message : Problem → String
  | .invalidType found expected => "invalid type: " ++ found.describe ++ ", expected " ++ expected
  | .invalidValue text expected =>
    "invalid value: string " ++ quoted text ++ ", expected " ++ expected
  | .missingField name => "missing field " ++ ticked name
  | .unknownField name known => "unknown field " ++ ticked name ++ ", " ++ oneOf known
  | .duplicateField name => "duplicate field " ++ ticked name
  | .tooFewItems count what fields =>
    "invalid length " ++ decimal count ++ ", expected " ++ what ++ " with " ++ decimal fields ++
      " elements"
  | .tooManyItems count used =>
    "invalid length " ++ decimal count ++ ", expected sequence of " ++ decimal used ++
      (if used = 1 then " element" else " elements")
  | .noRateNotation => "data did not match any variant of untagged enum RateDef"
  | .badEndpoint => "invalid socket address syntax"
  | .badDuration seconds why => "invalid duration " ++ seconds.render ++ ": " ++ why.message
  | .nonPositiveDuration seconds => "duration must be positive: " ++ seconds.render
  | .badRate e => e.message
  | .badNetwork e => e.message

end Config

/-- Why a text is no configuration. -/
inductive ConfigError where
  | malformed (why : Yaml.Malformed)
  | noDocument
  | severalDocuments
  | nestedTooDeep
  | problem (path : Config.Path) (what : Config.Problem)
deriving DecidableEq

namespace ConfigError

/-- The text is not one document. -/
def isUnreadable : ConfigError → Bool
  | .malformed _ => true
  | .noDocument => true
  | .severalDocuments => true
  | .nestedTooDeep => false
  | .problem .. => false

def message : ConfigError → String
  | .malformed _ => "malformed document"
  | .noDocument => "EOF while parsing a value"
  | .severalDocuments =>
    "deserializing from YAML containing more than one document is not supported"
  | .nestedTooDeep => "recursion limit exceeded"
  | .problem path what =>
    match path.heading with
    | some text => text ++ ": " ++ what.message
    | none => what.message

end ConfigError

end Gatehouse
