/-!
# Tokens

The lexical units of YAML. Indentation has been turned into starts and ends of block
collections, and a key that is known by its colon only is announced before its node.
-/

namespace Gatehouse.Yaml

/-- The tag of a node. Only the tags under the handle `!!` say something about a scalar. -/
inductive Tag where
  | core (name : String)
  | other
deriving DecidableEq

inductive Token where
  | versionDirective
  | tagDirective
  | documentStart
  | documentEnd
  | blockSequenceStart
  | blockMappingStart
  | blockEnd
  | blockEntry
  | flowSequenceStart
  | flowSequenceEnd
  | flowMappingStart
  | flowMappingEnd
  | flowEntry
  | key
  | value
  | alias (name : String)
  | anchor (name : String)
  | tag (t : Tag)
  | scalar (text : String) (plain : Bool)
deriving DecidableEq

end Gatehouse.Yaml
