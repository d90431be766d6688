/-!
# Malformed documents

Why a text cannot be read as documents of nodes.
-/

namespace Gatehouse.Yaml

/-- What is wrong with a text. -/
inductive Malformed where
  | unexpectedCharacter (c : Char)
  | badDirective
  | badTag
  | badAnchor
  | unknownAnchor (name : String)
  | unterminatedQuote
  | markerInQuote
  | badEscape
  | badBlockHeader
  | tabInIndentation
  | entryNotAllowed
  | keyNotAllowed
  | valueNotAllowed
  | keyWithoutValue
  | nestedTooDeep
  | expectedNode
  | expectedEntry
  | expectedKey
  | expectedSeparator
  | expectedDocument
deriving DecidableEq

end Gatehouse.Yaml
