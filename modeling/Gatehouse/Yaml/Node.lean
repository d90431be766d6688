import Gatehouse.Yaml.Token
/-!
# Nodes

A document means a tree of scalars, sequences and mappings. An alias stands for a node that is
written elsewhere, and counts as that node wherever a value is read; only as a key it has no name
to report.
-/

namespace Gatehouse.Yaml

/-- A scalar as it is written. -/
structure Scalar where
  text : String
  /-- written without quotes and not as a block -/
  plain : Bool := true
  tag : Option Tag := none
deriving DecidableEq

/-- A tree of scalars, sequences and mappings. -/
inductive Node where
  | scalar (s : Scalar)
  | sequence (items : List Node)
  | mapping (entries : List (Node × Node))
  /-- a node that is written elsewhere; a tree of many aliases is large, so what one stands for is
  worked out only when it is asked for -/
  | alias (target : Unit → Node)

/-- What a node is, once aliases are followed. -/
inductive Content where
  | scalar (s : Scalar)
  | sequence (items : List Node)
  | mapping (entries : List (Node × Node))

namespace Node

def content : Node → Content
  | .scalar s => .scalar s
  | .sequence items => .sequence items
  | .mapping entries => .mapping entries
  | .alias target => (target ()).content

end Node

/-- How deep collections may be nested in a document. What a collection beyond that holds is of
no account. -/
def deepestNesting : Nat := 128

end Gatehouse.Yaml
