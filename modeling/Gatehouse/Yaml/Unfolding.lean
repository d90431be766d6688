import Gatehouse.Yaml.Outline
/-!
# Unfolding aliases

What a document means is its outline with every alias leading to what it stands for, over and
over. That ends also where a node contains itself, for collections are nested only to a depth.
-/

namespace Gatehouse.Yaml

namespace Outline

/-- The node of what is written, given the nodes of what it holds. Without those a collection is
left empty. Anchors never stand in front of aliases, so no alias is met here. -/
def written (inside : Option (Outline → Node)) : Outline → Node
  | .scalar s => .scalar s
  | .alias _ => .sequence []
  | .sequence items =>
    match inside with
    | none => .sequence []
    | some node => .sequence (items.map node)
  | .mapping entries =>
    match inside with
    | none => .mapping []
    | some node => .mapping (entries.map fun entry => (node entry.1, node entry.2))

end Outline

namespace Document

/-- The node of an outline, given the nodes of what it holds. -/
def nodeWith (doc : Document) (inside : Option (Outline → Node)) : Outline → Node
  | .alias anchor =>
    .alias fun _ => ((doc.anchors.lookup anchor).getD Outline.absent).written inside
  | outline => outline.written inside

/-- The node of an outline, whose collections may be nested to a depth. -/
def nodeOf (doc : Document) : Nat → Outline → Node
  | 0, outline => doc.nodeWith none outline
  | depth + 1, outline => doc.nodeWith (some (doc.nodeOf depth)) outline

def unfold (doc : Document) : Node := doc.nodeOf deepestNesting doc.root

end Document

end Gatehouse.Yaml
