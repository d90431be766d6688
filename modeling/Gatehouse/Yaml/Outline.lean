import Gatehouse.Yaml.Lexer
import Gatehouse.Yaml.Node
/-!
# Outlines

A document as it is written is an outline: nodes in which an alias stands for the anchor of its
name. An alias may stand inside the node that it names. A node that is left out, as after a
colon, is the plain scalar `~`.
-/

namespace Gatehouse.Yaml

/-- A node as it is written. -/
inductive Outline where
  | scalar (s : Scalar)
  | sequence (items : List Outline)
  | mapping (entries : List (Outline × Outline))
  /-- the node of the anchor with this number -/
  | alias (anchor : Nat)

namespace Outline

/-- The node that stands where none is written. -/
def absent : Outline := .scalar { text := "~" }

/-- The node that stands where only a tag or an anchor is written. -/
def bare (tag : Option Tag) : Outline := .scalar { text := "", tag }

end Outline

/-- A document as it is written, with the nodes of its anchors. -/
structure Document where
  root : Outline
  anchors : List (Nat × Outline) := []

/-! ## From tokens to outlines -/

/-- The tokens that are left, and the anchors met so far. Anchors are numbered as they come, and
a name stands for its latest anchor, also inside the node of that. -/
structure Composer where
  tokens : List Token
  names : List (String × Nat) := []
  nodes : List (Nat × Outline) := []
  anchors : Nat := 0

/-- Reading from a composer. -/
abbrev Compose := StateT Composer (Except Malformed)

namespace Compose

/-- The next token, which is left in place. -/
def peek : Compose (Option Token) := return (← get).tokens.head?

def advance : Compose Unit := modify fun c => { c with tokens := c.tokens.drop 1 }

/-- Gives a name to the node that comes next. -/
def register (name : String) : Compose Nat := do
  let c ← get
  set { c with names := (name, c.anchors) :: c.names, anchors := c.anchors + 1 }
  return c.anchors

/-- Stores the node of an anchor. -/
def store (anchor : Option Nat) (node : Outline) : Compose Outline := do
  match anchor with
  | some number => modify fun c => { c with nodes := (number, node) :: c.nodes }
  | none => pure ()
  return node

/-- The anchor that an alias names. -/
def resolve (name : String) : Compose Outline := do
  match (← get).names.lookup name with
  | some number => return .alias number
  | none => throw (.unknownAnchor name)

/-- Reads the properties in front of a node: a tag and an anchor, in either order. -/
def properties : Compose (Option Tag × Option Nat) := do
  match ← peek with
  | some (.anchor name) =>
    advance
    let anchor ← register name
    match ← peek with
    | some (.tag t) =>
      advance
      return (some t, some anchor)
    | _ => return (none, some anchor)
  | some (.tag t) =>
    advance
    match ← peek with
    | some (.anchor name) =>
      advance
      return (some t, some (← register name))
    | _ => return (some t, none)
  | _ => return (none, none)

/-- The next token cannot start a node that is left out in a block mapping. -/
def omitsBlockNode : Option Token → Bool
  | some .key | some .value | some .blockEnd => true
  | _ => false

mutual

/-- Reads a node. `block` allows block collections, and `indentless` a block sequence that
stands no deeper than the mapping around it. -/
def node (fuel : Nat) (block indentless : Bool) : Compose Outline := do
  match fuel with
  | 0 => throw .expectedNode
  | fuel + 1 =>
    match ← peek with
    | some (.alias name) =>
      advance
      resolve name
    | _ =>
      let (tag, anchor) ← properties
      match ← peek with
      | some (.scalar text plain) =>
        advance
        store anchor (.scalar { text, plain, tag })
      | some .flowSequenceStart =>
        advance
        store anchor (.sequence (← flowSequence fuel true))
      | some .flowMappingStart =>
        advance
        store anchor (.mapping (← flowMapping fuel true))
      | next =>
        if next = some .blockEntry ∧ indentless then
          store anchor (.sequence (← indentlessSequence fuel))
        else if next = some .blockSequenceStart ∧ block then
          advance
          store anchor (.sequence (← blockSequence fuel))
        else if next = some .blockMappingStart ∧ block then
          advance
          store anchor (.mapping (← blockMapping fuel))
        else if tag.isSome || anchor.isSome then store anchor (.bare tag)
        else throw .expectedNode

/-- Reads the entries of a block sequence, to its end. -/
def blockSequence (fuel : Nat) : Compose (List Outline) := do
  match fuel with
  | 0 => throw .expectedEntry
  | fuel + 1 =>
    match ← peek with
    | some .blockEnd =>
      advance
      return []
    | some .blockEntry =>
      advance
      let item ←
        match ← peek with
        | some .blockEntry | some .blockEnd => pure Outline.absent
        | _ => node fuel true false
      return item :: (← blockSequence fuel)
    | _ => throw .expectedEntry

/-- Reads the entries of a block sequence that has no end token of its own. -/
def indentlessSequence (fuel : Nat) : Compose (List Outline) := do
  match fuel with
  | 0 => throw .expectedEntry
  | fuel + 1 =>
    match ← peek with
    | some .blockEntry =>
      advance
      let next ← peek
      let item ←
        if next = some .blockEntry || omitsBlockNode next then pure Outline.absent
        else node fuel true false
      return item :: (← indentlessSequence fuel)
    | _ => return []

/-- Reads the entries of a block mapping, to its end. -/
def blockMapping (fuel : Nat) : Compose (List (Outline × Outline)) := do
  match fuel with
  | 0 => throw .expectedKey
  | fuel + 1 =>
    match ← peek with
    | some .blockEnd =>
      advance
      return []
    | some .key =>
      advance
      let key ← if omitsBlockNode (← peek) then pure Outline.absent else node fuel true true
      let value ← blockValue fuel
      return (key, value) :: (← blockMapping fuel)
    | some .value =>
      let value ← blockValue fuel
      return (.absent, value) :: (← blockMapping fuel)
    | _ => throw .expectedKey

/-- Reads the value of an entry in a block mapping. -/
def blockValue (fuel : Nat) : Compose Outline := do
  match fuel with
  | 0 => throw .expectedNode
  | fuel + 1 =>
    match ← peek with
    | some .value =>
      advance
      if omitsBlockNode (← peek) then return .absent else node fuel true true
    | _ => return .absent

/-- Reads the entries of a flow sequence, to its end. -/
def flowSequence (fuel : Nat) (first : Bool) : Compose (List Outline) := do
  match fuel with
  | 0 => throw .expectedSeparator
  | fuel + 1 =>
    match ← peek with
    | some .flowSequenceEnd =>
      advance
      return []
    | next =>
      if !first then
        if next = some .flowEntry then advance else throw .expectedSeparator
      match ← peek with
      | some .flowSequenceEnd =>
        advance
        return []
      | some .key =>
        advance
        let item ← flowPair fuel
        return item :: (← flowSequence fuel false)
      | _ =>
        let item ← node fuel false false
        return item :: (← flowSequence fuel false)

/-- Reads a mapping of one entry that stands in a flow sequence without braces. A token that
shows that the key is left out is passed over. -/
def flowPair (fuel : Nat) : Compose Outline := do
  match fuel with
  | 0 => throw .expectedNode
  | fuel + 1 =>
    let key ←
      match ← peek with
      | some .value | some .flowEntry | some .flowSequenceEnd =>
        advance
        pure Outline.absent
      | _ => node fuel false false
    match ← peek with
    | some .value =>
      advance
      match ← peek with
      | some .flowEntry | some .flowSequenceEnd => return .mapping [(key, .absent)]
      | _ => return .mapping [(key, ← node fuel false false)]
    | _ => return .mapping [(key, .absent)]

/-- Reads the entries of a flow mapping, to its end. -/
def flowMapping (fuel : Nat) (first : Bool) : Compose (List (Outline × Outline)) := do
  match fuel with
  | 0 => throw .expectedSeparator
  | fuel + 1 =>
    match ← peek with
    | some .flowMappingEnd =>
      advance
      return []
    | next =>
      if !first then
        if next = some .flowEntry then advance else throw .expectedSeparator
      match ← peek with
      | some .flowMappingEnd =>
        advance
        return []
      | some .key =>
        advance
        let key ←
          match ← peek with
          | some .value | some .flowEntry | some .flowMappingEnd => pure Outline.absent
          | _ => node fuel false false
        let value ← flowValue fuel
        return (key, value) :: (← flowMapping fuel false)
      | some .value =>
        let value ← flowValue fuel
        return (.absent, value) :: (← flowMapping fuel false)
      | _ =>
        let key ← node fuel false false
        return (key, .absent) :: (← flowMapping fuel false)

/-- Reads the value of an entry in a flow mapping. -/
def flowValue (fuel : Nat) : Compose Outline := do
  match fuel with
  | 0 => throw .expectedNode
  | fuel + 1 =>
    match ← peek with
    | some .value =>
      advance
      match ← peek with
      | some .flowEntry | some .flowMappingEnd => return .absent
      | _ => node fuel false false
    | _ => return .absent

end

/-! ## Documents -/

/-- Passes over tokens as long as they are of a kind. -/
def passWhile (p : Token → Bool) : Compose Unit :=
  modify fun c => { c with tokens := c.tokens.dropWhile p }

def isDirective : Token → Bool
  | .versionDirective | .tagDirective => true
  | _ => false

/-- Reads a document. The first of a text may start without its mark. Names do not reach from
one document into the next. -/
def document (fuel : Nat) (first : Bool) : Compose Outline := do
  modify fun c => { c with names := [] }
  let next ← peek
  let explicit := !first || next = some .documentStart || (next.map isDirective).getD false
  if explicit then
    passWhile isDirective
    if (← peek) ≠ some .documentStart then throw .expectedDocument
    advance
    match ← peek with
    | none | some .versionDirective | some .tagDirective | some .documentStart
    | some .documentEnd => return .absent
    | _ => node fuel true false
  else node fuel true false

/-- Reads documents to the end of the text. Every document takes a token, so their number is
fuel enough. -/
def documents (fuel : Nat) (first : Bool) : Compose (List Outline) := do
  match fuel with
  | 0 => return []
  | fuel' + 1 =>
    if !first then passWhile (· == .documentEnd)
    match ← peek with
    | none => return []
    | some _ =>
      let doc ← document fuel first
      if (← peek) = some .documentEnd then advance
      return doc :: (← documents fuel' false)

end Compose

/-- The documents of a text. A node takes a token or is a leaf of one that does, so a few times
their number is fuel enough. Anchors are numbered through all documents. -/
def documentsOf (text : String) : Except Malformed (List Document) := do
  let tokens ← Token.ofText text
  let (roots, c) ← (Compose.documents (4 * tokens.length + 8) true).run { tokens }
  return roots.map fun root => ⟨root, c.nodes⟩

end Gatehouse.Yaml
