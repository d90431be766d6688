import Gatehouse.Yaml.BlockScalar
import Gatehouse.Yaml.QuotedScalar
import Gatehouse.Yaml.TagText
/-!
# From text to tokens

The lexer keeps the columns of the block collections that are open and, for each level of flow
collections, the place of a node that may turn out to be a key. Such a place is emitted as a
*slot*; when a colon follows on the same line the slot becomes a key token, with the start of a
block mapping before it if this is the first key at its column, and otherwise it stands for
nothing.
-/

namespace Gatehouse.Yaml

/-- A token, or a slot for a key token. -/
inductive Piece where
  | token (t : Token)
  | slot (number : Nat)

/-- A node that may turn out to be a key. -/
structure KeyCandidate where
  slot : Nat
  place : Place
  /-- without a colon after it the text is malformed -/
  required : Bool

/-- The lexer between two tokens. -/
structure Lexer where
  rest : List Char
  place : Place := {}
  /-- the last piece first -/
  emitted : List Piece := []
  slots : Nat := 0
  /-- slots that became keys, and whether they open a block mapping -/
  keySlots : List (Nat × Bool) := []
  /-- the column of the innermost block collection, or -1 -/
  indent : Int := -1
  /-- the columns of the block collections around it, innermost first -/
  outer : List Int := []
  /-- the candidates of the levels of flow collections, innermost first; the last level is block
  context -/
  candidates : List (Option KeyCandidate) := [none]
  /-- a key may start here -/
  keyAllowed : Bool := true
  /-- where a colon may stand directly after a quoted key -/
  adjacentValueAt : Nat := 0
  finished : Bool := false

namespace Lexer

/-- The deepest nesting of flow collections. -/
def deepestFlow : Nat := 255

def flowLevel (l : Lexer) : Nat := l.candidates.length - 1

def inFlow (l : Lexer) : Bool := 0 < l.flowLevel

def emit (l : Lexer) (t : Token) : Lexer := { l with emitted := .token t :: l.emitted }

/-- Moves on to a later place. -/
def goTo (l : Lexer) (at_ : List Char × Place) : Lexer :=
  { l with rest := at_.1, place := at_.2 }

def pass (l : Lexer) (count : Nat) : Lexer :=
  { l with rest := l.rest.drop count, place := l.place.afterAll (l.rest.take count) }

/-! ## Indentation -/

/-- Closes the block collections that stand deeper than a column. -/
def closeDeeper (column : Int) : List Int → Lexer → Lexer
  | [], l => l
  | around :: outer, l =>
    if column < l.indent then
      closeDeeper column outer { l.emit .blockEnd with indent := around, outer := outer }
    else l

/-- Closes the block collections that stand deeper than a column; inside flow collections
indentation means nothing. -/
def unindent (l : Lexer) (column : Int) : Lexer :=
  if l.inFlow then l else closeDeeper column l.outer l

/-- Opens a block collection at a column if it is deeper than the innermost one. -/
def indentTo (l : Lexer) (column : Nat) (opening : Token) : Lexer :=
  if !l.inFlow && l.indent < (column : Int) then
    { l.emit opening with indent := column, outer := l.indent :: l.outer }
  else l

/-! ## Keys -/

/-- Gives up the candidate of the innermost level. -/
def dropCandidate (l : Lexer) : Except Malformed Lexer :=
  match l.candidates with
  | some k :: levels =>
    if k.required then .error .keyWithoutValue
    else .ok { l with candidates := none :: levels }
  | _ => .ok l

/-- Takes the node that starts here as the candidate of the innermost level, if a key may start
here. -/
def markCandidate (l : Lexer) : Except Malformed Lexer :=
  if l.keyAllowed then do
    let l ← l.dropCandidate
    let candidate : KeyCandidate :=
      { slot := l.slots
        place := l.place
        required := l.inFlow && l.indent == (l.place.column : Int) }
    return { l with
      emitted := .slot l.slots :: l.emitted
      slots := l.slots + 1
      candidates := some candidate :: l.candidates.drop 1 }
  else .ok l

/-- A candidate is out of reach on a later line, or 1024 characters on. -/
def isStale (place : Place) (k : KeyCandidate) : Bool :=
  k.place.line < place.line || k.place.index + 1024 < place.index

/-- Gives up the candidates that are out of reach. -/
def dropStale (l : Lexer) : Except Malformed Lexer :=
  if l.candidates.any fun level =>
      match level with
      | some k => isStale l.place k && k.required
      | none => false then
    .error .keyWithoutValue
  else
    .ok { l with candidates := l.candidates.map fun level => level.filter (!isStale l.place ·) }

/-! ## Blanks and comments -/

/-- Passes over blanks, comments and line breaks. In block context a key may start on a new
line; a tab may not stand where one may start. Says whether a key may start at the end. -/
def skipFiller (inFlow keyAllowed comment : Bool) :
    List Char → Place → List Char × Place × Bool
  | [], place => ([], place, keyAllowed)
  | c :: cs, place =>
    if isBreak c then skipFiller inFlow (keyAllowed || !inFlow) false cs (place.after c)
    else if comment then skipFiller inFlow keyAllowed true cs (place.after c)
    else if c = ' ' then skipFiller inFlow keyAllowed false cs (place.after c)
    else if c = '\t' && (inFlow || !keyAllowed) then
      skipFiller inFlow keyAllowed false cs (place.after c)
    else if c = '#' then skipFiller inFlow keyAllowed true cs (place.after c)
    else (c :: cs, place, keyAllowed)

/-! ## Tokens -/

/-- The end of the text closes everything. -/
def finish (l : Lexer) : Except Malformed Lexer := do
  let l ← (l.unindent (-1)).dropCandidate
  return { l with finished := true }

def directive (l : Lexer) : Except Malformed Lexer := do
  let l ← (l.unindent (-1)).dropCandidate
  let (token, at_) ← readDirective l.rest l.place
  return ({ l with keyAllowed := false }.emit token).goTo at_

def documentMark (l : Lexer) (token : Token) : Except Malformed Lexer := do
  let l ← (l.unindent (-1)).dropCandidate
  return ({ l with keyAllowed := false }.emit token).pass 3

def flowStart (l : Lexer) (token : Token) : Except Malformed Lexer := do
  let l ← l.markCandidate
  if deepestFlow ≤ l.flowLevel then throw .nestedTooDeep
  return ({ l with candidates := none :: l.candidates, keyAllowed := true }.emit token).pass 1

def flowEnd (l : Lexer) (token : Token) : Except Malformed Lexer := do
  let l ← l.dropCandidate
  let candidates := if l.inFlow then l.candidates.drop 1 else l.candidates
  return ({ l with candidates, keyAllowed := false }.emit token).pass 1

def flowEntry (l : Lexer) : Except Malformed Lexer := do
  let l ← l.dropCandidate
  return ({ l with keyAllowed := true }.emit .flowEntry).pass 1

def blockEntry (l : Lexer) : Except Malformed Lexer := do
  if l.inFlow || !l.keyAllowed then throw .entryNotAllowed
  let l ← (l.indentTo l.place.column .blockSequenceStart).dropCandidate
  return ({ l with keyAllowed := true }.emit .blockEntry).pass 1

/-- A question mark announces a key. -/
def key (l : Lexer) : Except Malformed Lexer := do
  if !l.inFlow && !l.keyAllowed then throw .keyNotAllowed
  let l ← (l.indentTo l.place.column .blockMappingStart).dropCandidate
  return ({ l with keyAllowed := !l.inFlow }.emit .key).pass 1

/-- A colon: the candidate of this level was a key, or a key was announced. -/
def value (l : Lexer) : Except Malformed Lexer := do
  match l.candidates with
  | some k :: levels =>
    let opens := !l.inFlow && l.indent < (k.place.column : Int)
    let l := if opens then { l with indent := k.place.column, outer := l.indent :: l.outer } else l
    let l := { l with
      keySlots := (k.slot, opens) :: l.keySlots
      candidates := none :: levels
      keyAllowed := false }
    return (l.emit .value).pass 1
  | _ =>
    if !l.inFlow && !l.keyAllowed then throw .valueNotAllowed
    let l := l.indentTo l.place.column .blockMappingStart
    return ({ l with keyAllowed := !l.inFlow }.emit .value).pass 1

/-- An alias or an anchor: a mark and a name, and then a blank or a mark that cannot belong to
the name. -/
def named (l : Lexer) (token : String → Token) : Except Malformed Lexer := do
  let l ← l.markCandidate
  let (name, rest, place) := span isWord (l.rest.drop 1) (l.place.afterAll (l.rest.take 1))
  let ends := atSpace rest || (rest.head?.map "?:,]\x7d%@\x60".toList.contains).getD false
  if name.isEmpty || !ends then throw .badAnchor
  return ({ l with keyAllowed := false }.emit (token (String.ofList name))).goTo (rest, place)

def tag (l : Lexer) : Except Malformed Lexer := do
  let l ← l.markCandidate
  let (tag, at_) ← readTag l.rest l.place
  return ({ l with keyAllowed := false }.emit (.tag tag)).goTo at_

def blockScalar (l : Lexer) (literal : Bool) : Except Malformed Lexer := do
  let l ← l.markCandidate
  let scalar ← readBlock literal l.indent (l.rest.drop 1) (l.place.afterAll (l.rest.take 1))
  return ({ l with keyAllowed := true }.emit (.scalar scalar.text false)).goTo
    (scalar.rest, scalar.place)

def quotedScalar (l : Lexer) (single : Bool) : Except Malformed Lexer := do
  let l ← l.markCandidate
  let rest := l.rest.drop 1
  let place := l.place.afterAll (l.rest.take 1)
  let scalar ← if single then readSingle [] {} rest place else readDouble [] {} none rest place
  return ({ l with keyAllowed := false, adjacentValueAt := scalar.place.index }.emit
    (.scalar scalar.text false)).goTo (scalar.rest, scalar.place)

def plainScalar (l : Lexer) : Except Malformed Lexer := do
  let l ← l.markCandidate
  let scalar ← readPlain l.inFlow (l.indent + 1) [] {} l.rest l.place
  return ({ l with keyAllowed := scalar.brokenAfter }.emit (.scalar scalar.text true)).goTo
    (scalar.rest, scalar.place)

/-- The colon at the start of the text stands for a value. -/
def startsValue (l : Lexer) (after : List Char) : Bool :=
  atSpace after ||
    (l.inFlow && ((after.head?.map isFlowMark).getD false || l.place.index == l.adjacentValueAt))

/-- The token that starts with a character. -/
def tokenAt (l : Lexer) (c : Char) (after : List Char) : Except Malformed Lexer :=
  if c = '[' then l.flowStart .flowSequenceStart
  else if c = '{' then l.flowStart .flowMappingStart
  else if c = ']' then l.flowEnd .flowSequenceEnd
  else if c = '}' then l.flowEnd .flowMappingEnd
  else if c = ',' then l.flowEntry
  else if c = '-' && atSpace after then l.blockEntry
  else if c = '?' && atSpace after then l.key
  else if c = ':' && l.startsValue after then l.value
  else if c = '*' then l.named .alias
  else if c = '&' then l.named .anchor
  else if c = '!' then l.tag
  else if c = '|' && !l.inFlow then l.blockScalar true
  else if c = '>' && !l.inFlow then l.blockScalar false
  else if c = '\x27' then l.quotedScalar true
  else if c = '\x22' then l.quotedScalar false
  else if c = '%' || c = '@' || c = '\x60' then .error (.unexpectedCharacter c)
  else l.plainScalar

def step (l : Lexer) : Except Malformed Lexer := do
  let (rest, place, keyAllowed) := skipFiller l.inFlow l.keyAllowed false l.rest l.place
  let l ← { l with rest, place, keyAllowed }.dropStale
  let l := l.unindent l.place.column
  match l.rest with
  | [] => l.finish
  | c :: after =>
    if l.place.column = 0 && c = '%' then l.directive
    else if l.place.column = 0 && atMark ['-', '-', '-'] l.rest then l.documentMark .documentStart
    else if l.place.column = 0 && atMark ['.', '.', '.'] l.rest then l.documentMark .documentEnd
    else l.tokenAt c after

/-- Runs to the end of the text. Every token but the last takes a character, so one more than the
length of the text is fuel enough. -/
def run : Nat → Lexer → Except Malformed Lexer
  | 0, l => .ok l
  | fuel + 1, l =>
    if l.finished then .ok l
    else
      match l.step with
      | .ok next => run fuel next
      | .error e => .error e

/-- Whether a slot became a key, and if so whether it opens a block mapping. -/
def keyAt (l : Lexer) (slot : Nat) : Option Bool :=
  (l.keySlots.find? fun (number, _) => number == slot).map (·.2)

/-- The pieces, of which the last comes first, with the keys put into their slots, in front of
some tokens. -/
def settle (l : Lexer) : List Piece → List Token → List Token
  | [], tokens => tokens
  | .token t :: pieces, tokens => settle l pieces (t :: tokens)
  | .slot n :: pieces, tokens =>
    settle l pieces
      (match l.keyAt n with
        | some true => .blockMappingStart :: .key :: tokens
        | some false => .key :: tokens
        | none => tokens)

end Lexer

/-- The tokens of a text, which ends at its first null character. -/
def Token.ofText (text : String) : Except Malformed (List Token) := do
  let cs := text.toList.takeWhile (· != '\x00')
  let l ← Lexer.run (cs.length + 2) { rest := cs }
  return l.settle l.emitted []

end Gatehouse.Yaml
