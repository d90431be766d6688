/-!
# Places in a text

Where a character stands matters in YAML: columns are indentation, and a key has to stand on one
line with its colon. A line feed starts a new line; a carriage return is a line break too, but
one that stands alone does not set the column back.
-/

namespace Gatehouse.Yaml

structure Place where
  line : Nat := 0
  column : Nat := 0
  index : Nat := 0
deriving DecidableEq

def Place.after (p : Place) (c : Char) : Place :=
  if c = '\n' then ⟨p.line + 1, 0, p.index + 1⟩ else ⟨p.line, p.column + 1, p.index + 1⟩

def Place.afterAll (p : Place) (cs : List Char) : Place := cs.foldl Place.after p

/-! ## Classes of characters -/

def isBreak (c : Char) : Bool := c = '\n' || c = '\r'

def isSpace (c : Char) : Bool := c = ' ' || c = '\t'

/-- Characters of names of anchors, handles and directives. -/
def isWord (c : Char) : Bool := c.isAlphanum || c = '_' || c = '-'

def isFlowMark (c : Char) : Bool := c = ',' || c = '[' || c = ']' || c = '{' || c = '}'

/-- The text is at its end, a line break or a space. -/
def atSpace : List Char → Bool
  | [] => true
  | c :: _ => isSpace c || isBreak c

/-- The text is at its end or a line break. -/
def atBreak : List Char → Bool
  | [] => true
  | c :: _ => isBreak c

/-- The text starts with the given mark, set off from what follows. -/
def atMark (mark : List Char) (cs : List Char) : Bool :=
  mark.isPrefixOf cs && atSpace (cs.drop mark.length)

/-- At the start of a line, a mark that starts or ends a document. -/
def atDocumentMark (p : Place) (cs : List Char) : Bool :=
  p.column = 0 && (atMark ['-', '-', '-'] cs || atMark ['.', '.', '.'] cs)

/-! ## Moving on -/

/-- Passes over the characters of a class: those passed, the rest, and its position. -/
def span (p : Char → Bool) : List Char → Place → List Char × List Char × Place
  | [], place => ([], [], place)
  | c :: cs, place =>
    if p c then
      let (taken, rest, after) := span p cs (place.after c)
      (c :: taken, rest, after)
    else ([], c :: cs, place)

/-- Passes over the characters of a class. -/
def skip (p : Char → Bool) (cs : List Char) (place : Place) : List Char × Place :=
  (span p cs place).2

/-- Passes over spaces, and a comment if one follows. -/
def skipSpacesAndComment (cs : List Char) (place : Place) : List Char × Place :=
  let (rest, place) := skip isSpace cs place
  match rest with
  | '#' :: _ => skip (fun c => !isBreak c) rest place
  | _ => (rest, place)

/-- Passes over one line break, if the text is at one. -/
def skipBreak : List Char → Place → List Char × Place
  | '\r' :: '\n' :: cs, place => (cs, (place.after '\r').after '\n')
  | c :: cs, place => if isBreak c then (cs, place.after c) else (c :: cs, place)
  | [], place => ([], place)

end Gatehouse.Yaml
