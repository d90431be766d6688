import Gatehouse.Yaml.Gap
import Gatehouse.Yaml.Malformed
import Gatehouse.Yaml.Place
/-!
# Plain scalars

A scalar without quotes ends before a colon that is set off, before a comment, at a mark of a
flow collection inside one, and, in block context, at the first line that is not indented.
-/

namespace Gatehouse.Yaml

/-- A scalar that has been read, and where the text goes on. -/
structure ReadScalar where
  text : String
  rest : List Char
  place : Place
  /-- the scalar was followed by a line break -/
  brokenAfter : Bool := false

/-- A character that ends a plain scalar wherever it stands. -/
def endsPlain (inFlow : Bool) (c : Char) (after : List Char) : Bool :=
  (c = ':' && (atSpace after || (inFlow && (after.head?.map isFlowMark).getD false))) ||
    (inFlow && isFlowMark c)

/-- The first character of a word after a gap that does not belong to the scalar any more. -/
def endsPlainAfterGap (inFlow : Bool) (indent : Int) (place : Place) (cs : List Char) : Bool :=
  (!inFlow && decide ((place.column : Int) < indent)) || atDocumentMark place cs ||
    cs.head? = some '#'

/-- Reads on in a plain scalar. `indent` is the least column of its further lines, and `text`
holds what has been read, the last character first. -/
def readPlain (inFlow : Bool) (indent : Int) (text : List Char) (gap : Gap) :
    List Char → Place → Except Malformed ReadScalar
  | [], place => .ok ⟨String.ofList text.reverse, [], place, gap.broken⟩
  | c :: cs, place =>
    if isSpace c then
      if gap.broken ∧ c = '\t' ∧ (place.column : Int) < indent then .error .tabInIndentation
      else readPlain inFlow indent text (gap.blank c) cs (place.after c)
    else if isBreak c then
      -- of a carriage return and a line feed, the line feed counts
      if c = '\r' ∧ cs.head? = some '\n' then
        readPlain inFlow indent text gap cs (place.after c)
      else readPlain inFlow indent text gap.lineBreak cs (place.after c)
    else if (gap.isOpen && endsPlainAfterGap inFlow indent place (c :: cs)) ||
        endsPlain inFlow c cs then
      .ok ⟨String.ofList text.reverse, c :: cs, place, gap.broken⟩
    else readPlain inFlow indent (c :: (gap.fill ++ text)) {} cs (place.after c)

end Gatehouse.Yaml
