/-!
# Gaps in scalars

A scalar may run over several lines. What stands for the blanks and line breaks between two of
its words is decided when the next word is reached: blanks within a line stay, one line break
becomes a space, and of several breaks all but the first stay. In double quotes the first break
can be escaped, and then stands for nothing.
-/

namespace Gatehouse.Yaml

/-- The blanks and breaks passed since the last word. -/
structure Gap where
  /-- blanks before any break, the last one first -/
  blanks : List Char := []
  broken : Bool := false
  /-- the first break was escaped -/
  escaped : Bool := false
  /-- breaks after the first -/
  more : Nat := 0

namespace Gap

/-- One more blank; after a break blanks are indentation and do not count. -/
def blank (g : Gap) (c : Char) : Gap := if g.broken then g else { g with blanks := c :: g.blanks }

def lineBreak (g : Gap) : Gap :=
  if g.broken then { g with more := g.more + 1 } else { broken := true }

/-- The gap that an escaped line break opens. -/
def afterEscape : Gap := { broken := true, escaped := true }

/-- Something was passed. -/
def isOpen (g : Gap) : Bool := g.broken || !g.blanks.isEmpty

/-- What the gap stands for, the last character first. -/
def fill (g : Gap) : List Char :=
  if g.broken then
    if g.more = 0 then (if g.escaped then [] else [' ']) else List.replicate g.more '\n'
  else g.blanks

end Gap

end Gatehouse.Yaml
