import Gatehouse.Text.Digits
import Gatehouse.Yaml.PlainScalar
/-!
# Block scalars

A block scalar is indented text under a header. The header says whether lines are folded, how
deep the text is indented if that is not to be found out from its first line, and what becomes
of the line breaks at the end.
-/

namespace Gatehouse.Yaml

/-- What becomes of the line breaks at the end: all go, one stays, or all stay. -/
inductive Chomping where
  | strip
  | clip
  | keep
deriving DecidableEq

/-- What the header says. An indentation of zero is to be found out. -/
structure BlockHeader where
  chomping : Chomping := .clip
  indentation : Nat := 0

def chomping? : Char → Option Chomping
  | '+' => some .keep
  | '-' => some .strip
  | _ => none

/-- An indentation indicator: a digit other than zero. -/
def indentation? (c : Char) : Except Malformed (Option Nat) :=
  if Text.isDigit c then
    if c = '0' then .error .badBlockHeader else .ok (Text.digitValue? 10 c)
  else .ok none

/-- Reads the two indicators, in either order. -/
def readIndicators (cs : List Char) (place : Place) :
    Except Malformed (BlockHeader × List Char × Place) := do
  match cs with
  | [] => return ({}, cs, place)
  | c :: rest =>
    match chomping? c with
    | some chomping =>
      match rest with
      | d :: ds =>
        match ← indentation? d with
        | some n => return (⟨chomping, n⟩, ds, (place.after c).after d)
        | none => return (⟨chomping, 0⟩, rest, place.after c)
      | [] => return (⟨chomping, 0⟩, rest, place.after c)
    | none =>
      match ← indentation? c with
      | none => return ({}, cs, place)
      | some n =>
        match rest with
        | d :: ds =>
          match chomping? d with
          | some chomping => return (⟨chomping, n⟩, ds, (place.after c).after d)
          | none => return (⟨.clip, n⟩, rest, place.after c)
        | [] => return (⟨.clip, n⟩, rest, place.after c)

/-- Blank lines passed over: the text after them, the deepest column reached, and how many line
breaks there were. -/
structure BlankLines where
  rest : List Char
  place : Place
  deepest : Nat
  breaks : Nat

/-- Passes over indentation and line breaks. With an indentation of zero every space counts as
indentation. -/
def readBlankLines (indent deepest breaks : Nat) :
    List Char → Place → Except Malformed BlankLines
  | [], place => .ok ⟨[], place, Nat.max deepest place.column, breaks⟩
  | c :: cs, place =>
    let inIndentation := indent = 0 || place.column < indent
    if c = ' ' && inIndentation then readBlankLines indent deepest breaks cs (place.after c)
    else
      let deepest := Nat.max deepest place.column
      if c = '\t' && inIndentation then .error .tabInIndentation
      else if isBreak c then
        match cs with
        | [] => .ok ⟨[], place.after c, Nat.max deepest (place.after c).column, breaks + 1⟩
        | d :: ds =>
          if c = '\r' ∧ d = '\n' then
            readBlankLines indent deepest (breaks + 1) ds ((place.after c).after d)
          else readBlankLines indent deepest (breaks + 1) (d :: ds) (place.after c)
      else .ok ⟨c :: cs, place, deepest, breaks⟩

/-- What has been read of a block scalar. -/
structure BlockText where
  /-- the last character first -/
  text : List Char := []
  /-- the last line ended in a break -/
  broken : Bool := false
  /-- the last line started with a blank -/
  blankStart : Bool := false
  /-- breaks of the blank lines since -/
  breaks : Nat := 0

/-- The text with the breaks since the last line put in front of a line. -/
def BlockText.joined (literal : Bool) (b : BlockText) (blankStart : Bool) : List Char :=
  let first :=
    if b.broken then
      if !literal && !b.blankStart && !blankStart then (if b.breaks = 0 then [' '] else [])
      else ['\n']
    else []
  List.replicate b.breaks '\n' ++ first ++ b.text

/-- The whole text, with the breaks at its end treated as the header says. -/
def BlockText.chomped (b : BlockText) (chomping : Chomping) : String :=
  let last := if chomping != .strip && b.broken then ['\n'] else []
  let blank := if chomping = .keep then List.replicate b.breaks '\n' else []
  String.ofList (blank ++ last ++ b.text).reverse

/-- Reads the lines that are indented by exactly `indent`; every line takes at least one
character, so the length of the text is fuel enough. -/
def readBlockLines (literal : Bool) (indent : Nat) :
    Nat → BlockText → List Char → Place → Except Malformed (BlockText × List Char × Place)
  | 0, b, cs, place => .ok (b, cs, place)
  | fuel + 1, b, cs, place =>
    match cs with
    | [] => .ok (b, cs, place)
    | c :: _ =>
      if place.column != indent then .ok (b, cs, place)
      else
        let (line, rest, place) := span (fun c => !isBreak c) cs place
        let text := line.reverse ++ b.joined literal (isSpace c)
        let b : BlockText := { text, blankStart := isSpace c }
        if rest.isEmpty then .ok (b, rest, place)
        else
          let (rest, place) := skipBreak rest place
          match readBlankLines indent 0 0 rest place with
          | .error e => .error e
          | .ok blank =>
            readBlockLines literal indent fuel { b with broken := true, breaks := blank.breaks }
              blank.rest blank.place

/-- Reads a block scalar from after its first indicator. `indent` is the column of the
collection around it, or -1. -/
def readBlock (literal : Bool) (indent : Int) (cs : List Char) (place : Place) :
    Except Malformed ReadScalar := do
  let (header, rest, place) ← readIndicators cs place
  let (rest, place) := skipSpacesAndComment rest place
  if !atBreak rest then throw .badBlockHeader
  let (rest, place) := skipBreak rest place
  let column :=
    if header.indentation = 0 then 0
    else if 0 ≤ indent then (indent + header.indentation).toNat
    else header.indentation
  let blank ← readBlankLines column 0 0 rest place
  let column :=
    if column = 0 then Nat.max blank.deepest (Nat.max (indent + 1).toNat 1) else column
  let (b, rest, place) ←
    readBlockLines literal column (blank.rest.length + 1) { breaks := blank.breaks } blank.rest
      blank.place
  return ⟨b.chomped header.chomping, rest, place, true⟩

end Gatehouse.Yaml
