import Gatehouse.Text.Digits
import Gatehouse.Yaml.Malformed
import Gatehouse.Yaml.Place
import Gatehouse.Yaml.Token
/-!
# Tags and directives

A tag is a handle and a suffix, or a whole name in angle brackets. A directive stands on a line
of its own; its version or handle has to be well formed, but what it says is not used.
-/

namespace Gatehouse.Yaml

/-- The characters of a tag's suffix, apart from escapes. -/
def isTagChar (c : Char) : Bool :=
  isWord c || ";/?:@&=+$,.!~*\x27()[]".toList.contains c

/-- The number of octets in a character, by its first. -/
def octetCount? (first : Nat) : Option Nat :=
  if first < 0x80 then some 1
  else if first / 32 = 6 then some 2
  else if first / 16 = 14 then some 3
  else if first / 8 = 30 then some 4
  else none

/-- One escaped octet: a percent sign and two hexadecimal digits. -/
def escapedOctet? : List Char → Option (Nat × List Char)
  | '%' :: a :: b :: cs =>
    match Text.digitValue? 16 a, Text.digitValue? 16 b with
    | some x, some y => some (x * 16 + y, cs)
    | _, _ => none
  | _ => none

/-- The octets that follow the first; `code` collects them as they are. -/
def escapedRest? : Nat → Nat → List Char → Option (Nat × List Char)
  | 0, code, cs => some (code, cs)
  | count + 1, code, cs =>
    match escapedOctet? cs with
    | some (octet, rest) =>
      if octet / 64 = 2 then escapedRest? count (code * 256 + octet) rest else none
    | none => none

/-- An escaped character, by the collected value of its octets. -/
def escapedTagChar? (cs : List Char) : Option (Char × List Char) := do
  let (first, rest) ← escapedOctet? cs
  let count ← octetCount? first
  let (code, rest) ← escapedRest? (count - 1) first rest
  if code.isValidChar then return (Char.ofNat code, rest) else none

/-- Reads characters of a suffix; an escape takes at least three, so the length of the text is
fuel enough. -/
def readTagChars :
    Nat → List Char → Place → Except Malformed (List Char × List Char × Place)
  | 0, cs, place => .ok ([], cs, place)
  | fuel + 1, cs, place =>
    match cs with
    | [] => .ok ([], [], place)
    | '%' :: _ =>
      match escapedTagChar? cs with
      | none => .error .badTag
      | some (c, rest) =>
        match readTagChars fuel rest (place.afterAll (cs.take (cs.length - rest.length))) with
        | .ok (text, rest, place) => .ok (c :: text, rest, place)
        | .error e => .error e
    | c :: rest =>
      if isTagChar c then
        match readTagChars fuel rest (place.after c) with
        | .ok (text, rest, place) => .ok (c :: text, rest, place)
        | .error e => .error e
      else .ok ([], c :: rest, place)

/-- Reads a suffix after `head` characters of it that have been read as part of a handle. There
has to be something in the two. -/
def readSuffix (head : List Char) (cs : List Char) (place : Place) :
    Except Malformed (List Char × List Char × Place) := do
  let (text, rest, place) ← readTagChars (cs.length + 1) cs place
  if head.isEmpty && rest.length = cs.length then throw .badTag
  return (head.drop 1 ++ text, rest, place)

/-- Reads a handle: an exclamation mark, a word, and perhaps a second exclamation mark. In a
directive only the bare mark may go without the second. -/
def readHandle (inDirective : Bool) (cs : List Char) (place : Place) :
    Except Malformed (List Char × List Char × Place) := do
  match cs with
  | '!' :: rest =>
    let (word, rest, place) := span isWord rest (place.after '!')
    match rest with
    | '!' :: more => return ('!' :: word ++ ['!'], more, place.after '!')
    | _ =>
      if inDirective && !word.isEmpty then throw .badTag
      return ('!' :: word, rest, place)
  | _ => throw .badTag

/-- Reads a tag from its exclamation mark. -/
def readTag (cs : List Char) (place : Place) : Except Malformed (Tag × List Char × Place) := do
  let (tag, rest, place) ←
    match cs with
    | '!' :: '<' :: rest => do
      let (_, rest, place) ← readSuffix [] rest (place.afterAll ['!', '<'])
      match rest with
      | '>' :: rest => pure (Tag.other, rest, place.after '>')
      | _ => throw .badTag
    | _ => do
      let (handle, rest, place) ← readHandle false cs place
      if 2 ≤ handle.length && handle.getLast? = some '!' then
        let (suffix, rest, place) ← readSuffix [] rest place
        pure (if handle = ['!', '!'] then Tag.core (String.ofList suffix) else Tag.other, rest,
          place)
      else
        let (_, rest, place) ← readSuffix handle rest place
        pure (Tag.other, rest, place)
  if !atSpace rest then throw .badTag
  return (tag, rest, place)

/-- Reads one of the numbers of a version: up to nine digits. -/
def readVersionNumber (cs : List Char) (place : Place) : Except Malformed (List Char × Place) := do
  let (digits, rest, place) := span Text.isDigit cs place
  if digits.isEmpty || 9 < digits.length then throw .badDirective
  return (rest, place)

/-- Reads the value of a directive by its name. -/
def readDirectiveValue (name : List Char) (cs : List Char) (place : Place) :
    Except Malformed (Token × List Char × Place) := do
  let (rest, place) := skip isSpace cs place
  if name = "YAML".toList then
    let (rest, place) ← readVersionNumber rest place
    match rest with
    | '.' :: rest =>
      let (rest, place) ← readVersionNumber rest (place.after '.')
      return (.versionDirective, rest, place)
    | _ => throw .badDirective
  else if name = "TAG".toList then
    let (_, rest, place) ← readHandle true rest place
    let (rest, place) := skip isSpace rest place
    let (_, rest, place) ← readSuffix [] rest place
    if !atSpace rest then throw .badDirective
    return (.tagDirective, rest, place)
  else
    let (rest, place) := skip (fun c => !isBreak c) rest place
    return (.tagDirective, rest, place)

/-- Reads a directive from its percent sign to the end of its line. -/
def readDirective (cs : List Char) (place : Place) :
    Except Malformed (Token × List Char × Place) := do
  let (name, rest, place) := span isWord (cs.drop 1) (place.after '%')
  if name.isEmpty || !atSpace rest then throw .badDirective
  let (token, rest, place) ← readDirectiveValue name rest place
  let (rest, place) := skipSpacesAndComment rest place
  if !atBreak rest then throw .badDirective
  let (rest, place) := skipBreak rest place
  return (token, rest, place)

end Gatehouse.Yaml
