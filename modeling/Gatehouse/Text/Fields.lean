/-!
# Fields of a text

Splitting at separators and trimming blanks, over lists of characters.
-/

namespace Gatehouse.Text

/-- The pieces between occurrences of a separator; there is always at least one. -/
def fields (separator : Char) : List Char → List (List Char)
  | [] => [[]]
  | c :: cs =>
    if c = separator then [] :: fields separator cs
    else
      match fields separator cs with
      | field :: more => (c :: field) :: more
      | [] => [[c]]

/-- What stands before and after the first occurrence of a separator, if there is one. -/
def splitFirst (separator : Char) : List Char → Option (List Char × List Char)
  | [] => none
  | c :: cs =>
    if c = separator then some ([], cs)
    else (splitFirst separator cs).map fun (before, after) => (c :: before, after)

/-- What stands before and after the first place where a character comes twice in a row. -/
def splitDoubled (separator : Char) : List Char → Option (List Char × List Char)
  | [] => none
  | c :: cs =>
    match c == separator, cs with
    | true, d :: ds =>
      if d = separator then some ([], ds)
      else (splitDoubled separator cs).map fun (before, after) => (c :: before, after)
    | _, _ => (splitDoubled separator cs).map fun (before, after) => (c :: before, after)

def join (separator : List Char) : List (List Char) → List Char
  | [] => []
  | [piece] => piece
  | piece :: more => piece ++ separator ++ join separator more

/-- White space: the 25 characters with the Unicode property of that name. -/
def isBlank (c : Char) : Bool :=
  let n := c.toNat
  (9 ≤ n && n ≤ 13) || n = 0x20 || n = 0x85 || n = 0xA0 || n = 0x1680 ||
    (0x2000 ≤ n && n ≤ 0x200A) || n = 0x2028 || n = 0x2029 || n = 0x202F || n = 0x205F ||
    n = 0x3000

/-- A text without the white space at its two ends. -/
def trim (cs : List Char) : List Char :=
  ((cs.dropWhile isBlank).reverse.dropWhile isBlank).reverse

end Gatehouse.Text
