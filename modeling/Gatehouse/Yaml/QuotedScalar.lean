import Gatehouse.Text.Digits
import Gatehouse.Yaml.PlainScalar
/-!
# Quoted scalars

In single quotes only the quote itself is special: written twice, it stands for one. In double
quotes a backslash starts an escape.
-/

namespace Gatehouse.Yaml

/-- The character that a one-letter escape stands for. -/
def escapedChar? : Char → Option Char
  | '0' => some '\x00'
  | 'a' => some '\x07'
  | 'b' => some '\x08'
  | 't' => some '\t'
  | '\t' => some '\t'
  | 'n' => some '\n'
  | 'v' => some '\x0b'
  | 'f' => some '\x0c'
  | 'r' => some '\r'
  | 'e' => some '\x1b'
  | ' ' => some ' '
  | '\x22' => some '\x22'
  | '\x27' => some '\x27'
  | '\\' => some '\\'
  | 'N' => some '\u0085'
  | '_' => some '\u00a0'
  | 'L' => some '\u2028'
  | 'P' => some '\u2029'
  | _ => none

/-- How many hexadecimal digits an escape takes. -/
def escapeLength? : Char → Option Nat
  | 'x' => some 2
  | 'u' => some 4
  | 'U' => some 8
  | _ => none

/-- The character with a number, if there is one. -/
def charOfCode? (n : Nat) : Option Char := if n.isValidChar then some (Char.ofNat n) else none

/-- Reads on in double quotes. `code` holds the number of digits that an escape still takes and
the value of those it had. -/
def readDouble (text : List Char) (gap : Gap) (code : Option (Nat × Nat)) :
    List Char → Place → Except Malformed ReadScalar
  | [], _ => .error (if code.isSome then .badEscape else .unterminatedQuote)
  | c :: cs, place =>
    match code with
    | some (count, value) =>
      match Text.digitValue? 16 c with
      | none => .error .badEscape
      | some d =>
        if count ≤ 1 then
          match charOfCode? (value * 16 + d) with
          | some ch => readDouble (ch :: text) gap none cs (place.after c)
          | none => .error .badEscape
        else readDouble text gap (some (count - 1, value * 16 + d)) cs (place.after c)
    | none =>
      if isSpace c then readDouble text (gap.blank c) none cs (place.after c)
      else if isBreak c then
        if c = '\r' ∧ cs.head? = some '\n' then readDouble text gap none cs (place.after c)
        else readDouble text gap.lineBreak none cs (place.after c)
      else if atDocumentMark place (c :: cs) then .error .markerInQuote
      else
        let text := gap.fill ++ text
        if c = '\x22' then .ok ⟨String.ofList text.reverse, cs, place.after c, false⟩
        else if c = '\\' then
          match cs with
          | [] => .error .badEscape
          | d :: ds =>
            let after := (place.after c).after d
            if isBreak d then
              match ds with
              | e :: es =>
                if d = '\r' ∧ e = '\n' then
                  readDouble text .afterEscape none es (after.after e)
                else readDouble text .afterEscape none (e :: es) after
              | [] => .error .unterminatedQuote
            else
              match escapedChar? d, escapeLength? d with
              | some ch, _ => readDouble (ch :: text) {} none ds after
              | none, some count => readDouble text {} (some (count, 0)) ds after
              | none, none => .error .badEscape
        else readDouble (c :: text) {} none cs (place.after c)
termination_by cs => cs.length

def readSingle (text : List Char) (gap : Gap) :
    List Char → Place → Except Malformed ReadScalar
  | [], _ => .error .unterminatedQuote
  | c :: cs, place =>
    if isSpace c then readSingle text (gap.blank c) cs (place.after c)
    else if isBreak c then
      if c = '\r' ∧ cs.head? = some '\n' then readSingle text gap cs (place.after c)
      else readSingle text gap.lineBreak cs (place.after c)
    else if atDocumentMark place (c :: cs) then .error .markerInQuote
    else
      let text := gap.fill ++ text
      if c = '\x27' then
        match cs with
        | '\x27' :: ds =>
          readSingle ('\x27' :: text) {} ds ((place.after '\x27').after '\x27')
        | _ => .ok ⟨String.ofList text.reverse, cs, place.after c, false⟩
      else readSingle (c :: text) {} cs (place.after c)

end Gatehouse.Yaml
