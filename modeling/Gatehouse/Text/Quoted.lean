import Gatehouse.Text.Digits
import Gatehouse.Text.Glyphless
/-!
# Quoted text

Messages quote text that may hold anything. Quotes, backslashes and characters that have no
glyph of their own are written as escapes, so that the quoted text is one visible line.
-/

namespace Gatehouse.Text

/-- A character as it stands between quotes. -/
def escape (c : Char) : List Char :=
  if c = '\x22' then ['\\', '\x22']
  else if c = '\\' then ['\\', '\\']
  else if c = '\n' then ['\\', 'n']
  else if c = '\r' then ['\\', 'r']
  else if c = '\t' then ['\\', 't']
  else if c = '\x00' then ['\\', '0']
  else if isGlyphless c then "\\u\x7b".toList ++ digits 16 c.toNat ++ ['\x7d']
  else [c]

def quoted (s : String) : String :=
  String.ofList ('\x22' :: s.toList.flatMap escape ++ ['\x22'])

end Gatehouse.Text
