import LiveC.Text.Numeral
import LiveC.Text.Printable
/-!
# Escaped texts

The form in which a message quotes a text that may hold anything: between double quotes, with
backslash, double quote and the usual control characters escaped, and every other character that
would not show as itself written as its code point.
-/

namespace LiveC.Text

/-- A code point in hexadecimal, in braces. -/
def codePoint (c : Char) : List Char :=
  ['\\', 'u', '\x7b'] ++ fillDigits 16 6 c.toNat [] ++ ['\x7d']

/-- A character inside an escaped text. -/
def escapeChar (c : Char) : List Char :=
  if c == '\x00' then ['\\', '0']
  else if c == '\t' then ['\\', 't']
  else if c == '\r' then ['\\', 'r']
  else if c == '\n' then ['\\', 'n']
  else if c == '\\' then ['\\', '\\']
  else if c == '"' then ['\\', '"']
  else if 0x20 ≤ c.toNat && c.toNat ≤ 0x7E then [c]
  else if isExtending c || !isPrintable c then codePoint c
  else [c]

/-- A text between quotes, escaped. -/
def escaped (s : String) : String :=
  String.ofList ('"' :: (s.toList.flatMap escapeChar ++ ['"']))

end LiveC.Text
