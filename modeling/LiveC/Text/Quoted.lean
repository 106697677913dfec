/-!
# Quoted names

A string literal of C names a file in a `#line` directive. `encode` writes one: backslash, double
quote and line feed are escaped, all else stands for itself. `decode` reads one back: the outer
quotes are dropped, `\n` is a line feed, and a backslash before any other character stands for that
character.
-/

namespace LiveC.Text.Quoted

/-- A character inside a literal. -/
def encodeChar (c : Char) : List Char :=
  if c == '\\' then ['\\', '\\']
  else if c == '"' then ['\\', '"']
  else if c == '\n' then ['\\', 'n']
  else [c]

/-- A text as a literal, quotes included. -/
def encode (s : List Char) : List Char := '"' :: (s.flatMap encodeChar ++ ['"'])

/-- What the inside of a literal stands for; a backslash at its very end stands for itself. -/
def decodeBody : List Char → List Char
  | [] => []
  | '\\' :: c :: r => (if c == 'n' then '\n' else c) :: decodeBody r
  | c :: r => c :: decodeBody r

/-- The text between two quotes, or the text itself when it is not quoted. -/
def unquoted (s : List Char) : List Char :=
  match s with
  | '"' :: r => if r.getLast? == some '"' then r.dropLast else s
  | s => s

/-- The text that a name in a directive stands for. -/
def decode (s : List Char) : List Char := decodeBody (unquoted s)

/-- A string as a literal. -/
def literal (s : String) : String := String.ofList (encode s.toList)

end LiveC.Text.Quoted
