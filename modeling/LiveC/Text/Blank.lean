/-!
# Blank characters and trimming

A character is blank when Unicode gives it the property `White_Space`; `isBlank` is that table.
`trimStart`, `trimEnd` and `trim` drop blanks from the ends of a text, `trimBy` drops any class of
characters from both ends. All work on `List Char`; `trimmed`, `trimmedEnd` and `isBlankString` are
the same on `String`.
-/

namespace LiveC.Text

/-- The Unicode property `White_Space`, as ranges of code points. -/
def blankRanges : List (Nat × Nat) :=
  [(0x09, 0x0D), (0x20, 0x20), (0x85, 0x85), (0xA0, 0xA0), (0x1680, 0x1680), (0x2000, 0x200A),
    (0x2028, 0x2029), (0x202F, 0x202F), (0x205F, 0x205F), (0x3000, 0x3000)]

/-- A blank character. -/
def isBlank (c : Char) : Bool :=
  blankRanges.any fun r => r.1 ≤ c.toNat && c.toNat ≤ r.2

/-- Drop the characters of a class from the end. -/
def dropEndWhile (p : Char → Bool) (s : List Char) : List Char :=
  (s.reverse.dropWhile p).reverse

/-- Drop the characters of a class from both ends. -/
def trimBy (p : Char → Bool) (s : List Char) : List Char :=
  dropEndWhile p (s.dropWhile p)

/-- Drop the blanks at the start. -/
def trimStart (s : List Char) : List Char := s.dropWhile isBlank

/-- Drop the blanks at the end. -/
def trimEnd (s : List Char) : List Char := dropEndWhile isBlank s

/-- Drop the blanks at both ends. -/
def trim (s : List Char) : List Char := trimBy isBlank s

/-- A text of blanks only, the empty one included. -/
def isBlankText (s : List Char) : Bool := s.all isBlank

/-- A function on characters as a function on strings. -/
def onString (f : List Char → List Char) (s : String) : String := String.ofList (f s.toList)

/-- The string without the blanks at both ends. -/
def trimmed (s : String) : String := onString trim s

/-- The string without the blanks at its end. -/
def trimmedEnd (s : String) : String := onString trimEnd s

/-- A string of blanks only. -/
def isBlankString (s : String) : Bool := isBlankText s.toList

/-- The quotation marks that compilers put around names. -/
def isQuote (c : Char) : Bool := c == '\'' || c == '"' || c == '\x60'

end LiveC.Text
