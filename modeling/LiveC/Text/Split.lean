/-!
# Splitting texts

Searching and cutting, on `List Char`: at the first occurrence of a pattern (`splitOnce?`), at the
last occurrence of a character (`splitLast?`), at every occurrence of a character (`splitAll`),
behind a fixed beginning (`stripStart?`), and into lines (`lines`).
-/

namespace LiveC.Text

/-- `splitOnce?` with the text already passed, in reverse. -/
def splitOnceFrom (pattern : List Char) (passed : List Char) :
    List Char → Option (List Char × List Char)
  | [] => if pattern.isEmpty then some (passed.reverse, []) else none
  | c :: r =>
    if pattern.isPrefixOf (c :: r) then some (passed.reverse, (c :: r).drop pattern.length)
    else splitOnceFrom pattern (c :: passed) r

/-- The texts before and after the first occurrence of a pattern. -/
def splitOnce? (pattern s : List Char) : Option (List Char × List Char) :=
  splitOnceFrom pattern [] s

/-- Whether a pattern occurs in a text. -/
def occursIn (pattern s : List Char) : Bool := (splitOnce? pattern s).isSome

/-- The texts before and after the last occurrence of a character. -/
def splitLast? (mark : Char) (s : List Char) : Option (List Char × List Char) :=
  match s.reverse.span (· != mark) with
  | (after, _ :: before) => some (before.reverse, after.reverse)
  | (_, []) => none

/-- The pieces between the occurrences of a character, or of any other mark; one more than there are
occurrences. -/
def splitAll {α : Type} [BEq α] (mark : α) (s : List α) : List (List α) :=
  s.foldr
    (fun c pieces =>
      if c == mark then [] :: pieces
      else match pieces with
        | [] => [[c]]
        | p :: ps => (c :: p) :: ps)
    [[]]

/-- What follows a fixed beginning. -/
def stripStart? (start s : List Char) : Option (List Char) :=
  if start.isPrefixOf s then some (s.drop start.length) else none

/-- What precedes a fixed ending. -/
def stripEnd? (ending s : List Char) : Option (List Char) :=
  if ending.isSuffixOf s then some (s.take (s.length - ending.length)) else none

/-- Without the carriage return of a line that ended in one before its line feed. -/
def withoutReturn (s : List Char) : List Char := (stripEnd? ['\r'] s).getD s

/-- The lines of a text split at its line feeds: every piece but the last ended in a line feed, and
a last piece that is empty is no line. -/
def linesOfPieces : List (List Char) → List (List Char)
  | [] => []
  | [last] => if last.isEmpty then [] else [last]
  | p :: q :: ps => withoutReturn p :: linesOfPieces (q :: ps)

/-- The lines of a text. A line ends in a line feed or a carriage return and a line feed; the last
one may end with the text. -/
def lines (s : List Char) : List (List Char) := linesOfPieces (splitAll '\n' s)

/-- The lines of a string. -/
def linesOf (s : String) : List String := (lines s.toList).map String.ofList

/-- Whether a string occurs in another. -/
def contains (s pattern : String) : Bool := occursIn pattern.toList s.toList

/-- Whether a string starts with another. -/
def startsWith (s start : String) : Bool := start.toList.isPrefixOf s.toList

/-- Whether a string ends with another. -/
def endsWith (s ending : String) : Bool := ending.toList.isSuffixOf s.toList

end LiveC.Text
