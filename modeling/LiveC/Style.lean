/-!
# Terminal styles

Coloured text for a terminal. A styled text is wrapped in an opening sequence and a reset; a reset
inside the text is followed by the opening sequence again, so that the style lasts to the end.
`plain` removes every style sequence from a text.
-/

namespace LiveC

/-- The colours in use. -/
inductive Color
  | red
  | green
  | yellow
  | cyan
  deriving DecidableEq, Repr

/-- The code of a colour. -/
def Color.code : Color → String
  | .red => "31"
  | .green => "32"
  | .yellow => "33"
  | .cyan => "36"

/-- How a piece of text is to look. -/
structure Style where
  /-- Heavier strokes. -/
  bold : Bool
  /-- The colour of the text, if not the terminal's own. -/
  color : Option Color
  deriving DecidableEq, Repr

namespace Style

/-- Bold text in the terminal's own colour. -/
def strong : Style := ⟨true, none⟩

/-- Text in a colour. -/
def colored (c : Color) : Style := ⟨false, some c⟩

/-- Bold text in a colour. -/
def strongIn (c : Color) : Style := ⟨true, some c⟩

/-- The codes of a style, bold before the colour. -/
def codes (s : Style) : List String :=
  (if s.bold then ["1"] else []) ++ (s.color.map Color.code).toList

/-- The sequence that ends every style. -/
def reset : List Char := ['\x1b', '[', '0', 'm']

/-- The sequence that starts a style. -/
def opening (s : Style) : List Char :=
  ['\x1b', '['] ++ (String.intercalate ";" s.codes).toList ++ ['m']

/-- A text with the opening sequence repeated after every reset in it. -/
def reopened (start : List Char) : List Char → List Char
  | [] => []
  | '\x1b' :: '[' :: '0' :: 'm' :: r => reset ++ start ++ reopened start r
  | c :: r => c :: reopened start r

/-- A text between the opening sequence of a style and a reset, whatever the text does. -/
def around (s : Style) (text : String) : String :=
  String.ofList (s.opening ++ text.toList ++ reset)

/-- A text in a style; without colours the text itself. -/
def paint (s : Style) (colors : Bool) (text : String) : String :=
  if colors && !s.codes.isEmpty then
    String.ofList (s.opening ++ reopened s.opening text.toList ++ reset)
  else text

/-- A character inside a style sequence: a digit or a semicolon. -/
def isCode (c : Char) : Bool := c.isDigit || c == ';'

/-- What follows a style sequence whose escape character has been read. -/
def afterSequence? (s : List Char) : Option (List Char) :=
  match s with
  | '[' :: r =>
    match r.dropWhile isCode with
    | 'm' :: rest => some rest
    | _ => none
  | _ => none

/-- A text without its style sequences. -/
def plain : List Char → List Char
  | [] => []
  | c :: r =>
    if c == '\x1b' then
      match _h : afterSequence? r with
      | some rest => plain rest
      | none => c :: plain r
    else c :: plain r
termination_by s => s.length
decreasing_by
  · have hlen : rest.length < r.length + 1 := by
      unfold afterSequence? at _h
      split at _h
      · rename_i tail
        split at _h
        · rename_i more hd
          have hs := List.dropWhile_sublist (l := tail) isCode
          rw [hd] at hs
          have := hs.length_le
          simp only [List.length_cons, Option.some.injEq] at this _h ⊢
          subst _h
          omega
        · exact absurd _h (by simp)
      · exact absurd _h (by simp)
    simpa using hlen
  · simp
  · simp

end Style

end LiveC
