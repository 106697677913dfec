/-!
# Terminal output

A terminal takes some of the characters that are sent to it as controls: single ones, and whole
sequences that an escape character starts. `visible` is what is left of a text without them; line
feeds and the other blanks are part of the text, even inside a sequence. The environment says
whether a text is to keep its controls: `asksForColors` and `wantsColors` are the two readings of
its variables that are in use.
-/

namespace LiveC.Terminal

/-- What a terminal is in the middle of. -/
inductive Mode
  /-- Text. -/
  | text
  /-- A sequence of which there is only the escape character. -/
  | escape
  /-- A sequence with a mark behind its escape character. -/
  | marked
  /-- A control sequence, which starts with a bracket. -/
  | control
  /-- A command to the system, such as the one that sets a title. -/
  | title
  /-- A device control sequence of which there is only the start. -/
  | deviceStart
  /-- The numbers of a device control sequence. -/
  | deviceNumbers
  /-- The marks of a device control sequence. -/
  | deviceMarks
  /-- A text for a device, or a private one. -/
  | payload
  deriving DecidableEq, Repr

/-- Whether a character lies in a range of code points. -/
def within (first last : Nat) (c : Char) : Bool := first ≤ c.toNat && c.toNat ≤ last

/-- A mark inside a sequence. -/
def isMark (c : Char) : Bool := within 0x20 0x2F c

/-- A blank control: a tab, a line feed, a form feed or a carriage return. -/
def isBlankControl (c : Char) : Bool := c == '\t' || c == '\n' || c == '\x0c' || c == '\r'

/-- A character that belongs to a text. -/
def isText (c : Char) : Bool := isBlankControl c || (0x20 ≤ c.toNat && c != '\x7f')

/-- A character whose encoding holds the byte that ends a payload. -/
def endsPayload (c : Char) : Bool := (String.utf8EncodeChar c).contains 0x9C

namespace Mode

/-- Whether a character is shown. -/
def shows : Mode → Char → Bool
  | text, c => isText c
  | escape, c | marked, c | control, c => isBlankControl c
  | _, _ => false

/-- What the terminal is in the middle of after a character that it has not shown. -/
def next (m : Mode) (c : Char) : Mode :=
  if c == '\x18' || c == '\x1a' then text
  else if c == '\x1b' then escape
  else match m with
    | text => text
    | escape =>
      if isMark c then marked
      else if c == '[' then control
      else if c == ']' then title
      else if c == 'P' then deviceStart
      else if c == 'X' || c == '^' || c == '_' then payload
      else if within 0x30 0x7E c then text else escape
    | marked => if within 0x30 0x7E c then text else marked
    | control => if within 0x40 0x7E c then text else control
    | title => if c == '\x07' then text else title
    | deviceStart =>
      if isMark c then deviceMarks
      else if within 0x30 0x3F c then deviceNumbers
      else if within 0x40 0x7E c then payload else deviceStart
    | deviceNumbers =>
      if isMark c then deviceMarks
      else if within 0x3C 0x7E c then payload else deviceNumbers
    | deviceMarks => if within 0x30 0x7E c then payload else deviceMarks
    | payload => if endsPayload c then text else payload

/-- What the terminal is in the middle of after a character that it has shown: a sequence that a
blank interrupts is still open, and only a character beyond ASCII gives it up. -/
def afterShown (m : Mode) (c : Char) : Mode := if c.toNat < 0x80 then m else text

end Mode

/-- What is shown of a text in the middle of something. `showing` says that the last character was
shown; then all text is, up to the next control. -/
def visibleFrom : Mode → Bool → List Char → List Char
  | _, _, [] => []
  | m, showing, c :: r =>
    if m.shows c || (showing && isText c) then c :: visibleFrom (m.afterShown c) true r
    else visibleFrom (m.next c) false r

/-- A text without its controls. -/
def visible (s : String) : String := String.ofList (visibleFrom .text false s.toList)

/-- A text as it is written: in colours with its controls, else without. -/
def rendered (colors : Bool) (s : String) : String := if colors then s else visible s

/-- The variable that asks for colours even where no terminal is. -/
def forceVariable : String := "CLICOLOR_FORCE"

/-- The variable that forbids colours. -/
def plainVariable : String := "NO_COLOR"

/-- Whether the environment asks for colours in what the engine says: any value but zero does. -/
def asksForColors (lookup : String → Option String) : Bool :=
  ((lookup forceVariable).map (· != "0")).getD false

/-- Whether the environment asks for colours in the log and in what is said about the use of the
program: any value does but the empty one, unless colours are forbidden. -/
def wantsColors (lookup : String → Option String) : Bool :=
  ((lookup plainVariable).getD "").isEmpty && !((lookup forceVariable).getD "").isEmpty

end LiveC.Terminal
