import LiveC.Repl.Command
import LiveC.Repl.Session
/-!
# The shell

The shell reads lines, obeys the commands among them, and feeds every other line to an interactive
session. A line that is no text ends it, as the end of input does.
-/

namespace LiveC.Shell

variable {σ : Type}

/-- What the shell greets with. -/
def banner : String :=
  "ccrun 0.3.0 REPL - C interactive shell\nType C code, :help for commands, :quit to exit\n"

/-- What the shell prints before it reads a line. -/
def prompt : String := ">>> "

/-- What the shell says about a declaration. -/
def declaredNotice : String := "(added to global scope)\n"

/-- What the shell says after a reset. -/
def resetNotice : String := "REPL reset\n"

/-- What the shell says about a command that is none. -/
def unknownNotice (line : String) : String := "Unknown command: " ++ line ++ " (type :help)\n"

/-- What the shell ends with. -/
def farewell : String := "\nBye!\n"

/-- What the shell says about input that is no text. -/
def inputNotice : String := "input error: " ++ ReadFault.notText.message ++ "\n"

/-- The word that marks a crash. -/
def crashWord (colors : Bool) : String := (Style.strongIn .red).paint colors "crashed:"

/-- Write to standard output. -/
def print (text : String) : InRepl σ Unit := Repl.onWorld (.change fun w => w.print text)

/-- Write to standard error. -/
def printError (text : World σ → String) : InRepl σ Unit :=
  Repl.onWorld (.change fun w => w.printError (text w))

/-- A line of bytes as a text, if it is one. -/
def lineText? (bytes : List UInt8) : Option String := Text.textOf? ⟨bytes.toArray⟩

/-- The lines of some bytes: each ends in a line feed, save perhaps the last. -/
def inputLines (bytes : List UInt8) : List (List UInt8) :=
  let pieces := Text.splitAll 10 bytes
  if pieces.getLast? == some [] then pieces.dropLast else pieces

/-- A line without carriage returns at its end. -/
def withoutEnd (line : String) : String := Text.onString (Text.dropEndWhile (· == '\r')) line

variable [Compiler σ]

/-- Say what became of an input. -/
def tell : Except Failure EvalOutcome → InRepl σ Unit
  | .ok .empty => pure ()
  | .ok .declared => print declaredNotice
  | .ok (.executed (.exited _)) => pure ()
  | .ok (.executed (.crashed _ diagnostic)) =>
    printError fun w => crashWord w.colors ++ " " ++ diagnostic ++ " (statement discarded)\n"
  | .ok (.compileFailed _ text) => printError fun _ => text ++ "\n"
  | .error e => printError fun w => e.complaint w.colors w.files none

/-- Obey a command: whether the shell goes on. -/
def obey : ShellCommand → InRepl σ Bool
  | .quit => pure false
  | .help => do
    print shellHelp
    return true
  | .display => do
    let r ← Repl.current
    print r.code.display
    return true
  | .reset => do
    Repl.reset
    print resetNotice
    return true
  | .unknown line => do
    print (unknownNotice line)
    return true

/-- Handle a line: whether the shell goes on. It does not when the code has ended the process. -/
def handle (line : String) : InRepl σ Bool := do
  match ShellCommand.ofLine? line with
  | some command => obey command
  | none =>
    tell (← (Repl.eval line).capture)
    Repl.onWorld do
      let w ← .state
      return w.ended.isNone

/-- Read lines until the shell is to end. -/
def loop : List (List UInt8) → InRepl σ Unit
  | [] => print prompt
  | bytes :: lines => do
    print prompt
    match lineText? bytes with
    | none => printError fun _ => inputNotice
    | some line => if ← handle (withoutEnd line) then loop lines else pure ()

/-- Say farewell, unless the code has ended the process. -/
def close : InRepl σ Unit := do
  let (_, w) ← .state
  if w.ended.isNone then
    print farewell
    Repl.dropSession
  else pure ()

/-- The whole shell, for some input. -/
def shell (input : List UInt8) : InRepl σ Unit := do
  print banner
  loop (inputLines input)
  close

/-- Run the shell on a world. -/
def run (input : List UInt8) : Attempt (World σ) Unit := fun w =>
  let (r, (_, w)) := shell input (Repl.start, w)
  (r, w)

end LiveC.Shell
