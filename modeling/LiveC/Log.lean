import LiveC.Terminal
import LiveC.Text.Blank
import LiveC.Text.Split
/-!
# The log

Warnings that do not stop anything. Each names the part of the engine that it comes from. A `Log`
says which of them are written: the environment can set a level for all parts or for some, and a
text that a line must hold. `LogSpec.ofText` reads such a setting; what is wrong in it is passed
over, with a fault to report.
-/

namespace LiveC

/-- A warning in the log, and the part of the engine that it comes from. -/
structure Warning where
  source : String
  text : String
  deriving DecidableEq, Repr

/-- How much of the log is written. -/
inductive LogLevel
  | off
  | error
  | warn
  | info
  | debug
  | trace
  deriving DecidableEq, Repr

namespace LogLevel

/-- The levels. -/
def all : List LogLevel := [off, error, warn, info, debug, trace]

/-- The name of a level. -/
def word : LogLevel → String
  | off => "off"
  | error => "error"
  | warn => "warn"
  | info => "info"
  | debug => "debug"
  | trace => "trace"

/-- The level of a name, in capitals or not. -/
def ofName? (name : String) : Option LogLevel :=
  all.find? fun level => level.word.toList == name.toList.map Char.toLower

/-- Whether warnings are written. -/
def includesWarnings : LogLevel → Bool
  | off | error => false
  | warn | info | debug | trace => true

end LogLevel

/-- The level of some parts of the engine. -/
structure LogRule where
  /-- What the names of the parts start with; the rule is for all parts if nothing is given. -/
  source : Option String
  level : LogLevel
  deriving DecidableEq, Repr

namespace LogRule

/-- Whether a rule is for a part of the engine. -/
def covers (r : LogRule) (source : String) : Bool := Text.startsWith source (r.source.getD "")

/-- How much a rule says about the parts that it is for: the length of the name in it. -/
def precision (r : LogRule) : Nat := (r.source.getD "").utf8ByteSize

/-- Some rules with another one, in the place of an earlier one for the same parts. -/
def insert (r : LogRule) (rules : List LogRule) : List LogRule :=
  if rules.any (·.source == r.source) then
    rules.map fun other => if other.source == r.source then r else other
  else rules ++ [r]

/-- The rule of some that says most about a part of the engine, the last of several. -/
def best? (rules : List LogRule) (source : String) : Option LogRule :=
  (rules.filter (·.covers source)).foldl
    (fun best r => if best.all (·.precision ≤ r.precision) then some r else best) none

/-- The rule that a piece of a setting spells: a level for all parts, a part, or a part and its
level behind an equals sign. A part without a level is logged in full. -/
def ofPiece (piece : List Char) : Except String LogRule :=
  match Text.splitAll '=' piece with
  | [one] =>
    let name := String.ofList one
    match LogLevel.ofName? name with
    | some level => .ok ⟨none, level⟩
    | none => .ok ⟨some name, .trace⟩
  | [one, two] =>
    let word := Text.trimmed (String.ofList two)
    if word.isEmpty then .ok ⟨some (String.ofList one), .trace⟩
    else match LogLevel.ofName? word with
      | some level => .ok ⟨some (String.ofList one), level⟩
      | none => .error word
  | _ => .error (String.ofList piece)

end LogRule

/-- A setting of the log. -/
structure LogSpec where
  rules : List LogRule
  /-- What a line must hold to be written. -/
  pattern : Option String
  /-- What is wrong with the setting. -/
  faults : List String
  deriving DecidableEq, Repr

namespace LogSpec

/-- The setting with one more piece. -/
def addPiece (s : LogSpec) (piece : List Char) : LogSpec :=
  if piece.isEmpty then s
  else match LogRule.ofPiece piece with
    | .ok r => { s with rules := s.rules ++ [r] }
    | .error word => { s with faults := s.faults ++ ["invalid logging spec '" ++ word ++ "'"] }

/-- The setting with some pieces between commas. -/
def addPieces (s : LogSpec) (pieces : List Char) : LogSpec :=
  ((Text.splitAll ',' pieces).map Text.trim).foldl addPiece s

/-- The setting that a text spells: pieces between commas, and behind a slash what a line must
hold. -/
def ofText (spec : String) : LogSpec :=
  match Text.splitAll '/' spec.toList with
  | [pieces] => addPieces ⟨[], none, []⟩ pieces
  | [pieces, pattern] => addPieces ⟨[], some (String.ofList pattern), []⟩ pieces
  | _ => ⟨[], none, ["invalid logging spec '" ++ spec ++ "' (too many '/'s)"]⟩

/-- The setting if there is none in the environment: warnings of all parts. -/
def default : LogSpec := ⟨[⟨none, .warn⟩], none, []⟩

/-- The setting that a detailed log asks for: everything that the engine has to say. -/
def detailed : LogSpec :=
  ⟨["ccrun", "ccrun_compiler", "ccrun_runtime"].map fun name => ⟨some name, .trace⟩, none, []⟩

end LogSpec

/-- A log: what is written to it, and how. -/
structure Log where
  rules : List LogRule
  /-- What a line must hold to be written. -/
  pattern : Option String
  /-- Whether lines are in colours. -/
  colors : Bool
  deriving DecidableEq, Repr

namespace Log

/-- The variable that sets the levels. -/
def levelVariable : String := "RUST_LOG"

/-- The variable that decides about colours, whatever the others say. -/
def styleVariable : String := "RUST_LOG_STYLE"

/-- A log after a setting: its rules are added, and what it says about the text of a line takes the
place of what was said before. -/
def adjust (l : Log) (s : LogSpec) : Log :=
  { l with rules := s.rules.foldl (fun rules r => r.insert rules) l.rules, pattern := s.pattern }

/-- Whether the environment wants the log in colours. -/
def colorsOf (lookup : String → Option String) : Bool :=
  match lookup styleVariable with
  | some "always" => true
  | some "never" => false
  | _ => Terminal.wantsColors lookup

/-- The log that the environment asks for, and what is wrong with its setting. -/
def ofLookup (detailed : Bool) (lookup : String → Option String) : Log × List String :=
  let spec := ((lookup levelVariable).map LogSpec.ofText).getD .default
  let log := adjust ⟨[], none, colorsOf lookup⟩ spec
  (if detailed then log.adjust .detailed else log, spec.faults)

/-- What is said about a fault in the setting of the log. -/
def faultLine (fault : String) : String := "warning: " ++ fault ++ ", ignoring it\n"

/-- Whether a warning is written. A log without a rule for it holds errors at most. -/
def takes (l : Log) (w : Warning) : Bool :=
  ((LogRule.best? l.rules w.source).map (·.level.includesWarnings)).getD false &&
    l.pattern.all (Text.contains w.text)

/-- The text of a log line: every line after the first is set in. -/
def indented (text : String) : String :=
  String.ofList (text.toList.flatMap fun c =>
    if c == '\n' then ['\n', ' ', ' ', ' ', ' '] else [c])

/-- A text in one of the terminal's colours for log lines. -/
def tinted (code text : String) : String := "\x1b[" ++ code ++ "m" ++ text ++ "\x1b[0m"

/-- The log line of a warning. -/
def line (l : Log) (w : Warning) : String :=
  Terminal.rendered l.colors
    (tinted "90" "[" ++ tinted "33" "WARN " ++ " " ++ w.source ++ tinted "90" "]" ++ " " ++
      indented w.text ++ "\n")

end Log

end LiveC
