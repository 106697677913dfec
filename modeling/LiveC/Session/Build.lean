import LiveC.Session.Setup
/-!
# Building code in memory

`build` compiles and links a unit in a session of its own. When the linker misses names, they are
looked up among the builtins and the opened libraries; if all of them are found, the unit is built
once more in a fresh session that knows their addresses.
-/

namespace LiveC

/-- What the linker says before a name that it misses. -/
def missingMark : String := "undefined symbol"

/-- The name that a message of the linker misses. -/
def missingName? (message : String) : Option String := do
  let (_, rest) ← Text.splitOnce? missingMark.toList message.toList
  let name := Text.trimBy Text.isQuote (Text.trim rest)
  if name.isEmpty then none else some (String.ofList name)

/-- The names that the messages of the linker miss. -/
def missingNames (messages : List String) : List String := messages.filterMap missingName?

/-- The names that a failure to link misses. -/
def Failure.missingNames : Failure → List String
  | .compilation _ messages => LiveC.missingNames messages
  | _ => []

namespace Engine

variable {σ : Type} [Compiler σ]

/-- The addresses of some names, if every one of them is found. -/
def resolveAll : List String → Attempt (World σ) (Option (List (String × Address)))
  | [] => pure (some [])
  | name :: names => do
    match ← resolve name with
    | none => return none
    | some address =>
      let rest ← resolveAll names
      return rest.map fun rest => (name, address) :: rest

/-- Put a unit into a session: it is prepared, further names are made known in it, and `load` puts
in the code. -/
def populate (names : List (String × Address)) (load : InSession σ Unit) : InSession σ Unit := do
  InSession.prepare
  .each names fun n => InSession.addSymbol n.1 n.2
  load

/-- The first attempt at a unit: the failure to link it is a value. -/
def linkOnce (load : InSession σ Unit) : InSession σ (Except Failure Unit) := do
  populate [] load
  InSession.relocate.capture

/-- The second attempt at a unit, with further names. -/
def linkWith (names : List (String × Address)) (load : InSession σ Unit) : InSession σ Unit := do
  populate names load
  InSession.relocate

/-- What follows a failure to link: if all the names that it misses are found, a second attempt with
their addresses. -/
def retry (unitName : String) (load : InSession σ Unit) (e : Failure) :
    Attempt (World σ) Session := do
  match e.missingNames with
  | [] => .fail e
  | missing =>
    match ← resolveAll missing with
    | none => .fail e
    | some names =>
      let ((), session) ← Session.opened .memory unitName (linkWith names load)
      return session

/-- Build a unit from what `load` puts into its session. -/
def build (unitName : String) (load : InSession σ Unit) : Attempt (World σ) Session := do
  let (linked, session) ← Session.opened .memory unitName (linkOnce load)
  match linked with
  | .ok () => return session
  | .error e =>
    session.delete
    retry unitName load e

end Engine

end LiveC
