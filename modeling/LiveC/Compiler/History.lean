import LiveC.World
/-!
# The history of a compiler

The calls of a compiler in brief. Names that every session offers are only counted, and so are
directories that every session searches left out: what remains tells one session from another.
-/

namespace LiveC

/-- An entry of a history. -/
inductive HistoryEntry
  /-- A state was asked for and refused. -/
  | refused
  /-- A state was made. -/
  | created (serial : Nat)
  /-- Some of the usual names were offered, one after the other. -/
  | offered (serial count : Nat)
  /-- A state was asked for something else. -/
  | asked (serial : Nat) (request : Request)
  deriving DecidableEq, Repr

namespace HistoryEntry

/-- The names that every session offers. -/
def usualNames : List String := builtins.names ++ offeredFunctions

/-- Whether a request is the same in every session, or has failed to offer a name. -/
def isUsual (platform : Platform) (failed : Bool) : Request → Bool
  | .addSystemIncludePath path => platform.includeCandidates.contains path
  | .addLibraryPath path => platform.libraryCandidates.contains path
  | .addSymbol _ _ => failed
  | _ => false

/-- Count one more name. -/
def countName (entries : Array HistoryEntry) (serial : Nat) : Array HistoryEntry :=
  match entries.back? with
  | some (offered last count) =>
    if last = serial then entries.pop.push (offered serial (count + 1))
    else entries.push (offered serial 1)
  | _ => entries.push (offered serial 1)

/-- A history with one more call. -/
def add (platform : Platform) (entries : Array HistoryEntry) : Call → Array HistoryEntry
  | .refused => entries.push refused
  | .created serial => entries.push (created serial)
  | .asked serial request failed =>
    if isUsual platform failed request then entries
    else match request with
      | .addSymbol name _ =>
        if usualNames.contains name then countName entries serial
        else entries.push (asked serial request)
      | request => entries.push (asked serial request)

end HistoryEntry

/-- The history of a world's compiler. -/
def World.history {σ : Type} (w : World σ) : Array HistoryEntry :=
  w.calls.foldl (HistoryEntry.add w.linkage.platform) #[]

end LiveC
