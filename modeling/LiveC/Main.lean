import LiveC.Command.Program
import LiveC.Compiler.Scripted
import LiveC.Files.Usual
import LiveC.Library.HostImage
/-!
# The program

`main` runs `Program.run` on the arguments, the environment, the standard input and the files below
the current directory, prints what it prints and writes the files that it writes. The compiler is
the scripted one, found under the usual name of the compiler library.
-/

namespace LiveC.Host

/-- The environment variables that matter. -/
def variableNames : List String :=
  [Config.traceVariable, Config.includeVariable, Config.libraryVariable, Config.hostVariable,
    Config.compilerVariable, Config.directoryVariable, Config.foreignVariable, Log.levelVariable,
    Log.styleVariable, Terminal.forceVariable, Terminal.plainVariable, Loader.searchVariable]

/-- Where the compiler libraries are. -/
def compilerDirectory : String := "/usr/lib/livec"

/-- The loader, which finds a compiler library without a path. -/
def loader (lookup : String → Option String) : Loader :=
  { Loader.host with
    directories := Loader.directoriesOf ((lookup Loader.searchVariable).getD "")
    system := Loader.host.system ++ [⟨"libtcc.so", compilerImage .release [], none⟩] }

/-- A time of the file system, in nanoseconds. -/
def nanoseconds (t : IO.FS.SystemTime) : Int := t.sec * 1000000000 + t.nsec.toNat

/-- The environment variables that are set. -/
def environment : IO (List (String × String)) :=
  variableNames.filterMapM fun name => do
    return (← IO.getEnv name).map fun value => (name, value)

/-- The files below the current directory. The clock stands later than every change of them. -/
def snapshot : IO FileTree := do
  let root ← IO.currentDir
  let mut tree := FileTree.usual 0 compilerDirectory
  let mut directories : List (String × Int) := []
  for path in ← root.walkDir do
    let name := String.ofList (path.toString.toList.drop (root.toString.length + 1))
    let changed := nanoseconds (← path.metadata).modified
    if ← path.isDir then
      tree := tree.makeDirectory name
      directories := (name, changed) :: directories
    else
      let bytes ← IO.FS.readBinFile path
      tree := (tree.writeAll name bytes none).touch name changed
    tree := { tree with now := max tree.now (changed + 1) }
  return directories.foldl (fun tree d => tree.touchDirectory d.1 d.2) tree

/-- Write the files that have become others. -/
def writeBack (before after : FileTree) : IO Unit :=
  after.listing.forM fun name => do
    match after.bytes? name with
    | some bytes =>
      if before.bytes? name != some bytes then IO.FS.writeBinFile name bytes
    | none => pure ()

/-- The bytes of a stream to its end. -/
partial def readAll (stream : IO.FS.Stream) (read : List UInt8) : IO (List UInt8) := do
  let bytes ← stream.read 65536
  if bytes.isEmpty then return read else readAll stream (read ++ bytes.toList)

/-- The program on some arguments. -/
def run (args : List String) : IO UInt32 := do
  let settings ← environment
  let lookup := fun name => settings.lookup name
  let files ← snapshot
  let input ← if Program.readsInput args then readAll (← IO.getStdin) [] else pure []
  let colors := Terminal.asksForColors lookup
  let world := World.start (Scripted.Library.start []) files (loader lookup) colors
  let (status, world) := Program.run args lookup input world
  writeBack files world.files
  IO.print world.output
  IO.eprint world.errors
  return UInt32.ofNat (Program.exitByte status)

end LiveC.Host

/-- The entry of the program. -/
def main (args : List String) : IO UInt32 := LiveC.Host.run args
