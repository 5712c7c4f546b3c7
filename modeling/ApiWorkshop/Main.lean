import ApiWorkshop.CommandLine.Run
import Std.Time.DateTime.Timestamp

/-!
# The program

The program reads the files that its command line is about, runs the command
line on the tree that they make, and then changes the files so that they match
the tree that the run leaves behind.  It starts no other program, so a new
project becomes no repository and a warning says so.
-/

namespace ApiWorkshop

namespace Program

/-! ## Places -/

/-- The locations that a path passes in a directory, from its start to its
end. -/
def passed (here : Location) (path : Path) : List Location :=
  let steps := (FileTree.start here path ++ path.names.map LooseText.label).foldl
    (fun (place, done) name =>
      let next := if name = ".." then List.dropLast place else place ++ [name]
      (next, next :: done))
    (([], []) : Location × List Location)
  steps.2.reverse

def namedPaths (around : Surroundings) : Command → List Path
  | .new name path _ _ => [(Path.ofString path).join (Path.ofString name)]
  | .generate path _ _ => [Path.ofString path]
  | .check source => [Path.ofString (source.getD ".")]
  | .openapi source output => [Path.ofString (source.getD "."), Path.ofString output]
  | .translate _ _ _ source _ => [Path.ofString (source.getD ".")]
  | .help _ => [around.workingPath]

/-- The project that a command is about, and the directory of definitions that
it names. -/
def projectOf : Command → Option (Path × Option String)
  | .generate path apiDirectory _ => some (Path.ofString path, apiDirectory)
  | .check none | .openapi none _ | .translate _ _ _ none _ => some (Path.ofString ".", none)
  | _ => none

/-- The paths that the settings of a project name. -/
def settledPaths (around : Surroundings) (command : Command) (tree : FileTree) : List Path :=
  match projectOf command with
  | none => []
  | some (root, apiDirectory) =>
      match loadProject tree around.workingDirectory root with
      | .error _ => []
      | .ok stored =>
          let settings := stored.resolve around.environment apiDirectory none
          [root.join (Path.ofText settings.apiDirectory),
            root.join (Path.ofText settings.openapiOutput)]

/-- The command of a command line that can be read. -/
def commandOf? (words : List String) : Option Command :=
  match Front.read words with
  | .ok (.run _ name rest) => (Command.read name rest).toOption
  | _ => none

/-! ## Changes -/

/-- A change of the files. -/
inductive Change where
  | remove (location : Location) (wasFile : Bool)
  | make (location : Location)
  | write (location : Location) (content : Content)

/-- The removal of a node that a later tree does not have. -/
def removal? (later : FileTree) (entry : Location × Node) : Option Change :=
  if (later.at? entry.1).map Node.isFile = some entry.2.isFile then
    none
  else
    some (.remove entry.1 entry.2.isFile)

/-- The addition of a node that an earlier tree does not have. -/
def addition? (earlier : FileTree) (entry : Location × Node) : Option Change :=
  if earlier.at? entry.1 = some entry.2 then
    none
  else
    match entry.2 with
    | .directory => some (.make entry.1)
    | .file content => some (.write entry.1 content)

/-- The changes from one tree to another.  What is deeper is removed first. -/
def changes (earlier later : FileTree) : List Change :=
  let removed := earlier.mergeSort fun first second => second.1.length ≤ first.1.length
  removed.filterMap (removal? later) ++ later.filterMap (addition? earlier)

/-! ## Files -/

/-- The name of a location on the system. -/
def systemName (location : Location) : String :=
  "/" ++ String.intercalate "/" location

def contentOf (bytes : ByteArray) : Content :=
  match String.fromUTF8? bytes with
  | some text => .text text.toList
  | none => .bytes bytes.toList

def bytesOf : Content → ByteArray
  | .text text => (String.ofList text).toUTF8
  | .bytes bytes => ByteArray.mk bytes.toArray

/-- Adds what stands at a location to a tree.  What cannot be read is left
out. -/
def readNode (location : Location) (tree : FileTree) : IO FileTree := do
  if (tree.at? location).isSome then
    return tree
  let path := (← IO.currentDir) / systemName location
  match ← path.metadata.toBaseIO with
  | .error _ => return tree
  | .ok found =>
      if found.type == .dir then
        return Entries.put location .directory tree
      else
        match ← (IO.FS.readBinFile path).toBaseIO with
        | .error _ => return tree
        | .ok bytes => return Entries.put location (.file (contentOf bytes)) tree

/-- Adds a directory to a tree, with everything below it down to a depth.  The
insides of a repository are not looked at. -/
def readBelow : Nat → Location → FileTree → IO FileTree
  | 0, _, tree => return tree
  | depth + 1, location, tree => do
      let tree ← readNode location tree
      let path := (← IO.currentDir) / systemName location
      if location.getLast? = some ".git" ∨ tree.at? location ≠ some .directory then
        return tree
      match ← path.readDir.toBaseIO with
      | .error _ => return tree
      | .ok entries =>
          entries.foldlM (fun tree entry => readBelow depth (location ++ [entry.fileName]) tree) tree

/-- The depth to which directories are read. -/
def depthLimit : Nat := 64

/-- Adds what stands at the places that a path passes, and everything below its
end. -/
def readPath (here : Location) (tree : FileTree) (path : Path) : IO FileTree := do
  let places := passed here path
  let tree ← places.foldlM (fun tree place => readNode place tree) tree
  readBelow depthLimit (places.getLast?.getD []) tree

/-- Reads the files that a command line is about. -/
def readFiles (around : Surroundings) (words : List String) : IO FileTree := do
  let here := around.workingDirectory
  let tree ← (passed here around.directories.settingsFile ++ passed here around.directories.logs ++
    passed here around.workingPath).foldlM (fun tree place => readNode place tree) []
  match commandOf? words with
  | none => return tree
  | some command =>
      let tree ← (namedPaths around command).foldlM (readPath here) tree
      (settledPaths around command tree).foldlM (readPath here) tree

/-- Makes a change.  A file is written beside its place and then moved there. -/
def perform (change : Change) : IO Unit := do
  let here ← IO.currentDir
  match change with
  | .remove location wasFile =>
      if wasFile then
        IO.FS.removeFile (here / systemName location)
      else
        IO.FS.removeDir (here / systemName location)
  | .make location => IO.FS.createDir (here / systemName location)
  | .write location content =>
      let beside := here / (systemName location ++ ".new")
      IO.FS.writeBinFile beside (bytesOf content)
      IO.FS.rename beside (here / systemName location)

/-! ## Surroundings -/

/-- The variables that the program looks at. -/
def variableNames : List String :=
  ["HOME", "XDG_CONFIG_HOME", "XDG_DATA_HOME", "SPECFORGE_API_DIR", "SPECFORGE_OPENAPI_OUTPUT"]

def environment : IO (Entries String String) :=
  variableNames.filterMapM fun name => do
    return (← IO.getEnv name).map fun value => (name, value)

/-- A number with at least two digits. -/
def twoDigits (number : Nat) : String :=
  if number < 10 then s!"0{number}" else toString number

/-- A time as it stands in the name of a log. -/
def stampOf (time : DateTime) : String :=
  let date := time.date
  let clock := time.clock
  s!"{date.year}{twoDigits date.month}{twoDigits date.day}-" ++
    s!"{twoDigits clock.hour}{twoDigits clock.minute}{twoDigits clock.second}"

/-- The time when nothing better is known. -/
def epoch : DateTime := ⟨⟨1970, 1, 1, by decide⟩, .midnight, some .zero⟩

/-- The time on the clock of the system. -/
def currentTime : IO DateTime := do
  let now ← Std.Time.Timestamp.now
  return (DateTime.ofEpoch? (now.toNanosecondsSinceUnixEpoch.val / 1000)).getD epoch

/-- The standard input of a command line that asks for it, with every line end
as a line feed. -/
def inputOf (words : List String) : IO Text := do
  if words.contains "-" then
    return Text.universalLines (← IO.FS.readFile "/dev/stdin").toList
  else
    return []

def surroundings (words : List String) : IO Surroundings := do
  let now ← currentTime
  return {
    workingDirectory := (Path.ofString (← IO.currentDir).toString).names.map LooseText.label
    environment := ← environment
    input := ← inputOf words
    now
    stamp := stampOf now }

end Program

end ApiWorkshop

open ApiWorkshop in
/-- Runs a command line on the files of the system. -/
def main (words : List String) : IO UInt32 := do
  try
    let around ← Program.surroundings words
    let earlier ← Program.readFiles around words
    let (outcome, later) := CommandLine.run around words earlier
    (Program.changes earlier later).forM Program.perform
    IO.print (String.ofList outcome.screen.output)
    IO.eprint (String.ofList outcome.screen.diagnostics)
    if let some error := outcome.unlogged then
      IO.eprintln s!"Error: {error.message}"
    return outcome.exitCode.number.toUInt32
  catch error =>
    IO.eprintln s!"Error: {error}"
    return ExitCode.inputOutput.number.toUInt32
