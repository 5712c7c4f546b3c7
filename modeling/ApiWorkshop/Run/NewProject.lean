import ApiWorkshop.Project.Starter
import ApiWorkshop.Run.Generate

/-!
# Making a project

A new project is rendered in full before anything is written.  Its directory
has to be missing or empty.  When a file cannot be written, everything that was
written is removed again.
-/

namespace ApiWorkshop

/-- What is asked of a new project.  Its name is a text, like all names in a tree. -/
structure NewRequest where
  name : String
  parent : Path
  git : Bool := true
  dryRun : Bool := false
  deriving DecidableEq, Repr

namespace NewRequest

def root (request : NewRequest) : Path :=
  request.parent.join (Path.ofString request.name)

/-- Whether a name can be that of a directory made for a project. -/
def isValidName (name : String) : Bool :=
  !(Text.strip name.toList).isEmpty && (Path.ofString name).name = LooseText.ofString name &&
    name != "." && name != ".."

/-- Whether something is in the way of a new project: a file, or a directory
that is not empty. -/
def isOccupied (tree : FileTree) (here : Location) (root : Path) : Except FileError Bool := do
  if ← tree.pathExists here root then
    if ← tree.isDirectory here root then
      let names ← tree.namesIn here root
      .ok (!names.isEmpty)
    else
      .ok true
  else
    .ok false

def settings (request : NewRequest) : ProjectSettings :=
  { name := request.name
    package := some (Text.packageName request.name) }

/-- The path of the starter definition below the project. -/
def starterPath (request : NewRequest) : LooseText :=
  request.settings.apiDirectory ++ "/" ++ Starter.fileName

/-- All files of the new project.  The settings file has a text, because there
are no entries in it that are not known. -/
def files (request : NewRequest) (api : Api) (table : TranslationTable) :
    Entries LooseText LooseText :=
  let settings := request.settings
  Entries.put projectFileName (settings.text?.getD [])
    (Entries.put request.starterPath (Starter.text request.name)
      (renderProject settings api table))

/-- The operations that make the new project. -/
def plan (request : NewRequest) : Except RunError (List FileOperation) := do
  let settings := request.settings
  let api ← compileApi settings.heading
    [⟨request.starterPath.label, Starter.text request.name⟩]
  let table ← compileTable api
  let documents ← compileDocuments settings api table
  match ApiWorkshop.plan (request.files api table) {} documents with
  | .ok operations => .ok operations
  | .error found => .error (.conflict found)

/-- The operations that make the new project, if nothing is in its way. -/
def checkedPlan (around : Surroundings) (request : NewRequest) (tree : FileTree) :
    Except RunError (List FileOperation) := do
  if !isValidName request.name then
    .error (.invalidName request.name)
  else if ← Sources.asked (isOccupied tree around.workingDirectory request.root) then
    .error (.occupied request.root)
  else
    request.plan

end NewRequest

namespace Discard

/-- The directories between a root and a path below it. -/
def directoriesOf (root : Path) (path : LooseText) : List Path :=
  let below := Path.ofText path
  if below.root = .relative then
    (List.range (below.names.length - 1)).map fun depth =>
      { root with names := root.names ++ below.names.take (depth + 1) }
  else
    []

/-- The directories between a root and paths below it, the deepest first. -/
def directories (root : Path) (paths : List LooseText) : List Path :=
  (paths.flatMap (directoriesOf root)).eraseDups.mergeSort fun first second =>
    decide (second.names.length ≤ first.names.length)

/-- The tree without a file, if that can be removed. -/
def dropFile (here : Location) (root : Path) (tree : FileTree) (path : LooseText) : FileTree :=
  ((tree.removeFile here (root.join (Path.ofText path))).toOption).getD tree

/-- Removes directories as far as they are empty.  A path that the file system
refuses to look at ends the removal. -/
def dropDirectories (here : Location) :
    List Path → FileTree → Except FileError Unit × FileTree
  | [], tree => (.ok (), tree)
  | directory :: directories, tree =>
      match tree.isDirectory here directory with
      | .error error => (.error error, tree)
      | .ok false => dropDirectories here directories tree
      | .ok true =>
          dropDirectories here directories
            (((tree.removeDirectory here directory).toOption).getD tree)

end Discard

/-- Removes what a failed run wrote below a root.  A root that the run made
goes as a whole; in one that was empty before, the files of the run go and then
the directories that led to them. -/
def discard (here : Location) (root : Path) (operations : List FileOperation)
    (createdRoot : Bool) (tree : FileTree) : Except FileError Unit × FileTree :=
  if createdRoot then
    (.ok (), ((tree.removeTree here root).toOption).getD tree)
  else
    let paths := operations.map FileOperation.path
    let tree := paths.foldl (Discard.dropFile here root) tree
    Discard.dropDirectories here (Discard.directories root paths) tree

/-- Writes the files of a new project. -/
def writeNew (around : Surroundings) (request : NewRequest) (operations : List FileOperation)
    (createdRoot : Bool) (tree : FileTree) : Except RunError ProjectResult × FileTree :=
  let here := around.workingDirectory
  match FileTree.makeDirectories here request.root tree with
  | (.error error, tree) =>
      (.error (if error.isFromSystem then .noDirectory request.root error
        else .breakdown (.file error)), tree)
  | (.ok _, tree) =>
      match applyOperations around.faults here request.root operations {} tree with
      | (.error error, tree) => (.error (.ofMerge error), tree)
      | (.ok report, tree) =>
          match report.failures with
          | (path, failure) :: _ =>
              match discard here request.root operations createdRoot tree with
              | (.ok _, tree) => (.error (.unwritten path failure), tree)
              | (.error error, tree) => (.error (.breakdown (.file error)), tree)
          | [] =>
              let git := if request.git then GitResult.ofOutcome around.git else .notAsked
              (.ok { root := request.root, report, git }, tree)

def newProject (around : Surroundings) (request : NewRequest) (tree : FileTree) :
    Except RunError ProjectResult × FileTree :=
  match request.checkedPlan around tree with
  | .error error => (.error error, tree)
  | .ok operations =>
      if request.dryRun then
        (.ok { root := request.root, report := { operations }, dryRun := true }, tree)
      else
        match tree.pathExists around.workingDirectory request.root with
        | .error error => (.error (.breakdown (.file error)), tree)
        | .ok present => writeNew around request operations (!present) tree

end ApiWorkshop
