import ApiWorkshop.Run.Compile
import ApiWorkshop.Run.Result
import ApiWorkshop.Run.Settings

/-!
# Regenerating a project

All of the definitions are read, checked and rendered and all files of the
project are looked at before the first one is written.  A file that cannot be
written does not stop the others.
-/

namespace ApiWorkshop

/-- What is asked of a regeneration. -/
structure GenerateRequest where
  root : Path
  dryRun : Bool := false
  apiDirectory : Option String := none
  openapiOutput : Option String := none
  deriving DecidableEq, Repr

namespace GenerateRequest

/-- What a regeneration renders: the settings, the API and its translation table. -/
def gather (around : Surroundings) (request : GenerateRequest) (tree : FileTree) :
    Except RunError (ProjectSettings × Api × TranslationTable) := do
  let here := around.workingDirectory
  let stored ← loadProject tree here request.root
  let settings := stored.resolve around.environment request.apiDirectory request.openapiOutput
  let directory := request.root.join (Path.ofText settings.apiDirectory)
  let sources ← Sources.load tree here around.input directory.text
  let api ← compileApi settings.heading sources
  let table ← compileTable api
  .ok (settings, api, table)

/-- The rendered files and the documents of a regeneration. -/
def render (around : Surroundings) (request : GenerateRequest) (tree : FileTree) :
    Except RunError (Entries LooseText LooseText × Entries LooseText Draft) := do
  let (settings, api, table) ← request.gather around tree
  let documents ← compileDocuments settings api table
  .ok (renderProject settings api table, documents)

/-- The operations of a regeneration with the snapshot that they are made
for. -/
def plan (around : Surroundings) (request : GenerateRequest) (tree : FileTree) :
    Except RunError (List FileOperation × Snapshot) := do
  let (rendered, documents) ← request.render around tree
  let snapshot ← Sources.asked (Snapshot.capture tree around.workingDirectory request.root
    (Entries.keys rendered ++ Entries.keys documents))
  match ApiWorkshop.plan rendered snapshot documents with
  | .ok operations => .ok (operations, snapshot)
  | .error found => .error (.conflict found)

end GenerateRequest

/-- The error of a run for an error of a merge. -/
def RunError.ofMerge : MergeError → RunError
  | .file error => .breakdown (.file error)
  | .notText => .breakdown .notText
  | .conflict found => .conflict found

def generateProject (around : Surroundings) (request : GenerateRequest) (tree : FileTree) :
    Except RunError ProjectResult × FileTree :=
  match request.plan around tree with
  | .error error => (.error error, tree)
  | .ok (operations, snapshot) =>
      if request.dryRun then
        (.ok { root := request.root
               report := { operations, failures := snapshot.unreadable }
               dryRun := true }, tree)
      else
        match applyOperations around.faults around.workingDirectory request.root operations
            snapshot tree with
        | (.ok report, tree) => (.ok { root := request.root, report }, tree)
        | (.error error, tree) => (.error (.ofMerge error), tree)

end ApiWorkshop
