import ApiWorkshop.Api.Read
import ApiWorkshop.Files.Tree
import ApiWorkshop.Run.Error

/-!
# Finding definition files

Definitions come from a file, from the definition files of a directory in the
order of their names, or from the standard input.
-/

namespace ApiWorkshop

namespace Sources

/-- The source name that stands for the standard input. -/
def inputMark : String := "-"

/-- An error about a source as a whole. -/
def unavailable {α : Type} (source : String) (cause : String) : Except RunError α :=
  .error (.source ⟨cause, source, none⟩)

/-- The answer of the file system; a refusal is a breakdown. -/
def asked {α : Type} : Except FileError α → Except RunError α
  | .ok answer => .ok answer
  | .error error => .error (.breakdown (.file error))

def readFile (tree : FileTree) (here : Location) (file : Path) : Except RunError SourceText :=
  match tree.readLines here file with
  | .ok text => .ok ⟨file.label, text⟩
  | .error _ => unavailable file.label "failed to read file"

/-- Whether a name is that of a definition file. -/
def isDefinitionName (name : String) : Bool :=
  (Text.before? ".toml" name.toList).isSome

/-- The definition files of a directory in the order of their names. -/
def filesIn (tree : FileTree) (here : Location) (directory : Path) :
    Except RunError (List Path) := do
  let names ← asked (tree.namesIn here directory)
  let sorted := (names.filter isDefinitionName).mergeSort fun first second =>
    decide (first ≤ second)
  let files := sorted.map fun name => directory.join ⟨.relative, [LooseText.ofString name]⟩
  files.filterM fun file => asked (tree.isFile here file)

/-- Reads the definition files of a directory. -/
def readDirectory (tree : FileTree) (here : Location) (directory : Path) :
    Except RunError (List SourceText) := do
  let files ← filesIn tree here directory
  if files.isEmpty then
    unavailable directory.label "no *.toml API definitions found"
  else
    files.mapM (readFile tree here)

/-- Reads the definitions that a source names.  The standard input is taken as
it stands. -/
def load (tree : FileTree) (here : Location) (input : Text) (source : LooseText) :
    Except RunError (List SourceText) := do
  if source = LooseText.ofString inputMark then
    .ok [⟨"<stdin>", input⟩]
  else
    let path := Path.ofText source
    if ← asked (tree.isDirectory here path) then
      readDirectory tree here path
    else if ← asked (tree.isFile here path) then
      let file ← readFile tree here path
      .ok [file]
    else
      unavailable path.label "API definition not found"

end Sources

end ApiWorkshop
