import ApiWorkshop.OpenApi.Document
import ApiWorkshop.Path
import ApiWorkshop.Project.LabelsModule
import ApiWorkshop.Project.Overview
import ApiWorkshop.Project.RoutesModule
import ApiWorkshop.Project.SchemasModule

/-!
# Rendering a project

The files of a project are rendered from its settings, its API and its
translation table.  Two further files are documents that belong to the
generator as a whole.

Every file of a new project has a place in the layout.  In a place the word
`__package__` stands for the package name, a name that begins with `dot-` for a
hidden one, and an ending `.j2` is dropped.
-/

namespace ApiWorkshop

/-! ## The layout -/

namespace Layout

/-- A name with the mark of a hidden one replaced by its dot. -/
def unmasked (name : LooseText) : LooseText :=
  match Text.after? (LooseText.ofString "dot-") name with
  | some rest => .char '.' :: rest
  | none => name

/-- A part of a place for a package. -/
def partFor (package name : LooseText) : LooseText :=
  Text.replaceAll (LooseText.ofString "__package__") package (unmasked name)

/-- A place without the ending of a template. -/
def withoutEnding (place : LooseText) : LooseText :=
  (Text.before? (LooseText.ofString ".j2") place).getD place

/-- The path of the file at a place in the layout of a project. -/
def outputPath (place : String) (package : LooseText) : LooseText :=
  let parts := (Path.ofString place).parts.map (partFor package)
  withoutEnding (List.intercalate [.char '/'] parts)

end Layout

/-! ## Files and documents -/

/-- The files of a project that are rendered, in the order of their places. -/
inductive ProjectFile where
  | page
  | ignored
  | manifest
  | packageFile
  | routes
  | schemas
  | labels
  deriving DecidableEq, Repr

namespace ProjectFile

def all : List ProjectFile :=
  [page, ignored, manifest, packageFile, routes, schemas, labels]

/-- The place of a file in the layout. -/
def place : ProjectFile → String
  | page => "README.md.j2"
  | ignored => "dot-gitignore.j2"
  | manifest => "pyproject.toml.j2"
  | packageFile => "src/__package__/__init__.py.j2"
  | routes => "src/__package__/routes.py.j2"
  | schemas => "src/__package__/schemas.py.j2"
  | labels => "src/__package__/translations.py.j2"

/-- The path of a file below the directory of a project. -/
def path (file : ProjectFile) (package : LooseText) : LooseText :=
  Layout.outputPath file.place package

def text (settings : ProjectSettings) (api : Api) (table : TranslationTable)
    (file : ProjectFile) : LooseText :=
  let path := (file.path settings.packageName).label
  match file with
  | page => Overview.page path settings api
  | ignored => Overview.ignored
  | manifest => Overview.manifest settings
  | packageFile => Overview.packageFile settings
  | routes => RoutesModule.text path api.endpoints
  | schemas => SchemasModule.text path api
  | labels => LabelsModule.text path table

end ProjectFile

/-- The rendered files of a project by their paths. -/
def renderProject (settings : ProjectSettings) (api : Api) (table : TranslationTable) :
    Entries LooseText LooseText :=
  Entries.ofPairs (ProjectFile.all.map fun file =>
    (file.path settings.packageName, file.text settings api table))

/-- The documents of a project by their paths. -/
def renderDocuments (settings : ProjectSettings) (api : Api) (table : TranslationTable) :
    Except Unwritable (Entries LooseText Draft) := do
  let openapi ← OpenApi.draft api
  let translations ← Json.documentOf table.toValue
  .ok (Entries.ofPairs
    [(settings.openapiOutput, openapi), (settings.translationsOutput, translations)])

end ApiWorkshop
