import ApiWorkshop.Api.Normalize
import ApiWorkshop.Project.Rendering
import ApiWorkshop.Run.Sources

/-!
# From definition files to an API

Definition files are read and merged into one API, and the translation table of
the API is built.
-/

namespace ApiWorkshop

def compileApi (heading : Heading) (sources : List SourceText) : Except RunError Api :=
  match Definition.readAll sources with
  | .error (.misread error) => .error (.source error)
  | .error .longInteger => .error (.breakdown .longInteger)
  | .ok definitions =>
      match normalize heading definitions with
      | .ok api => .ok api
      | .error (.problems found) => .error (.problems found)
      | .error (.unchecked failure) => .error (.breakdown (.ofCheck failure))

def compileTable (api : Api) : Except RunError TranslationTable :=
  match TranslationTable.ofTranslations api.translations with
  | .ok table => .ok table
  | .error _ => .error (.breakdown .durationTooLong)

def compileDocuments (settings : ProjectSettings) (api : Api) (table : TranslationTable) :
    Except RunError (Entries LooseText Draft) :=
  match renderDocuments settings api table with
  | .ok documents => .ok documents
  | .error fault => .error (.breakdown (.ofDocument fault))

/-- The heading that the settings of a project give its API. -/
def ProjectSettings.heading (settings : ProjectSettings) : Heading :=
  { title := some settings.name, version := some settings.version }

end ApiWorkshop
