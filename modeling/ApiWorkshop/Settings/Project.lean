import ApiWorkshop.Json.Print
import ApiWorkshop.Settings.Error
import ApiWorkshop.Text.Words

/-!
# Settings of a project

A project has a name and may have a package name, a version and places for its
files; a place is a path below the project directory.  Entries that are not
known are kept and written back.  Texts may be loose, but not the keys of
entries that are not known.  For a run, arguments go before the
environment, the environment before the file, and the file before the defaults.
-/

namespace ApiWorkshop

/-- The settings of a project. -/
structure ProjectSettings where
  name : LooseText
  package : Option LooseText := none
  version : LooseText := "0.1.0"
  /-- The directory of the definition files. -/
  apiDirectory : LooseText := "config/openapi"
  openapiOutput : LooseText := "docs/openapi.json"
  translationsOutput : LooseText := "docs/translations.json"
  /-- The entries that are not known. -/
  extras : Entries LooseText JsonValue := []
  deriving Repr

namespace ProjectSettings

/-- The keys of the settings that are known. -/
def knownKeys : List String :=
  ["name", "package", "version", "api_dir", "openapi_output", "translations_output"]

/-- Whether a key is that of a setting that is known. -/
def isKnown (key : LooseText) : Bool :=
  knownKeys.any fun known => decide (key = LooseText.ofString known)

def unknownEntries (entries : Entries LooseText JsonValue) : Entries LooseText JsonValue :=
  entries.filter fun entry => !isKnown entry.1

/-- Reads the entries of a settings file whose keys have bytes. -/
def ofKnownEntries (entries : Entries LooseText JsonValue) : Checked ProjectSettings :=
  let defaults : ProjectSettings := { name := [] }
  let text := fun key fallback =>
    Checked.orElse entries key fallback (Checked.text [key])
  ProjectSettings.mk
    <$> Checked.required entries "name" (Checked.text ["name"])
    <*> Checked.orElse entries "package" none (Checked.text? ["package"])
    <*> text "version" defaults.version
    <*> text "api_dir" defaults.apiDirectory
    <*> text "openapi_output" defaults.openapiOutput
    <*> text "translations_output" defaults.translationsOutput
    <*> .accepted (unknownEntries entries)

/-- Reads the entries of a settings file.  A key without bytes is the only
problem that is told. -/
def ofEntries (entries : Entries LooseText JsonValue) : Checked ProjectSettings :=
  if (unknownEntries entries).all fun entry => entry.1.isWhole then
    ofKnownEntries entries
  else
    Checked.fault [] .notUnicode

/-- Reads the text of a settings file. -/
def ofText (text : Text) : Except SettingsFault ProjectSettings :=
  settingsOf (Checked.table [] ofEntries) text

mutual

/-- A value as it is written back, with null for every number that is not
finite.  Nothing is written for a value with a key that has no bytes or with an
integer that has too many digits. -/
def settled? : JsonValue → Option JsonValue
  | .int number => if Decimal.isWritable number then some (.int number) else none
  | .float number => some (if number.isFinite then .float number else .null)
  | .array items => (settledItems? items).map .array
  | .object entries => (settledEntries? entries).map .object
  | other => some other

/-- The values of a list as they are written back. -/
def settledItems? : List JsonValue → Option (List JsonValue)
  | [] => some []
  | item :: items => do
      let item ← settled? item
      let items ← settledItems? items
      some (item :: items)

def settledEntries? : List (LooseText × JsonValue) → Option (List (LooseText × JsonValue))
  | [] => some []
  | (key, value) :: entries =>
      if key.isWhole then do
        let value ← settled? value
        let entries ← settledEntries? entries
        some ((key, value) :: entries)
      else
        none

end

def textEntry (key : String) (text : LooseText) : LooseText × JsonValue :=
  (key, .string text)

/-- The entries of the settings that are known; a package that is not set is
left out. -/
def knownEntries (settings : ProjectSettings) : Entries LooseText JsonValue :=
  [textEntry "name" settings.name] ++ (settings.package.toList.map (textEntry "package")) ++
    [textEntry "version" settings.version,
      textEntry "api_dir" settings.apiDirectory,
      textEntry "openapi_output" settings.openapiOutput,
      textEntry "translations_output" settings.translationsOutput]

/-- The text of a settings file.  Entries that are null are left out, and there
is no text if a key inside an entry has no bytes or an integer has too many digits. -/
def text? (settings : ProjectSettings) : Option Text := do
  let extras ← settledEntries? (settings.extras.filter fun entry => !entry.2.isNull)
  some (Json.document .ascii (.object (settings.knownEntries ++ extras)))

/-- The package name of a project: the one that is set, or else the one that
the project name gives. -/
def packageName (settings : ProjectSettings) : LooseText :=
  match settings.package with
  | some package => if package.isEmpty then Text.packageName settings.name.shown else package
  | none => Text.packageName settings.name.shown

/-- A variable of the environment, unless it is empty. -/
def setVariable? (environment : Entries String String) (name : String) : Option String :=
  (Entries.get? name environment).filter (!·.isEmpty)

/-- The settings that hold for a run. -/
def resolve (environment : Entries String String) (apiDirectory openapiOutput : Option String)
    (settings : ProjectSettings) : ProjectSettings :=
  let given := fun (argument : Option String) variableName stored =>
    ((argument.or (setVariable? environment variableName)).map LooseText.ofString).getD stored
  { settings with
    apiDirectory := given apiDirectory "SPECFORGE_API_DIR" settings.apiDirectory
    openapiOutput := given openapiOutput "SPECFORGE_OPENAPI_OUTPUT" settings.openapiOutput
    package := some settings.packageName }

end ProjectSettings

end ApiWorkshop
