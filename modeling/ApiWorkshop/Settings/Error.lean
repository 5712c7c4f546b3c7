import ApiWorkshop.Json.Read
import ApiWorkshop.Path
import ApiWorkshop.Settings.Checked

/-!
# Errors of settings files

A settings file can be missing where a project needs it, or be there and not be
usable.
-/

namespace ApiWorkshop

/-- Why a settings file cannot be used. -/
inductive SettingsFault where
  | notUnicode
  | notJson
  /-- An integer has too many digits. -/
  | longInteger
  | problems (problems : List SettingProblem)
  deriving DecidableEq, Repr

/-- An error of the settings. -/
inductive SettingsError where
  /-- A directory has no settings file of a project. -/
  | noProject (root : Path)
  /-- The settings of a project are not usable. -/
  | invalidProject (file : Path) (fault : SettingsFault)
  /-- The settings of the user are not usable. -/
  | invalidUser (file : Path) (fault : SettingsFault)
  deriving DecidableEq, Repr

/-- The name of the settings file of a project. -/
def projectFileName : String := "specforge.json"

/-- Why a settings file cannot be used that is not read as JSON. -/
def SettingsFault.ofJson : Json.Fault → SettingsFault
  | .malformed => .notJson
  | .longInteger => .longInteger

/-- The settings that a text holds, by a reading of the value that it writes. -/
def settingsOf {α : Type} (read : JsonValue → Checked α) (text : Text) : Except SettingsFault α :=
  match Json.read text with
  | .error fault => .error (.ofJson fault)
  | .ok value =>
      match read value with
      | .accepted settings => .ok settings
      | .refused problems => .error (.problems problems)

namespace SettingsError

def message : SettingsError → String
  | noProject root =>
      s!"No {projectFileName} found in {root.label}. Is this a specforge project?"
  | invalidProject file _ => s!"Invalid project config at {file.label}"
  | invalidUser file _ => s!"Invalid global config at {file.label}"

/-- Why the file of an error cannot be used. -/
def fault? : SettingsError → Option SettingsFault
  | noProject _ => none
  | invalidProject _ fault => some fault
  | invalidUser _ fault => some fault

end SettingsError

end ApiWorkshop
