import ApiWorkshop.Run.Sources
import ApiWorkshop.Run.Surroundings
import ApiWorkshop.Settings.Project
import ApiWorkshop.Settings.User

/-!
# Reading settings files

The settings of a project stand in its directory and have to be there.  The
settings of the user stand in the directory for them, which is made when they
are looked for, and may be missing.
-/

namespace ApiWorkshop

/-- Reads a settings file that is there. -/
def readSettings {α : Type} (tree : FileTree) (here : Location) (file : Path)
    (read : Text → Except SettingsFault α) : Except RunError (Except SettingsFault α) :=
  match tree.readText here file with
  | .ok text => .ok (read text)
  | .error .notText => .ok (.error .notUnicode)
  | .error (.file error) => .error (.breakdown (.file error))

/-- Reads the settings of the project in a directory. -/
def loadProject (tree : FileTree) (here : Location) (root : Path) :
    Except RunError ProjectSettings := do
  let file := root.join (Path.ofString projectFileName)
  if ← Sources.asked (tree.isFile here file) then
    match ← readSettings tree here file ProjectSettings.ofText with
    | .ok settings => .ok settings
    | .error fault => .error (.settings (.invalidProject file fault))
  else
    .error (.settings (.noProject root))

/-- Reads the settings of the user, if their file is there. -/
def readUser (tree : FileTree) (here : Location) (file : Path) : Except RunError UserSettings := do
  if ← Sources.asked (tree.isFile here file) then
    match ← readSettings tree here file UserSettings.ofText with
    | .ok settings => .ok settings
    | .error fault => .error (.settings (.invalidUser file fault))
  else
    .ok {}

/-- Makes the directory for the settings of the user and reads them. -/
def loadUser (around : Surroundings) (tree : FileTree) : Except RunError UserSettings × FileTree :=
  let here := around.workingDirectory
  match FileTree.makeDirectories here around.directories.settings tree with
  | (.error error, tree) => (.error (.breakdown (.file error)), tree)
  | (.ok _, tree) => (readUser tree here around.directories.settingsFile, tree)

end ApiWorkshop
