import ApiWorkshop.Entries
import ApiWorkshop.Path

/-!
# Directories of the user

On systems with the usual base directories, settings and data have directories
of their own, which the environment can move.  Elsewhere both are below one
hidden directory in the home directory.
-/

namespace ApiWorkshop

/-- The directories of the program in the home of a user. -/
structure Directories where
  settings : Path
  data : Path
  deriving DecidableEq, Repr

namespace Directories

/-- The name of the program, as its directories have it. -/
def programName : String := "specforge"

/-- Whether a system has base directories for settings and data. -/
def hasBaseDirectories (system : String) : Bool :=
  system = "Linux" || (Text.before? "BSD" system.toList).isSome

/-- A base directory: the one that a variable names, or else the one below the
home directory. -/
def base (environment : Entries String String) (home : Path) (variableName : String)
    (names : List LooseText) : Path :=
  match Entries.get? variableName environment with
  | some value => if value.isEmpty then home.join ⟨.relative, names⟩ else Path.ofString value
  | none => home.join ⟨.relative, names⟩

def ofSystem (system : String) (environment : Entries String String) (home : Path) :
    Directories :=
  if hasBaseDirectories system then
    { settings := (base environment home "XDG_CONFIG_HOME" [".config"]).join
        ⟨.relative, [programName]⟩
      data := (base environment home "XDG_DATA_HOME" [".local", "share"]).join
        ⟨.relative, [programName]⟩ }
  else
    { settings := home.join ⟨.relative, ["." ++ programName]⟩
      data := home.join ⟨.relative, ["." ++ programName, "logs"]⟩ }

def settingsFile (directories : Directories) : Path :=
  directories.settings.join ⟨.relative, ["config.json"]⟩

def logs (directories : Directories) : Path :=
  directories.data.join ⟨.relative, ["logs"]⟩

end Directories

end ApiWorkshop
