import ApiWorkshop.Files.AtomicWrite
import ApiWorkshop.Settings.Directories
import ApiWorkshop.Time.Calendar

/-!
# The surroundings of a run

A run changes a file tree.  All else that it depends on stays the same while it
lasts: the working directory, the environment, the standard input, the time,
the outcome of making a repository, and which writes fail.
-/

namespace ApiWorkshop

/-- What comes of making a repository. -/
inductive GitOutcome where
  | missing
  | finished (code : Nat) (complaint : Text)
  deriving DecidableEq, Repr

/-- What a run depends on besides the file tree. -/
structure Surroundings where
  workingDirectory : Location := []
  environment : Entries String String := []
  /-- The name of the operating system. -/
  system : String := "Linux"
  /-- The standard input. -/
  input : Text := []
  now : DateTime
  /-- The time as it stands in the name of a log. -/
  stamp : String := ""
  git : GitOutcome := .missing
  /-- The faults of the writes of a plan, by the path below the project. -/
  faults : LooseText → WriteFaults := fun _ => .none

namespace Surroundings

/-- The working directory as an absolute path. -/
def workingPath (around : Surroundings) : Path :=
  FileTree.pathTo around.workingDirectory

def home (around : Surroundings) : Path :=
  Path.ofString ((Entries.get? "HOME" around.environment).getD "/")

def directories (around : Surroundings) : Directories :=
  Directories.ofSystem around.system around.environment around.home

end Surroundings

end ApiWorkshop
