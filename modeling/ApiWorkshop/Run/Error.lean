import ApiWorkshop.Api.Problem
import ApiWorkshop.Files.Error
import ApiWorkshop.Json.Print
import ApiWorkshop.Merge.Operation
import ApiWorkshop.Settings.Error
import ApiWorkshop.SourceError
import ApiWorkshop.Text.Quoted
import ApiWorkshop.Translation.Matcher

/-!
# Errors of a run

A run ends early for a cause that is told to the user, or it breaks down for
one that nobody expects.  Each cause has its wording and its exit code.
-/

namespace ApiWorkshop

/-- Why a run breaks down. -/
inductive Breakdown where
  /-- A duration does not fit the range of durations. -/
  | durationTooLong
  /-- A document would hold a date. -/
  | dateInDocument
  /-- An integer has too many digits. -/
  | longInteger
  /-- A call of the file system fails outside a write. -/
  | file (error : FileError)
  /-- A file that is to be patched is not a text. -/
  | notText
  deriving DecidableEq, Repr

/-- The wording of a breakdown, for the log. -/
def Breakdown.message : Breakdown → String
  | durationTooLong => "a duration is too long"
  | dateInDocument => "a date cannot stand in a document"
  | longInteger => "an integer has too many digits"
  | file error => error.message
  | notText => "a file is not a text"

/-- The breakdown of a check that cannot be finished. -/
def Breakdown.ofCheck : CheckFailure → Breakdown
  | .durationTooLong => .durationTooLong
  | .longInteger => .longInteger

/-- The breakdown for a value that cannot stand in a document. -/
def Breakdown.ofDocument : Unwritable → Breakdown
  | .date => .dateInDocument
  | .longInteger => .longInteger

/-- The breakdown for a value that a rule cannot be tried on. -/
def Breakdown.ofLookup : LookupError → Breakdown
  | .longInteger => .longInteger

/-- Why a run ends early. -/
inductive RunError where
  | settings (error : SettingsError)
  | source (error : SourceError)
  | problems (found : List Problem)
  | conflict (found : Conflict)
  | invalidName (name : String)
  | occupied (root : Path)
  | noTimestamp (text : String)
  | noTranslations (model field : String)
  | noDirectory (root : Path) (error : FileError)
  | unwritten (path : LooseText) (failure : Failure)
  | noOutput (path : String) (error : FileError)
  | breakdown (cause : Breakdown)
  deriving DecidableEq, Repr

/-- What an exit code stands for. -/
inductive ExitCode where
  | success
  | failure
  | usage
  | unreadable
  | invalid
  | inputOutput
  deriving DecidableEq, Repr

def ExitCode.number : ExitCode → Nat
  | success => 0
  | failure => 1
  | usage => 2
  | unreadable => 7
  | invalid => 8
  | inputOutput => 9

namespace RunError

def message : RunError → String
  | settings error => error.message
  | source error => error.message
  | problems found => problemSummary found
  | conflict found => found.message
  | invalidName name => s!"Invalid project name '{name}'"
  | occupied root => s!"{root.label} already exists and is not empty"
  | noTimestamp text => s!"--as-of is not an ISO 8601 timestamp: {quotedName text}"
  | noTranslations model field => s!"No translations declared for {model}.{field}"
  | noDirectory root error => s!"Cannot create {root.label}: {error.message}"
  | unwritten path failure => s!"Failed to write {path.label}: {failure.message}"
  | noOutput path error => s!"Cannot write {path}: {error.message}"
  | breakdown cause => cause.message

def exitCode : RunError → ExitCode
  | settings _ => .failure
  | source _ => .unreadable
  | problems _ => .invalid
  | conflict _ => .failure
  | invalidName _ => .usage
  | occupied _ => .usage
  | noTimestamp _ => .usage
  | noTranslations _ _ => .usage
  | noDirectory _ _ => .inputOutput
  | unwritten _ _ => .inputOutput
  | noOutput _ _ => .inputOutput
  | breakdown _ => .failure

end RunError

end ApiWorkshop
