import ApiWorkshop.Merge.Apply
import ApiWorkshop.Run.Surroundings
import ApiWorkshop.Text.Classes
import ApiWorkshop.Text.Lines

/-!
# Results of a run on a project

A run on a project reports its operations and what came of making a
repository.
-/

namespace ApiWorkshop

/-- What came of making a repository in a new project. -/
inductive GitResult where
  | notAsked
  | initialized
  | failed (reason : String)
  deriving DecidableEq, Repr

namespace GitResult

/-- The result of an outcome.  A complaint is shown with line feeds as line ends
and without the blanks around it; without a complaint the exit code is shown. -/
def ofOutcome : GitOutcome → GitResult
  | .missing => failed "git was not found on PATH"
  | .finished 0 _ => initialized
  | .finished code complaint =>
      match Text.strip (Text.universalLines complaint) with
      | [] => failed s!"git init failed: exit code {code}"
      | shown => failed s!"git init failed: {String.ofList shown}"

end GitResult

/-- What a run on a project did, or would do. -/
structure ProjectResult where
  root : Path
  report : Report
  dryRun : Bool := false
  git : GitResult := .notAsked
  deriving DecidableEq, Repr

end ApiWorkshop
