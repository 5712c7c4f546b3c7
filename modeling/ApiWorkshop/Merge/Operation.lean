import ApiWorkshop.Entries
import ApiWorkshop.Files.Error
import ApiWorkshop.Region.Find
import ApiWorkshop.Text.Loose

/-!
# File operations

An operation says what happens to one file of a project, or to one region of
it.  A report holds the operations of a run and the files that failed, and
counts them for the summary.
-/

namespace ApiWorkshop

/-- Why a file or a region is left alone. -/
inductive SkipReason where
  | alreadyExists
  | conflict (conflict : Conflict)
  | regionMissing (region : String)
  | stated (reason : String)
  deriving DecidableEq, Repr

def SkipReason.message : SkipReason → String
  | alreadyExists => "file already exists"
  | conflict found => found.message
  | regionMissing region => s!"region '{region}' markers not found"
  | stated reason => reason

/-- What an operation does to its file. -/
inductive Change where
  /-- A file that is not there is written. -/
  | create
  /-- The body of a region is replaced. -/
  | patch
  /-- A file, or a region of it, is left alone. -/
  | skip
  /-- A document is written anew. -/
  | regenerate
  deriving DecidableEq, Repr

def Change.word : Change → String
  | create => "create"
  | patch => "patch"
  | skip => "skip"
  | regenerate => "regenerate"

/-- A change of one file of a project.  An operation that is given from outside
may say more than its change needs. -/
structure FileOperation where
  path : LooseText
  change : Change
  region : Option String := none
  content : Draft := ⟨[], true⟩
  /-- Why the file is left alone. -/
  reason : Option SkipReason := none
  /-- Whether the content differs from that of the file, as far as the two were
  compared. -/
  changed : Bool := true
  deriving DecidableEq, Repr

namespace FileOperation

/-- A file that is not there is written. -/
def create (path : LooseText) (content : Draft) : FileOperation :=
  { path, change := .create, content }

/-- The body of a region is replaced, if that changes the file. -/
def patch (path : LooseText) (region : String) (content : Draft) (changed : Bool) : FileOperation :=
  { path, change := .patch, region := some region, content, changed }

/-- A file, or a region of it, is left alone. -/
def skip (path : LooseText) (region : Option String) (reason : SkipReason) : FileOperation :=
  { path, change := .skip, region, reason := some reason }

/-- A document is written anew, if that changes the file. -/
def regenerate (path : LooseText) (content : Draft) (changed : Bool) : FileOperation :=
  { path, change := .regenerate, content, changed }

end FileOperation

/-- Why a file of a project failed. -/
inductive Failure where
  | unreadable (file : Path)
  | unwritten (error : FileError)
  deriving DecidableEq, Repr

def Failure.message : Failure → String
  | unreadable file => s!"cannot read {file.label}"
  | unwritten error => error.message

/-- What a run did, or would do. -/
structure Report where
  operations : List FileOperation := []
  failures : Entries LooseText Failure := []
  deriving DecidableEq, Repr

/-- What became of an operation, for the summary. -/
inductive Tally where
  | created
  | patched
  | unchanged
  | skipped
  | regenerated
  | failed
  deriving DecidableEq, Repr

namespace Tally

/-- All tallies in the order of the summary. -/
def all : List Tally := [created, patched, unchanged, skipped, regenerated, failed]

def word : Tally → String
  | created => "created"
  | patched => "patched"
  | unchanged => "unchanged"
  | skipped => "skipped"
  | regenerated => "regenerated"
  | failed => "failed"

/-- The tally of an operation that did not fail. -/
def ofOperation (operation : FileOperation) : Tally :=
  match operation.change with
  | .create => created
  | .skip => skipped
  | .patch => if operation.changed then patched else unchanged
  | .regenerate => if operation.changed then regenerated else unchanged

end Tally

namespace Report

/-- The operations on files that did not fail. -/
def finished (report : Report) : List FileOperation :=
  report.operations.filter fun operation => !Entries.hasKey operation.path report.failures

/-- How many operations have a tally; of failures, how many files. -/
def count (report : Report) (tally : Tally) : Nat :=
  match tally with
  | .failed => report.failures.length
  | tally => (report.finished.filter fun operation => Tally.ofOperation operation = tally).length

def counts (report : Report) : List (Tally × Nat) :=
  Tally.all.map fun tally => (tally, report.count tally)

end Report

end ApiWorkshop
