import ApiWorkshop.Json.Print
import ApiWorkshop.Merge.Operation

/-!
# What a command shows

Results go to the standard output and everything about them to the standard
error.  A table is shown as lines with tabs between the columns or as JSON.
-/

namespace ApiWorkshop

/-- How tables are shown. -/
inductive TableFormat where
  | plain
  | json
  deriving DecidableEq, Repr

/-- How a command shows its results. -/
structure Display where
  format : TableFormat := .plain
  quiet : Bool := false
  deriving DecidableEq, Repr

/-- What a command has shown. -/
structure Screen where
  output : Text := []
  diagnostics : Text := []
  deriving DecidableEq, Repr

namespace Screen

/-- A text that ends in a line feed. -/
def ended (text : Text) : Text :=
  if text.getLast? = some '\n' then text else text ++ ['\n']

def print (text : Text) (screen : Screen) : Screen :=
  { screen with output := screen.output ++ ended text }

def note (line : String) (screen : Screen) : Screen :=
  { screen with diagnostics := screen.diagnostics ++ line.toList ++ ['\n'] }

/-- Shows a line that a quiet run leaves out. -/
def say (display : Display) (line : String) (screen : Screen) : Screen :=
  if display.quiet then screen else screen.note line

def warn (message : String) (screen : Screen) : Screen :=
  screen.note ("Warning: " ++ message)

def complain (message : String) (screen : Screen) : Screen :=
  screen.note ("Error: " ++ message)

/-- A row of a table as a line. -/
def rowLine (row : List String) : Text :=
  (String.intercalate "\t" row).toList

/-- A table as an array of objects with the headers as keys. -/
def tableValue (headers : List String) (rows : List (List String)) : JsonValue :=
  .array (rows.map fun row =>
    .object ((headers.map LooseText.ofString).zip
      (row.map fun cell => JsonValue.string (LooseText.ofString cell))))

def table (display : Display) (headers : List String) (rows : List (List String))
    (screen : Screen) : Screen :=
  match display.format with
  | .plain => rows.foldl (fun screen row => screen.print (rowLine row))
      (screen.print (rowLine headers))
  | .json => screen.print (Json.value .unicode 0 (tableValue headers rows))

/-! ## Reports -/

/-- The word for what became of an operation. -/
def actionWord (report : Report) (operation : FileOperation) : String :=
  if Entries.hasKey operation.path report.failures then
    "failed"
  else
    match operation.change, operation.changed with
    | .patch, false => "unchanged"
    | .regenerate, false => "unchanged"
    | change, _ => change.word

/-- The note of an operation: the reason that it states, or else why it
failed. -/
def noteOf (report : Report) (operation : FileOperation) : String :=
  let stated := (operation.reason.map SkipReason.message).getD ""
  if stated.isEmpty then
    ((Entries.get? operation.path report.failures).map Failure.message).getD ""
  else
    stated

def operationRow (report : Report) (operation : FileOperation) : List String :=
  [actionWord report operation, operation.path.label, operation.region.getD "",
    noteOf report operation]

/-- The rows of failures on files without an operation. -/
def failureRows (report : Report) : List (List String) :=
  (report.failures.filter fun failure =>
      !report.operations.any fun operation => operation.path = failure.1).map
    fun (path, failure) => ["failed", path.label, "", failure.message]

/-- Warns of an operation that was skipped for another reason than that its
file is there. -/
def warnOf (screen : Screen) (operation : FileOperation) : Screen :=
  match operation.change, operation.reason with
  | .skip, some .alreadyExists => screen
  | .skip, some reason => screen.warn s!"{operation.path.label}: {reason.message}"
  | _, _ => screen

/-- Shows a report: a table of the operations, warnings and failures. -/
def report (display : Display) (report : Report) (screen : Screen) : Screen :=
  let rows := report.operations.map (operationRow report) ++ failureRows report
  let screen := screen.table display ["Action", "Path", "Region", "Note"] rows
  let screen := report.operations.foldl warnOf screen
  report.failures.foldl
    (fun screen (path, failure) => screen.complain s!"{path.label}: {failure.message}") screen

def summary (report : Report) : String :=
  match report.counts.filter fun entry => entry.2 ≠ 0 with
  | [] => "nothing to do"
  | counts =>
      String.intercalate ", " (counts.map fun (tally, count) => s!"{count} {tally.word}")

end Screen

end ApiWorkshop
