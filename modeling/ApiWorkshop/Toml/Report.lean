import ApiWorkshop.SourceError
import ApiWorkshop.Text.Classes
import ApiWorkshop.Text.Lines
import ApiWorkshop.Toml.Document

/-!
# Reports of faults

A fault is reported as one line of text that ends in its place.  The place of
the error that a reader of the report raises is recovered from that line: the
first place named in it counts, even if it stands in a quoted key.
-/

namespace ApiWorkshop

namespace Toml

/-- The place right after a part of a text. -/
def placeAfter (before : Text) : Place :=
  { line := before.count '\n' + 1
    column := (before.reverse.takeWhile (· != '\n')).length + 1 }

/-- How a place is named in a report. -/
def placeText (place : Place) : Text :=
  "(at line " ++ Text.padded 1 place.line ++ ", column " ++ Text.padded 1 place.column ++ ")"

/-- How the end of a document is named in a report. -/
def endText : Text := "(at end of document)"

/-- The report of a fault found in a document. -/
def report (document : Text) (found : Stop) : Text :=
  found.fault.message ++ " " ++
    (if found.rest.isEmpty then
      endText
    else
      placeText (placeAfter (document.take (document.length - found.rest.length))))

/-- The values of the decimal digits of any script at the start of a text, and
what follows them. -/
def takeDigits? (text : Text) : Option (List Nat × Text) :=
  match (text.takeWhile Text.isDecimalDigit).filterMap Text.decimalDigit? with
  | [] => none
  | digits => some (digits, text.dropWhile Text.isDecimalDigit)

/-- A place as it is written: the digits of its line and of its column. -/
structure WrittenPlace where
  line : List Nat
  column : List Nat

/-- The place that is written, unless one of its numbers has too many digits. -/
def WrittenPlace.read? (written : WrittenPlace) : Option Place :=
  if written.line.length ≤ Decimal.digitLimit && written.column.length ≤ Decimal.digitLimit then
    some ⟨Text.ofDigits 10 written.line, Text.ofDigits 10 written.column⟩
  else
    none

/-- The place named at the start of a text. -/
def placeAtStart? (text : Text) : Option WrittenPlace := do
  let rest ← Text.after? "(at line " text
  let (line, rest) ← takeDigits? rest
  let rest ← Text.after? ", column " rest
  let (column, rest) ← takeDigits? rest
  let _ ← Text.after? ")" rest
  some ⟨line, column⟩

/-- The first place named in a text, with the text before it. -/
def findPlace? : Text → Option (Text × WrittenPlace)
  | [] => none
  | c :: text =>
      match placeAtStart? (c :: text) with
      | some place => some ([], place)
      | none => (findPlace? text).map fun (before, place) => (c :: before, place)

/-- The end of a text: the last line and the column after its last character. -/
def endPlace (text : Text) : Place :=
  match (Text.lineContents text).getLast? with
  | none => ⟨1, 1⟩
  | some last => ⟨(Text.lineContents text).length, last.length + 1⟩

def causeOf (cause : Text) : Text :=
  if cause.isEmpty then "invalid TOML" else cause

/-- The cause and the place told by a report on a text; nothing, if a number in
the place has too many digits. -/
def readReport? (text reportText : Text) : Option (Text × Option Place) :=
  match findPlace? reportText with
  | some (before, written) =>
      written.read?.map fun place => (causeOf (Text.stripEnd before), some place)
  | none =>
      if Text.hasPart endText reportText then
        some (causeOf (Text.stripEnd (Text.replaceAll endText [] reportText)),
          some (endPlace text))
      else
        some (causeOf reportText, none)

/-- Why a document cannot be read in which reading stopped. -/
def failureOf (source : String) (text lines : Text) (found : Stop) : ReadFailure :=
  match found.fault, readReport? text (report lines found) with
  | .longInteger, _ => .longInteger
  | _, none => .longInteger
  | _, some (cause, place) => .misread ⟨String.ofList cause, source, place⟩

def decode (source : String) (text : Text) :
    Except ReadFailure (Entries String Value) :=
  let lines := Text.unixLines text
  match document lines with
  | .ok entries => .ok entries
  | .error found => .error (failureOf source text lines found)

end Toml

end ApiWorkshop
