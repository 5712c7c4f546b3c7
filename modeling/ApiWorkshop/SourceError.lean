/-!
# Errors in a source

An error that stops the reading of a definition file names the file and, where
it is known, the line and column.  An integer with too many digits stops the
reading too, but nothing is told about it.
-/

namespace ApiWorkshop

/-- A line and a column of a text, both counted from one. -/
structure Place where
  line : Nat
  column : Nat
  deriving DecidableEq, Repr

/-- An error that stops the reading of a source. -/
structure SourceError where
  cause : String
  source : String
  place : Option Place
  deriving DecidableEq, Repr

namespace SourceError

/-- The source, with the line and column where they are known. -/
def location (error : SourceError) : String :=
  match error.place with
  | some place => s!"{error.source}:{place.line}:{place.column}"
  | none => error.source

def message (error : SourceError) : String :=
  s!"{error.location}: {error.cause}"

end SourceError

/-- Why a source cannot be read. -/
inductive ReadFailure where
  /-- There is an error in the source. -/
  | misread (error : SourceError)
  /-- An integer has too many digits. -/
  | longInteger
  deriving DecidableEq, Repr

end ApiWorkshop
