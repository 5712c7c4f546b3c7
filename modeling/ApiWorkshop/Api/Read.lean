import ApiWorkshop.Api.Extract
import ApiWorkshop.Api.Locate
import ApiWorkshop.Toml.Report

/-!
# Reading definition files

A definition file is decoded and then given the shape of a definition.  Faults
of either kind end in an error with a cause and, as far as it can be told, a
line and a column; only an integer with too many digits has neither.
-/

namespace ApiWorkshop

/-- The text of a definition file with the name that messages use for it. -/
structure SourceText where
  name : String
  text : Text
  deriving DecidableEq, Repr

namespace Definition

def read (file : SourceText) : Except ReadFailure Definition := do
  let document ← Toml.decode file.name file.text
  match Extract.definition file.name document with
  | .ok definition => .ok definition
  | .error ⟨.longInteger, _⟩ => .error .longInteger
  | .error found =>
      .error (.misread ⟨found.cause, file.name, Locate.place? file.text found.path⟩)

/-- Reads definition files in order up to the first error. -/
def readAll : List SourceText → Except ReadFailure (List Definition)
  | [] => .ok []
  | file :: files => do
      let first ← read file
      let rest ← readAll files
      .ok (first :: rest)

end Definition

end ApiWorkshop
