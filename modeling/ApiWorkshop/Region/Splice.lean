import ApiWorkshop.Region.Find

/-!
# Splicing regions

Splicing replaces the body of a region and keeps everything else, the marker
lines included.  The new body takes over the line ends of the file, and the
line that ends the region stays on a line of its own.
-/

namespace ApiWorkshop

namespace Region

/-- Whether the lines of a text end in pairs of carriage return and line feed,
at least some of them. -/
def usesPairs (text : Text) : Bool :=
  Text.hasPart ['\r', '\n'] text

def lineEnd (text : Text) : Text :=
  if usesPairs text then ['\r', '\n'] else ['\n']

/-- A text that ends in a line feed unless it is empty. -/
def terminated (text : Text) : Text :=
  match text.getLast? with
  | none => []
  | some c => if c = '\n' then text else text ++ ['\n']

/-- A text with every line feed written as a given line end. -/
def withLineEnd (ending : Text) (text : Text) : Text :=
  text.flatMap fun c => if c = '\n' then ending else [c]

/-- Content as the body of a region in a file with a given line end. -/
def bodyFor (ending content : Text) : Text :=
  withLineEnd ending (terminated (Text.unixLines content))

/-- A text with the body of a region replaced. -/
def replaceBody (text : Text) (region : Region) (body : Text) : Text :=
  text.take region.start ++ body ++ text.drop region.stop

/-- A text with content as the body of a region. -/
def splice (text : Text) (region : Region) (content : Text) : Text :=
  replaceBody text region (bodyFor (lineEnd text) content)

end Region

/-- The text of a file with the body of a region replaced by content. -/
def spliceRegion (path : String) (text : Text) (name : String) (content : Text) :
    Except Conflict Text := do
  let regions ← findRegions path text
  match regions.find? (·.name = name) with
  | none => .error ⟨path, .missing name⟩
  | some region => .ok (Region.splice text region content)

end ApiWorkshop
