import ApiWorkshop.Text.Loose

/-!
# Paths

A path is a root and a list of names.  Empty names and single dots say nothing
and are dropped when a path is read; double dots are kept.  Exactly two leading
slashes are a root of their own.  A path need not have bytes, so its names are
loose texts.
-/

namespace ApiWorkshop

/-- Where a path starts. -/
inductive PathRoot where
  | relative
  | absolute
  | doubled
  deriving DecidableEq, Repr

/-- A path of the file tree. -/
structure Path where
  root : PathRoot := .relative
  names : List LooseText
  deriving DecidableEq, Repr

namespace Path

/-- The root that the front of a text shows. -/
def rootOf (text : LooseText) : PathRoot :=
  match text with
  | .char '/' :: .char '/' :: .char '/' :: _ => .absolute
  | .char '/' :: .char '/' :: _ => .doubled
  | .char '/' :: _ => .absolute
  | _ => .relative

/-- The names between the slashes of a text. -/
def namesOf (text : LooseText) : List LooseText :=
  (Text.pieces (.char '/') text).filter fun name => !name.isEmpty && name != [.char '.']

def ofText (text : LooseText) : Path :=
  ⟨rootOf text, namesOf text⟩

/-- Reads a path that is a string. -/
def ofString (text : String) : Path :=
  ofText text

def rootText : PathRoot → String
  | .relative => ""
  | .absolute => "/"
  | .doubled => "//"

/-- The text of a path; the empty path is a single dot. -/
def text (path : Path) : LooseText :=
  if path.root = .relative && path.names.isEmpty then
    "."
  else
    rootText path.root ++ List.intercalate [.char '/'] path.names

/-- The string that is shown for a path. -/
def label (path : Path) : String :=
  path.text.label

/-- The root, if there is one, and the names. -/
def parts (path : Path) : List LooseText :=
  if path.root = .relative then path.names else (rootText path.root : LooseText) :: path.names

/-- A path below another one; with a root of its own it stands alone. -/
def join (base path : Path) : Path :=
  if path.root = .relative then { base with names := base.names ++ path.names } else path

def name (path : Path) : LooseText :=
  path.names.getLastD []

/-- The last dot of a name and what follows it, unless the dot is the first or
the last character. -/
def suffixOf (name : Text) : Text :=
  let afterDot := (name.reverse.takeWhile (· != '.')).reverse
  let size := afterDot.length + 1
  if name.length ≤ size || afterDot.isEmpty then [] else name.drop (name.length - size)

/-- The suffix of the last name of a path. -/
def suffix (path : Path) : Text :=
  suffixOf path.name.shown

end Path

end ApiWorkshop
