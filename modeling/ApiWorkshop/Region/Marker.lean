import ApiWorkshop.Path
import ApiWorkshop.Text.Classes
import ApiWorkshop.Text.Letter
import ApiWorkshop.Text.Lines

/-!
# Region markers

Generated parts of a file stand between two marker lines.  A marker is a comment
in the syntax of the file that names the region and says whether it begins or
ends there.  Lines are read with some freedom about blanks; a region name
consists of word characters, dots and hyphens.
-/

namespace ApiWorkshop

/-- The delimiters of a comment. -/
structure CommentStyle where
  opening : Text
  closing : Text
  deriving DecidableEq, Repr

namespace CommentStyle

/-- Comments from a hash to the end of the line. -/
def hash : CommentStyle := ⟨"#", ""⟩

def markup : CommentStyle := ⟨"<!--", "-->"⟩

/-- Comments from two slashes to the end of the line. -/
def slashes : CommentStyle := ⟨"//", ""⟩

def block : CommentStyle := ⟨"/*", "*/"⟩

/-- The comments of files with a suffix in lower case. -/
def ofSuffix (suffix : String) : CommentStyle :=
  if suffix ∈ [".md", ".html", ".htm", ".xml"] then
    markup
  else if suffix ∈ [".js", ".jsx", ".ts", ".tsx", ".rs", ".go"] then
    slashes
  else if suffix ∈ [".css", ".scss"] then
    block
  else
    hash

def ofPath (path : String) : CommentStyle :=
  ofSuffix (String.ofList ((Path.ofString path).suffix.map Char.toLower))

end CommentStyle

/-- The two ends of a region. -/
inductive Boundary where
  | opening
  | closing
  deriving DecidableEq, Repr

/-- The word for a boundary in a marker. -/
def Boundary.word : Boundary → Text
  | .opening => "begin"
  | .closing => "end"

/-- What a marker line says. -/
structure Marker where
  boundary : Boundary
  name : String
  deriving DecidableEq, Repr

namespace Marker

/-- The word in front of every boundary. -/
def tag : Text := "specforge:"

/-- The line of a marker, without a line end. -/
def line (style : CommentStyle) (marker : Marker) : Text :=
  style.opening ++ " " ++ tag ++ marker.boundary.word ++ " " ++ marker.name ++
    (if style.closing.isEmpty then [] else ' ' :: style.closing)

/-- Whether a character may stand in the name of a region. -/
def isNameChar (c : Char) : Bool :=
  Text.isWordChar c || c = '.' || c = '-'

/-- The boundary at the front of a text and what follows it. -/
def boundary? (text : Text) : Option (Boundary × Text) :=
  match Text.after? Boundary.opening.word text with
  | some rest => some (.opening, rest)
  | none => (Text.after? Boundary.closing.word text).map fun rest => (.closing, rest)

/-- A region name that stands between blanks and the closing delimiter of a
comment. -/
def name? (style : CommentStyle) (text : Text) : Option String := do
  let named ← Text.before? style.closing (Text.trimEnd Text.isSpaceOrTab text)
  let name := Text.trim Text.isSpaceOrTab named
  if name.isEmpty || !name.all isNameChar then none else some (String.ofList name)

def ofLine? (style : CommentStyle) (line : Text) : Option Marker := do
  let rest ← Text.after? style.opening (line.dropWhile Text.isSpaceOrTab)
  let rest ← Text.after? tag (rest.dropWhile Text.isSpaceOrTab)
  let (boundary, rest) ← boundary? rest
  if (rest.head?.any Text.isSpaceOrTab) then
    let name ← name? style rest
    some ⟨boundary, name⟩
  else
    none

end Marker

/-- The marker line that begins a region of a file. -/
def beginMarker (path region : String) : Text :=
  Marker.line (CommentStyle.ofPath path) ⟨.opening, region⟩

/-- The marker line that ends a region of a file. -/
def endMarker (path region : String) : Text :=
  Marker.line (CommentStyle.ofPath path) ⟨.closing, region⟩

/-- A body between the marker lines of a region of a file. -/
def framed (path region : String) (body : Text) : Text :=
  beginMarker path region ++ ['\n'] ++ body ++ endMarker path region ++ ['\n']

end ApiWorkshop
