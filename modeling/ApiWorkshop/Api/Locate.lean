import ApiWorkshop.Api.KeyPath
import ApiWorkshop.SourceError
import ApiWorkshop.Text.Classes
import ApiWorkshop.Text.Lines

/-!
# Locating a key path in a text

Reading a document does not keep positions, so an error in a value is located
by looking through the text again.  Table headers narrow the search to a block
of lines; then an assignment in the block, or a key inside an inline table on
its line, gives the column.  The last position found on the way counts.
-/

namespace ApiWorkshop

namespace Locate

/-- A table header in a text: the index of its line, its dotted name without
blanks and quotation marks, and whether it adds to an array. -/
structure Header where
  line : Nat
  name : String
  isArray : Bool
  deriving DecidableEq, Repr

/-- The dotted name between the brackets of a header. -/
def headerName (inside : Text) : String :=
  let parts := (Text.pieces '.' inside).map fun piece =>
    Text.trim (fun c => c = '"' || c = '\x27') (Text.strip piece)
  String.ofList (List.intercalate ['.'] parts)

def isBracket (c : Char) : Bool := c = '[' || c = ']'

/-- What a line says as a header: its name and whether it adds to an array.
After the closing bracket only blanks and a comment may follow. -/
def header? (line : Text) : Option (String × Bool) := do
  let rest ← Text.after? ['['] (Text.stripStart line)
  let isArray := rest.head? = some '['
  let rest := if isArray then rest.drop 1 else rest
  let inside := rest.takeWhile (!isBracket ·)
  let rest ← Text.after? [']'] (rest.dropWhile (!isBracket ·))
  let rest := if rest.head? = some ']' then rest.drop 1 else rest
  match inside, Text.stripStart rest with
  | [], _ => none
  | _, [] => some (headerName inside, isArray)
  | _, '#' :: _ => some (headerName inside, isArray)
  | _, _ => none

/-- The headers among lines that are numbered from `line` on. -/
def headersFrom : Nat → List Text → List Header
  | _, [] => []
  | line, content :: lines =>
      match header? content with
      | some (name, isArray) => ⟨line, name, isArray⟩ :: headersFrom (line + 1) lines
      | none => headersFrom (line + 1) lines

/-- The lines of a text with the headers among them. -/
structure Index where
  lines : List Text
  headers : List Header

def index (text : Text) : Index :=
  let lines := Text.lineContents text
  { lines, headers := headersFrom 0 lines }

/-- A position: the index of a line and the offset of a character in it. -/
structure Position where
  line : Nat
  offset : Nat
  deriving DecidableEq, Repr

/-- The number of blanks at the start of a line. -/
def indent (line : Text) : Nat :=
  (line.takeWhile Text.isBlank).length

/-- Whether an equals sign follows, perhaps after blanks. -/
def assigns (rest : Text) : Bool :=
  (Text.stripStart rest).head? = some '='

/-- Whether a text starts with a key, bare or between equal quotation marks,
and an equals sign. -/
def startsAssignment (key text : Text) : Bool :=
  (match text with
    | mark :: rest =>
        (mark = '"' || mark = '\x27') &&
          (match Text.after? (key ++ [mark]) rest with
            | some rest => assigns rest
            | none => false)
    | [] => false) ||
    (match Text.after? key text with
      | some rest => assigns rest
      | none => false)

/-- The offset of the first assignment to a key in a text.  A key stands at the
start of the line or after a blank, a brace or a comma; the flag says whether
the text follows one of these, and the number is the offset of the text. -/
def findKeyFrom? (key : Text) : Bool → Nat → Text → Option Nat
  | canStart, offset, text =>
      if canStart && startsAssignment key text then
        some offset
      else
        match text with
        | [] => none
        | c :: rest =>
            findKeyFrom? key (Text.isBlank c || c = '\x7b' || c = ',') (offset + 1) rest

/-- The offset of the first assignment to a key in a line. -/
def findKey? (key : Text) (line : Text) : Option Nat :=
  findKeyFrom? key true 0 line

namespace Index

def lineAt (index : Index) (line : Nat) : Text :=
  index.lines.getD line []

/-- The position of a header: its opening bracket. -/
def headerPosition (index : Index) (header : Header) : Position :=
  ⟨header.line, indent (index.lineAt header.line)⟩

/-- The header of the table with a given position in an array of tables. -/
def itemHeader? (index : Index) (name : String) (position : Nat) : Option Header :=
  (index.headers.filter fun header => header.isArray && header.name = name)[position]?

/-- The first header of a name at or after a line. -/
def headerFrom? (index : Index) (name : String) (line : Nat) : Option Header :=
  index.headers.find? fun header => line ≤ header.line && header.name = name

/-- Whether there is a header below a dotted name. -/
def hasHeaderBelow (index : Index) (name : String) : Bool :=
  index.headers.any fun header => (s!"{name}.").toList.isPrefixOf header.name.toList

/-- Whether a line starts with a key, bare or with a quotation mark on either
side. -/
def startsWithKey (key content : Text) : Bool :=
  key.isPrefixOf content || ('"' :: key ++ ['"']).isPrefixOf content ||
    ('\x27' :: key ++ ['\x27']).isPrefixOf content

/-- The position of the assignment to a key at the start of one of some lines,
which are numbered from `line` on; a header ends the search. -/
def keyInLines? (key : Text) : Nat → List Text → Option Position
  | _, [] => none
  | line, content :: lines =>
      if (header? content).isSome then
        none
      else
        let start := indent content
        if startsWithKey key (content.drop start) && findKey? key content = some start then
          some ⟨line, start⟩
        else
          keyInLines? key (line + 1) lines

/-- The position of the assignment to a key in the block that starts at a
line. -/
def keyInBlock? (index : Index) (key : String) (line : Nat) : Option Position :=
  keyInLines? key.toList line (index.lines.drop line)

end Index

/-- Where the search for a path stands: the dotted name and the first line of
the block reached, the position found last, and the line of the inline value
that the rest of the path leads into. -/
structure Search where
  name : String := ""
  line : Nat := 0
  found : Option Position := none
  inline? : Option Nat := none

namespace Search

/-- The search after a step into an inline value on a line. -/
def stepInline (index : Index) (line : Nat) (search : Search) : PathStep → Search
  | .index _ => search
  | .name name =>
      match findKey? name.toList (index.lineAt line) with
      | some offset => { search with found := some ⟨line, offset⟩ }
      | none => search

/-- The search after a step to an item of an array of tables. -/
def stepItem (index : Index) (position : Nat) (search : Search) : Search :=
  match index.itemHeader? search.name position with
  | some header =>
      { search with line := header.line + 1, found := some (index.headerPosition header) }
  | none => search

/-- The search after a step to a name; there is none when the name is not
found. -/
def stepName? (index : Index) (name : String) (search : Search) : Option Search :=
  let full := if search.name.isEmpty then name else s!"{search.name}.{name}"
  match index.headerFrom? full search.line with
  | some header =>
      some { search with
        name := full
        line := header.line + 1
        found := some (index.headerPosition header) }
  | none =>
      if index.hasHeaderBelow full then
        some { search with name := full }
      else
        match index.keyInBlock? name search.line with
        | some position =>
            some { search with found := some position, inline? := some position.line }
        | none => none

/-- The position found last on the way along a path. -/
def follow (index : Index) : KeyPath → Search → Option Position
  | [], search => search.found
  | step :: path, search =>
      match search.inline?, step with
      | some line, step => follow index path (stepInline index line search step)
      | none, .index position => follow index path (stepItem index position search)
      | none, .name name =>
          match stepName? index name search with
          | some search => follow index path search
          | none => search.found

end Search

/-- The place of a key path in a text, as far as it can be told. -/
def place? (text : Text) (path : KeyPath) : Option Place :=
  (Search.follow (index text) path {}).map fun position =>
    ⟨position.line + 1, position.offset + 1⟩

end Locate

end ApiWorkshop
