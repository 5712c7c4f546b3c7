import ApiWorkshop.Region.Marker

/-!
# Finding regions

The marker lines of a text make regions when each line that begins a region is
followed by the line that ends it, and no name comes twice.  A region is given
by the offsets of its body: the first character after the line that begins it
and the first character of the line that ends it.
-/

namespace ApiWorkshop

/-- A marker line of a text: its number, counted from one, and the offsets of
its first character and of the first character after it. -/
structure MarkerLine where
  marker : Marker
  number : Nat
  start : Nat
  stop : Nat
  deriving DecidableEq, Repr

/-- A region of a text by the offsets of its body. -/
structure Region where
  name : String
  start : Nat
  stop : Nat
  deriving DecidableEq, Repr

/-- Why the markers of a file do not make regions, or not the one asked for. -/
inductive ConflictKind where
  | nested (line : Nat) (name opened : String)
  | repeated (line : Nat) (name : String)
  | unexpectedEnd (line : Nat) (name : String) (opened : Option String)
  | unclosed (name : String)
  | missing (name : String)
  deriving DecidableEq, Repr

/-- A conflict over the markers of a file. -/
structure Conflict where
  path : String
  kind : ConflictKind
  deriving DecidableEq, Repr

namespace Conflict

/-- The region that a conflict is about. -/
def region (conflict : Conflict) : String :=
  match conflict.kind with
  | .nested _ name _ => name
  | .repeated _ name => name
  | .unexpectedEnd _ name _ => name
  | .unclosed name => name
  | .missing name => name

def message (conflict : Conflict) : String :=
  let path := conflict.path
  match conflict.kind with
  | .nested line name opened =>
      s!"{path}:{line}: region '{name}' starts inside region '{opened}'"
  | .repeated line name => s!"{path}:{line}: region '{name}' appears twice"
  | .unexpectedEnd line name (some opened) =>
      s!"{path}:{line}: unexpected end of region '{name}' (end of '{opened}')"
  | .unexpectedEnd line name none =>
      s!"{path}:{line}: unexpected end of region '{name}' (no open region)"
  | .unclosed name => s!"{path}: region '{name}' is never closed"
  | .missing name => s!"{path}: region '{name}' not found"

end Conflict

namespace Region

/-- Whether a character is one of those dropped from the end of a line before
it is read as a marker. -/
def isLineEnd (c : Char) : Bool := c = '\r' || c = '\n'

/-- The marker lines among lines that start at an offset and are numbered from
`number` on. -/
def markerLinesFrom (style : CommentStyle) : Nat → Nat → List Text → List MarkerLine
  | _, _, [] => []
  | number, offset, line :: lines =>
      let next := offset + line.length
      let rest := markerLinesFrom style (number + 1) next lines
      match Marker.ofLine? style (Text.trimEnd isLineEnd line) with
      | some marker => ⟨marker, number, offset, next⟩ :: rest
      | none => rest

def markerLines (style : CommentStyle) (text : Text) : List MarkerLine :=
  markerLinesFrom style 1 0 (Text.lines text)

/-- The regions that marker lines make after those found so far; of an open
region the name and the offset of its body are kept. -/
def regionsFrom : Option (String × Nat) → List Region → List MarkerLine →
    Except ConflictKind (List Region)
  | none, found, [] => .ok found
  | some (name, _), _, [] => .error (.unclosed name)
  | opened, found, line :: lines =>
      let name := line.marker.name
      match line.marker.boundary, opened with
      | .opening, some (opened, _) => .error (.nested line.number name opened)
      | .opening, none =>
          if found.any (·.name = name) then
            .error (.repeated line.number name)
          else
            regionsFrom (some (name, line.stop)) found lines
      | .closing, none => .error (.unexpectedEnd line.number name none)
      | .closing, some (opened, start) =>
          if opened = name then
            regionsFrom none (found ++ [⟨name, start, line.start⟩]) lines
          else
            .error (.unexpectedEnd line.number name (some opened))

/-- The body of a region of a text of any kind. -/
def body {α : Type} (text : List α) (region : Region) : List α :=
  (text.take region.stop).drop region.start

end Region

/-- The regions of the text of a file, in order. -/
def findRegions (path : String) (text : Text) : Except Conflict (List Region) :=
  match Region.regionsFrom none [] (Region.markerLines (CommentStyle.ofPath path) text) with
  | .ok regions => .ok regions
  | .error kind => .error ⟨path, kind⟩

end ApiWorkshop
