import ApiWorkshop.Api.StructureFault

/-!
# Reading entries of a table

Every table of a definition allows a fixed set of keys, and the value under a
key has a fixed kind.  Each function here reads one kind of value and tells
where another kind stands in its place.
-/

namespace ApiWorkshop

namespace Entry

abbrev Table := Entries String Value

/-- Refuses a table with a key that is not allowed in it. -/
def checkKeys (allowed : List String) (path : KeyPath) : Table → Except Misplaced Unit
  | [] => .ok ()
  | (key, _) :: entries =>
      if key ∈ allowed then
        checkKeys allowed path entries
      else
        let container := if path.text.isEmpty then "top level" else path.text
        misplaced (.unknownKey key container) (path.child key)

/-- Reads a value that must be a table. -/
def table (path : KeyPath) : Value → Except Misplaced Table
  | .table entries => .ok entries
  | other => misplaced (.expectedTable other.kindName) path

/-- Reads a value that must be a string. -/
def string (path : KeyPath) : Value → Except Misplaced String
  | .string value => .ok value
  | other => misplaced (.expectedString other.kindName) path

/-- Reads the string under a key, if there is something. -/
def string? (entries : Table) (key : String) (path : KeyPath) :
    Except Misplaced (Option String) :=
  match Entries.get? key entries with
  | none => .ok none
  | some value => do
      let value ← string (path.child key) value
      .ok (some value)

/-- Reads the truth value under a key, or takes the usual one. -/
def bool (entries : Table) (key : String) (usual : Bool) (path : KeyPath) :
    Except Misplaced Bool :=
  match Entries.get? key entries with
  | none => .ok usual
  | some (.bool value) => .ok value
  | some other => misplaced (.expectedBoolean other.kindName) (path.child key)

/-- Reads items that must be strings, numbered from `index` on. -/
def stringsFrom (path : KeyPath) : Nat → List Value → Except Misplaced (List String)
  | _, [] => .ok []
  | index, item :: items => do
      let first ← string (path.item index) item
      let rest ← stringsFrom path (index + 1) items
      .ok (first :: rest)

/-- Reads a value that must be an array of strings. -/
def strings (path : KeyPath) : Value → Except Misplaced (List String)
  | .array items => stringsFrom path 0 items
  | other => misplaced (.expectedStrings other.kindName) path

/-- Reads the strings under a key, or none if there is nothing. -/
def stringsAt (entries : Table) (key : String) (path : KeyPath) :
    Except Misplaced (List String) :=
  match Entries.get? key entries with
  | none => .ok []
  | some value => strings (path.child key) value

/-- Reads the array under a key, if there is something. -/
def array? (entries : Table) (key : String) (path : KeyPath) :
    Except Misplaced (Option (List Value)) :=
  match Entries.get? key entries with
  | none => .ok none
  | some (.array items) => .ok (some items)
  | some other => misplaced (.expectedArray other.kindName) (path.child key)

/-- The value under a key with its dates as text, if there is something. -/
def plain? (entries : Table) (key : String) : Option Value :=
  (Entries.get? key entries).map Value.plain

/-- The table under a key, or an empty one if there is nothing. -/
def tableAt (entries : Table) (key : String) (path : KeyPath) : Except Misplaced Table :=
  match Entries.get? key entries with
  | none => .ok []
  | some value => table (path.child key) value

end Entry

end ApiWorkshop
