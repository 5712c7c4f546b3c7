import ApiWorkshop.Text.Lines
import ApiWorkshop.Toml.Values

/-!
# Configuration documents

A document is a sequence of statements: pairs of a key and a value, and headers
that open a table or add a table to an array.  Three sets of keys keep a table
from being opened or extended twice: the sealed keys of inline arrays and
tables, the keys declared by a header, and the tables made by dotted keys,
which count as declared from the next header on.
-/

namespace ApiWorkshop

namespace Toml

/-- The part of a document that has been read. -/
structure Builder where
  entries : Entries String Value := []
  /-- The key of the header in force. -/
  header : Key := []
  /-- The keys of inline arrays and tables. -/
  sealedKeys : List Key := []
  /-- The keys that a header may not open again. -/
  declaredKeys : List Key := []
  /-- The keys that become declared at the next header. -/
  pendingKeys : List Key := []

namespace Builder

/-- The dotted keys that lead to the table of a pair, below a header. -/
def tableKeys (header key : Key) : List Key :=
  (List.range (key.length - 1)).map fun size => header ++ key.take (size + 1)

/-- Adds a pair under the header in force. -/
def addPair (key : Key) (value : Value) (builder : Builder) : Except Fault Builder :=
  let table := builder.header ++ key.dropLast
  match (tableKeys builder.header key).find? (builder.declaredKeys.contains ·) with
  | some redefined => .error (.redefinedNamespace redefined)
  | none =>
      if isSealed builder.sealedKeys table then
        .error (.sealedNamespace table)
      else do
        let entries ← changeTable true
          (addNew .overwrittenValue (key.getLastD "") value) table builder.entries
        .ok { builder with
          entries
          sealedKeys :=
            if isContainer value then
              (builder.header ++ key) :: builder.sealedKeys
            else
              builder.sealedKeys
          pendingKeys := tableKeys builder.header key ++ builder.pendingKeys }

/-- The tables made by dotted keys count as declared. -/
def settle (builder : Builder) : Builder :=
  { builder with
    declaredKeys := builder.pendingKeys ++ builder.declaredKeys
    pendingKeys := [] }

def openTable (key : Key) (builder : Builder) : Except Fault Builder :=
  if builder.declaredKeys.contains key || isSealed builder.sealedKeys key then
    .error (.declaredTwice key)
  else do
    let entries ← changeTable true .ok key builder.entries
    .ok { builder with
      entries
      header := key
      declaredKeys := key :: builder.declaredKeys }

/-- Adds an empty table to an array of tables. -/
def appendTable (name : String) (entries : Entries String Value) :
    Except Fault (Entries String Value) :=
  match Entries.get? name entries with
  | none => .ok (entries ++ [(name, .array [.table []])])
  | some (.array items) => .ok (Entries.put name (.array (items ++ [.table []])) entries)
  | some _ => .error .overwrittenValue

/-- Opens a new table of an array; what was known of the tables inside the
previous one is forgotten. -/
def openItem (key : Key) (builder : Builder) : Except Fault Builder :=
  if isSealed builder.sealedKeys key then
    .error (.sealedNamespace key)
  else do
    let entries ← changeTable true (appendTable (key.getLastD "")) key.dropLast builder.entries
    .ok { builder with
      entries
      header := key
      sealedKeys := builder.sealedKeys.filter (!key.isPrefixOf ·)
      declaredKeys := key :: builder.declaredKeys.filter (!key.isPrefixOf ·) }

end Builder

/-- Skips a comment up to the end of its line. -/
def skipComment (text : Text) : Except Stop Text :=
  match text with
  | '#' :: rest =>
      let comment := rest.takeWhile (· != '\n')
      match comment.find? isControl with
      | some c => stop (.invalidCharacter c) (rest.dropWhile (!isControl ·))
      | none => .ok (rest.dropWhile (· != '\n'))
  | text => .ok text

/-- Reads the end of a statement: spaces, a comment and a line end. -/
def statementEnd (text : Text) : Except Stop Text := do
  let rest ← skipComment (skipSpaces text)
  match rest with
  | [] => .ok []
  | '\n' :: rest => .ok rest
  | rest => stop .expectedLineEnd rest

def statement (builder : Builder) (text : Text) : Except Stop (Builder × Text) :=
  match text with
  | '[' :: '[' :: rest => do
      let (key, rest) ← key (skipSpaces rest)
      let builder ← stoppedAt rest (builder.settle.openItem key)
      match rest with
      | ']' :: ']' :: rest => .ok (builder, rest)
      | rest => stop .openArrayHeader rest
  | '[' :: rest => do
      let (key, rest) ← key (skipSpaces rest)
      let builder ← stoppedAt rest (builder.settle.openTable key)
      match rest with
      | ']' :: rest => .ok (builder, rest)
      | rest => stop .openTableHeader rest
  | '#' :: rest => .ok (builder, '#' :: rest)
  | c :: rest =>
      if isBareKey c || c = '"' || c = '\x27' then do
        let ((key, value), after) ← keyValue (c :: rest)
        let builder ← stoppedAt after (builder.addPair key value)
        .ok (builder, after)
      else
        stop .invalidStatement (c :: rest)
  | [] => .ok (builder, [])

/-- Reads statements to the end of the text, in at most a number of steps; every
step takes up a character. -/
def statements : Nat → Builder → Text → Except Stop Builder
  | 0, builder, _ => .ok builder
  | steps + 1, builder, text =>
      match skipSpaces text with
      | [] => .ok builder
      | '\n' :: rest => statements steps builder rest
      | text => do
          let (builder, rest) ← statement builder text
          let rest ← statementEnd rest
          statements steps builder rest

/-- Reads a document whose lines end in line feeds. -/
def document (text : Text) : Except Stop (Entries String Value) := do
  let builder ← statements (text.length + 1) {} text
  .ok builder.entries

end Toml

end ApiWorkshop
