import ApiWorkshop.Toml.Scalars

/-!
# Values of a configuration document

Arrays may spread over lines and hold comments; inline tables stand on a line
and have no comma after their last pair.  An array or inline table inside an
inline table is sealed: no later dotted key may reach into it.
-/

namespace ApiWorkshop

namespace Toml

/-- Skips spaces, line ends and comments; the flag says that the text starts
inside a comment. -/
def skipTrivia : Bool → Text → Except Stop Text
  | _, [] => .ok []
  | false, c :: rest =>
      if isSpaceOrLine c then
        skipTrivia false rest
      else if c = '#' then
        skipTrivia true rest
      else
        .ok (c :: rest)
  | true, c :: rest =>
      if c = '\n' then
        skipTrivia false rest
      else if isControl c then
        stop (.invalidCharacter c) (c :: rest)
      else
        skipTrivia true rest

/-- Whether a key is sealed: it or a table around it was closed for good. -/
def isSealed (sealedKeys : List Key) (key : Key) : Bool :=
  sealedKeys.any (·.isPrefixOf key)

/-- Whether a value is an array or a table. -/
def isContainer : Value → Bool
  | .scalar _ => false
  | _ => true

/-- Changes the table at a path of keys, making the tables that are missing.
With `throughArrays` a step onto an array of tables leads to its last table. -/
def changeTable (throughArrays : Bool)
    (change : Entries String Value → Except Fault (Entries String Value)) :
    Key → Entries String Value → Except Fault (Entries String Value)
  | [], entries => change entries
  | name :: path, entries =>
      match Entries.get? name entries with
      | none => do
          let inner ← changeTable throughArrays change path []
          .ok (Entries.put name (.table inner) entries)
      | some (.table inner) => do
          let inner ← changeTable throughArrays change path inner
          .ok (Entries.put name (.table inner) entries)
      | some (.array items) =>
          match throughArrays, items.getLast? with
          | true, some (.table inner) => do
              let inner ← changeTable throughArrays change path inner
              .ok (Entries.put name (.array (items.dropLast ++ [.table inner])) entries)
          | _, _ => .error .overwrittenValue
      | some _ => .error .overwrittenValue

/-- Adds a value under a new name to a table; the fault is for a name that is
taken. -/
def addNew (taken : Fault) (name : String) (value : Value) (entries : Entries String Value) :
    Except Fault (Entries String Value) :=
  if Entries.hasKey name entries then .error taken else .ok (entries ++ [(name, value)])

/-- Adds a pair to an inline table. -/
def addInlinePair (sealedKeys : List Key) (key : Key) (value : Value)
    (entries : Entries String Value) : Except Fault (Entries String Value) :=
  let name := key.getLastD ""
  if isSealed sealedKeys key then
    .error (.sealedNamespace key)
  else
    changeTable false (addNew (.duplicateName name) name value) key.dropLast entries

/-- A fault in front of a text ends the reading there. -/
def stoppedAt {α : Type} (rest : Text) : Except Fault α → Except Stop α
  | .ok value => .ok value
  | .error fault => stop fault rest

mutual

/-- Reads a value.  The number bounds the depth of nesting together with the
number of items; twice the length of the text is enough. -/
def valueIn : Nat → Text → Except Stop (Value × Text)
  | 0, text => stop .invalidValue text
  | steps + 1, text =>
      match text with
      | '"' :: rest => do
          let (inside, rest) ← stringValue '"' rest
          .ok (.string (String.ofList inside), rest)
      | '\x27' :: rest => do
          let (inside, rest) ← stringValue '\x27' rest
          .ok (.string (String.ofList inside), rest)
      | '[' :: rest => do
          let rest ← skipTrivia false rest
          let (items, rest) ← itemsIn steps rest
          .ok (.array items, rest)
      | '\x7b' :: rest =>
          match skipSpaces rest with
          | '\x7d' :: rest => .ok (.table [], rest)
          | rest => do
              let (entries, rest) ← pairsIn steps [] [] rest
              .ok (.table entries, rest)
      | _ => scalarValue text

/-- Reads the remaining items of an array and its closing bracket. -/
def itemsIn : Nat → Text → Except Stop (List Value × Text)
  | 0, text => stop .unclosedArray text
  | steps + 1, text =>
      match text with
      | ']' :: rest => .ok ([], rest)
      | _ => do
          let (item, rest) ← valueIn steps text
          let rest ← skipTrivia false rest
          match rest with
          | ']' :: rest => .ok ([item], rest)
          | ',' :: rest => do
              let rest ← skipTrivia false rest
              let (items, rest) ← itemsIn steps rest
              .ok (item :: items, rest)
          | rest => stop .unclosedArray rest

/-- Reads the remaining pairs of an inline table and its closing brace. -/
def pairsIn : Nat → List Key → Entries String Value → Text → Except Stop (Entries String Value × Text)
  | 0, _, _, text => stop .unclosedInlineTable text
  | steps + 1, sealedKeys, entries, text => do
      let ((key, value), rest) ← keyValueIn steps text
      let entries ← stoppedAt rest (addInlinePair sealedKeys key value entries)
      match skipSpaces rest with
      | '\x7d' :: rest => .ok (entries, rest)
      | ',' :: rest =>
          let sealedKeys := if isContainer value then key :: sealedKeys else sealedKeys
          pairsIn steps sealedKeys entries (skipSpaces rest)
      | rest => stop .unclosedInlineTable rest

/-- Reads a key, an equals sign and a value. -/
def keyValueIn : Nat → Text → Except Stop ((Key × Value) × Text)
  | 0, text => stop .invalidValue text
  | steps + 1, text => do
      let (key, rest) ← key text
      match rest with
      | '=' :: rest => do
          let (value, rest) ← valueIn steps (skipSpaces rest)
          .ok ((key, value), rest)
      | rest => stop .expectedEquals rest

end

/-- Reads a key, an equals sign and a value. -/
def keyValue (text : Text) : Except Stop ((Key × Value) × Text) :=
  keyValueIn (3 * text.length + 3) text

end Toml

end ApiWorkshop
