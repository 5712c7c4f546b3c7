import ApiWorkshop.Text.Quoted

/-!
# Faults of a configuration document

A document is read from left to right.  Reading stops at the first fault, and
the text that is not read yet tells where.
-/

namespace ApiWorkshop

namespace Toml

abbrev Key := List String

/-- What can be wrong with a document. -/
inductive Fault where
  | invalidStatement
  | expectedLineEnd
  | expectedEquals
  | invalidKeyStart
  | invalidValue
  | invalidDate
  | openTableHeader
  | openArrayHeader
  | unclosedArray
  | unclosedInlineTable
  | unterminatedString
  | expectedMark (mark : String)
  | illegalCharacter (c : Char)
  | invalidCharacter (c : Char)
  | strayBackslash
  | invalidHex
  | notScalarValue
  | overwrittenValue
  | redefinedNamespace (key : Key)
  | sealedNamespace (key : Key)
  | declaredTwice (key : Key)
  | duplicateName (name : String)
  | longInteger
  deriving DecidableEq, Repr

/-- A key as a literal tuple: a single part keeps a comma after it. -/
def keyText (key : Key) : String :=
  match key with
  | [part] => "(" ++ quotedName part ++ ",)"
  | parts => "(" ++ String.intercalate ", " (parts.map quotedName) ++ ")"

def characterText (c : Char) : String :=
  quotedName (String.ofList [c])

namespace Fault

def message : Fault → String
  | invalidStatement => "Invalid statement"
  | expectedLineEnd => "Expected newline or end of document after a statement"
  | expectedEquals => "Expected '=' after a key in a key/value pair"
  | invalidKeyStart => "Invalid initial character for a key part"
  | invalidValue => "Invalid value"
  | invalidDate => "Invalid date or datetime"
  | openTableHeader => "Expected ']' at the end of a table declaration"
  | openArrayHeader => "Expected ']]' at the end of an array declaration"
  | unclosedArray => "Unclosed array"
  | unclosedInlineTable => "Unclosed inline table"
  | unterminatedString => "Unterminated string"
  | expectedMark mark => s!"Expected {quotedName mark}"
  | illegalCharacter c => s!"Illegal character {characterText c}"
  | invalidCharacter c => s!"Found invalid character {characterText c}"
  | strayBackslash => "Unescaped '\\' in a string"
  | invalidHex => "Invalid hex value"
  | notScalarValue => "Escaped character is not a Unicode scalar value"
  | overwrittenValue => "Cannot overwrite a value"
  | redefinedNamespace key => s!"Cannot redefine namespace {keyText key}"
  | sealedNamespace key => s!"Cannot mutate immutable namespace {keyText key}"
  | declaredTwice key => s!"Cannot declare {keyText key} twice"
  | duplicateName name => s!"Duplicate inline table key {quotedName name}"
  | longInteger => "An integer has too many digits"

end Fault

/-- A fault together with the text that was not read yet. -/
structure Stop where
  fault : Fault
  rest : Text
  deriving DecidableEq, Repr

/-- Stops with a fault in front of a text. -/
def stop {α : Type} (fault : Fault) (rest : Text) : Except Stop α :=
  .error ⟨fault, rest⟩

end Toml

end ApiWorkshop
