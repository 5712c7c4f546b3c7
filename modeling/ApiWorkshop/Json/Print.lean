import ApiWorkshop.Json.Basic
import ApiWorkshop.Number.Shortest
import ApiWorkshop.Value.Literal

/-!
# Writing JSON

Data is written over several lines with an indentation of two spaces; empty
arrays and objects stay on one line.  Characters outside ASCII are written as
they are or, on demand, as escapes of their UTF-16 units; half of a surrogate
pair is always an escape, so what is written has bytes.
-/

namespace ApiWorkshop

namespace Json

/-- Which characters of a string are escaped besides quotation marks,
backslashes and control characters. -/
inductive Charset where
  | unicode
  | ascii
  deriving DecidableEq, Repr

def unitEscape (unit : Nat) : Text :=
  '\\' :: 'u' :: Text.paddedHex 4 unit

/-- A character as escapes of its UTF-16 units. -/
def unitEscapes (c : Char) : Text :=
  if c.toNat < 0x10000 then
    unitEscape c.toNat
  else
    let rest := c.toNat - 0x10000
    unitEscape (0xD800 + rest / 0x400) ++ unitEscape (0xDC00 + rest % 0x400)

/-- A character as it is written in a string. -/
def character (charset : Charset) (c : Char) : Text :=
  match c with
  | '"' => ['\\', '"']
  | '\\' => ['\\', '\\']
  | '\n' => ['\\', 'n']
  | '\r' => ['\\', 'r']
  | '\t' => ['\\', 't']
  | '\x08' => ['\\', 'b']
  | '\x0c' => ['\\', 'f']
  | c =>
      if c.toNat < 32 then
        unitEscape c.toNat
      else if 127 ≤ c.toNat && charset = .ascii then
        unitEscapes c
      else
        [c]

/-- A code point as it is written in a string. -/
def codePoint (charset : Charset) : CodePoint → Text
  | .char c => character charset c
  | .half place => unitEscape (CodePoint.half place).code

def string (charset : Charset) (text : LooseText) : Text :=
  '"' :: text.flatMap (codePoint charset) ++ ['"']

/-- A line break with the indentation of a depth. -/
def newLine (depth : Nat) : Text :=
  '\n' :: List.replicate (2 * depth) ' '

mutual

/-- A value at a depth of nesting. -/
def value (charset : Charset) (depth : Nat) : JsonValue → Text
  | .null => "null"
  | .bool part => if part then "true" else "false"
  | .int part => Scalar.intText part
  | .float part => part.textWith "NaN" "Infinity"
  | .string part => string charset part
  | .array [] => "[]"
  | .array items => "[" ++ itemLines charset (depth + 1) items ++ newLine depth ++ "]"
  | .object [] => "\x7b\x7d"
  | .object entries =>
      "\x7b" ++ entryLines charset (depth + 1) entries ++ newLine depth ++ "\x7d"

/-- The items of an array, each on lines of its own. -/
def itemLines (charset : Charset) (depth : Nat) : List JsonValue → Text
  | [] => []
  | [item] => newLine depth ++ value charset depth item
  | item :: next :: items =>
      newLine depth ++ value charset depth item ++ "," ++
        itemLines charset depth (next :: items)

/-- The entries of an object, each on lines of its own. -/
def entryLines (charset : Charset) (depth : Nat) : List (LooseText × JsonValue) → Text
  | [] => []
  | [(key, inner)] =>
      newLine depth ++ string charset key ++ ": " ++ value charset depth inner
  | (key, inner) :: next :: entries =>
      newLine depth ++ string charset key ++ ": " ++ value charset depth inner ++ "," ++
        entryLines charset depth (next :: entries)

end

/-- Data as a JSON text that ends in a line break. -/
def document (charset : Charset) (content : JsonValue) : Text :=
  value charset 0 content ++ "\n"

/-- Plain data as a JSON text that ends in a line break. -/
def documentOf (content : Value) : Except Unwritable Text := do
  let content ← JsonValue.ofValue content
  .ok (document .unicode content)

end Json

end ApiWorkshop
