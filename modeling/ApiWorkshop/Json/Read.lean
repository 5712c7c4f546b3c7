import ApiWorkshop.Json.Basic

/-!
# Reading JSON

Of equal keys of an object the last one gives the value.  Besides the numbers of the
standard the words `NaN`, `Infinity` and `-Infinity` are read as floating-point numbers; a
number without fraction and exponent is an integer, which must not have too many digits.
Reading stops at the first fault.
-/

namespace ApiWorkshop

namespace Json

/-- Why a text cannot be read. -/
inductive Fault where
  /-- The text does not have the form of JSON. -/
  | malformed
  /-- An integer has too many digits. -/
  | longInteger
  deriving DecidableEq, Repr

/-- What an optional part gives; a text without it is malformed. -/
def needed {α : Type} : Option α → Except Fault α
  | some found => .ok found
  | none => .error .malformed

/-- Whether a character may stand between tokens. -/
def isSpace (c : Char) : Bool :=
  c = ' ' || c = '\t' || c = '\n' || c = '\r'

/-- The text after the spaces at its start. -/
def skipSpaces (text : Text) : Text :=
  text.dropWhile isSpace

/-! ## Strings -/

/-- The code that a one-letter escape stands for. -/
def escapeCode? (c : Char) : Option Nat :=
  match c with
  | '"' => some 0x22
  | '\\' => some 0x5C
  | '/' => some 0x2F
  | 'b' => some 0x8
  | 'f' => some 0xC
  | 'n' => some 0xA
  | 'r' => some 0xD
  | 't' => some 0x9
  | _ => none

/-- The number that four hexadecimal digits write. -/
def unit? (a b c d : Char) : Option Nat := do
  let digits ← [a, b, c, d].mapM Text.hexDigit?
  some (Text.ofDigits 16 digits)

/-- The codes of a string up to its closing quotation mark, and what follows
the mark.  Characters give their own codes, escapes the UTF-16 units that they
write. -/
def codes? : Text → Option (List Nat × Text)
  | [] => none
  | '"' :: rest => some ([], rest)
  | '\\' :: 'u' :: a :: b :: c :: d :: rest => do
      let unit ← unit? a b c d
      let (codes, rest) ← codes? rest
      some (unit :: codes, rest)
  | '\\' :: c :: rest => do
      let code ← escapeCode? c
      let (codes, rest) ← codes? rest
      some (code :: codes, rest)
  | c :: rest =>
      if c.toNat < 32 || c = '\\' then
        none
      else do
        let (codes, rest) ← codes? rest
        some (c.toNat :: codes, rest)

/-- Whether a code is that of the first half of a surrogate pair. -/
def isHighSurrogate (code : Nat) : Bool :=
  0xD800 ≤ code && code < 0xDC00

/-- Whether a code is that of the second half of a surrogate pair. -/
def isLowSurrogate (code : Nat) : Bool :=
  0xDC00 ≤ code && code < 0xE000

/-- The code that a surrogate pair stands for. -/
def pairCode (high low : Nat) : Nat :=
  0x10000 + (high - 0xD800) * 0x400 + (low - 0xDC00)

/-- The code points that codes stand for; two halves that follow each other are
one character. -/
def ofCodes : List Nat → LooseText
  | high :: low :: codes =>
      if isHighSurrogate high && isLowSurrogate low then
        CodePoint.ofCode (pairCode high low) :: ofCodes codes
      else
        CodePoint.ofCode high :: ofCodes (low :: codes)
  | [code] => [CodePoint.ofCode code]
  | [] => []

/-- Reads a string after its opening quotation mark. -/
def stringRest? (text : Text) : Option (LooseText × Text) := do
  let (codes, rest) ← codes? text
  some (ofCodes codes, rest)

/-! ## Numbers and words -/

/-- The digits after a point; without any the point does not belong to the
number. -/
def fraction (text : Text) : Option Text × Text :=
  match text with
  | '.' :: rest =>
      match rest.takeWhile Text.isDigit with
      | [] => (none, text)
      | digits => (some digits, rest.dropWhile Text.isDigit)
  | _ => (none, text)

/-- The sign of an exponent and the text after it. -/
def exponentSign : Text → Bool × Text
  | '-' :: rest => (true, rest)
  | '+' :: rest => (false, rest)
  | rest => (false, rest)

/-- The exponent after its letter; without digits the letter does not belong to
the number. -/
def exponent (text : Text) : Option Int × Text :=
  match text with
  | [] => (none, [])
  | c :: rest =>
      let (negative, unsigned) := exponentSign rest
      let digits := unsigned.takeWhile Text.isDigit
      if (c = 'e' || c = 'E') && !digits.isEmpty then
        let size : Int := (Text.decimal digits : Nat)
        (some (if negative then -size else size), unsigned.dropWhile Text.isDigit)
      else
        (none, text)

/-- The digits before the point; a zero stands alone. -/
def wholeDigits (text : Text) : Text × Text :=
  match text with
  | '0' :: rest => (['0'], rest)
  | text => (text.takeWhile Text.isDigit, text.dropWhile Text.isDigit)

/-- Reads a number without its sign.  The inner result is missing when an integer
has too many digits. -/
def unsignedNumber? (negative : Bool) (text : Text) : Option (Option JsonValue × Text) :=
  let (whole, afterWhole) := wholeDigits text
  let (digits, afterFraction) := fraction afterWhole
  let (power, rest) := exponent afterFraction
  if whole.isEmpty then
    none
  else if digits.isNone && power.isNone then
    some ((Decimal.integer? negative whole).map JsonValue.int, rest)
  else
    let digits := digits.getD []
    some (some (.float (Binary64.ofDecimal negative (Text.decimal (whole ++ digits))
      (power.getD 0 - digits.length))), rest)

/-- Reads a number.  The inner result is missing when an integer has too many
digits. -/
def number? : Text → Option (Option JsonValue × Text)
  | '-' :: rest => unsignedNumber? true rest
  | text => unsignedNumber? false text

/-- The words that are values, with their values. -/
def words : List (String × JsonValue) :=
  [("null", .null), ("true", .bool true), ("false", .bool false), ("NaN", .float .nan),
    ("Infinity", .float (.infinity false)), ("-Infinity", .float (.infinity true))]

def word? (text : Text) : Option (JsonValue × Text) :=
  words.findSome? fun (word, value) =>
    (Text.after? word text).map fun rest => (value, rest)

def wordOrNumber (text : Text) : Except Fault (JsonValue × Text) :=
  match word? text, number? text with
  | some found, _ => .ok found
  | none, some (some value, rest) => .ok (value, rest)
  | none, some (none, _) => .error .longInteger
  | none, none => .error .malformed

/-! ## Values -/

/-- Reads the key of an entry and the colon after it. -/
def key? : Text → Option (LooseText × Text)
  | '"' :: rest => do
      let (key, rest) ← stringRest? rest
      match skipSpaces rest with
      | ':' :: rest => some (key, skipSpaces rest)
      | _ => none
  | _ => none

mutual

/-- Reads a value.  The number bounds the depth of nesting together with the
number of items; twice the length of the text is enough. -/
def valueIn : Nat → Text → Except Fault (JsonValue × Text)
  | 0, _ => .error .malformed
  | steps + 1, text =>
      match text with
      | '"' :: rest => do
          let (inside, rest) ← needed (stringRest? rest)
          .ok (.string inside, rest)
      | '[' :: rest =>
          match skipSpaces rest with
          | ']' :: rest => .ok (.array [], rest)
          | rest => do
              let (items, rest) ← itemsIn steps rest
              .ok (.array items, rest)
      | '\x7b' :: rest =>
          match skipSpaces rest with
          | '\x7d' :: rest => .ok (.object [], rest)
          | rest => do
              let (entries, rest) ← entriesIn steps rest
              .ok (.object (Entries.ofPairs entries), rest)
      | _ => wordOrNumber text

/-- Reads the items of an array that has some, and its closing bracket. -/
def itemsIn : Nat → Text → Except Fault (List JsonValue × Text)
  | 0, _ => .error .malformed
  | steps + 1, text => do
      let (item, rest) ← valueIn steps text
      match skipSpaces rest with
      | ']' :: rest => .ok ([item], rest)
      | ',' :: rest => do
          let (items, rest) ← itemsIn steps (skipSpaces rest)
          .ok (item :: items, rest)
      | _ => .error .malformed

/-- Reads the entries of an object that has some, and its closing brace. -/
def entriesIn : Nat → Text → Except Fault (List (LooseText × JsonValue) × Text)
  | 0, _ => .error .malformed
  | steps + 1, text => do
      let (key, rest) ← needed (key? text)
      let (value, rest) ← valueIn steps rest
      match skipSpaces rest with
      | '\x7d' :: rest => .ok ([(key, value)], rest)
      | ',' :: rest => do
          let (entries, rest) ← entriesIn steps (skipSpaces rest)
          .ok ((key, value) :: entries, rest)
      | _ => .error .malformed

end

/-- The data that a JSON text writes. -/
def read (text : Text) : Except Fault JsonValue := do
  let (value, rest) ← valueIn (2 * text.length + 2) (skipSpaces text)
  if (skipSpaces rest).isEmpty then .ok value else .error .malformed

end Json

end ApiWorkshop
