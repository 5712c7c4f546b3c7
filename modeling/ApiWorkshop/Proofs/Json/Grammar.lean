import ApiWorkshop.Json.Read

/-!
# The grammar of JSON

The texts of the JSON standard with the data that they denote, said without a
reader.  There are no words for a NaN or an infinity, and no key of an object
may occur twice, since otherwise it would not be clear what it denotes.
-/

namespace ApiWorkshop

namespace Json

/-! ## Strings -/

/-- A text between quotation marks and the text that it denotes. -/
inductive Characters : Text → Text → Prop
  | nil : Characters [] []
  | plain {c : Char} {inside text : Text} (isPlain : 32 ≤ c.toNat ∧ c ≠ '"' ∧ c ≠ '\\')
      (rest : Characters inside text) : Characters (c :: inside) (c :: text)
  | letter {c escaped : Char} {inside text : Text} (isEscape : escapeCode? c = some escaped.toNat)
      (rest : Characters inside text) : Characters ('\\' :: c :: inside) (escaped :: text)
  | unit {a b c d escaped : Char} {inside text : Text}
      (isUnit : unit? a b c d = some escaped.toNat) (rest : Characters inside text) :
      Characters ('\\' :: 'u' :: a :: b :: c :: d :: inside) (escaped :: text)
  | pair {a b c d a' b' c' d' : Char} {high low : Nat} {inside text : Text}
      (isHigh : unit? a b c d = some high ∧ isHighSurrogate high = true)
      (isLow : unit? a' b' c' d' = some low ∧ isLowSurrogate low = true)
      (rest : Characters inside text) :
      Characters ('\\' :: 'u' :: a :: b :: c :: d :: '\\' :: 'u' :: a' :: b' :: c' :: d' :: inside)
        (Char.ofNat (pairCode high low) :: text)

/-! ## Numbers -/

/-- Some digits. -/
structure IsDigits (digits : Text) : Prop where
  nonempty : digits ≠ []
  areDigits : ∀ c ∈ digits, Text.isDigit c = true

/-- The digits before the point: a zero alone, or digits that do not begin with
one. -/
structure IsWhole (digits : Text) : Prop extends IsDigits digits where
  zeroAlone : digits.head? = some '0' → digits = ['0']

def minus (negative : Bool) : Text :=
  if negative then ['-'] else []

/-- The part of a number from the point on and the digits in it. -/
inductive Fraction : Text → Text → Prop
  | none : Fraction [] []
  | some {digits : Text} (areDigits : IsDigits digits) : Fraction ('.' :: digits) digits

/-- The part of a number from the letter on and the exponent in it. -/
inductive Exponent : Text → Int → Prop
  | none : Exponent [] 0
  | unsigned {letter : Char} {digits : Text} (isLetter : letter = 'e' ∨ letter = 'E')
      (areDigits : IsDigits digits) : Exponent (letter :: digits) (Text.decimal digits : Nat)
  | plus {letter : Char} {digits : Text} (isLetter : letter = 'e' ∨ letter = 'E')
      (areDigits : IsDigits digits) : Exponent (letter :: '+' :: digits) (Text.decimal digits : Nat)
  | minus {letter : Char} {digits : Text} (isLetter : letter = 'e' ∨ letter = 'E')
      (areDigits : IsDigits digits) :
      Exponent (letter :: '-' :: digits) (-(Text.decimal digits : Nat))

/-- A number with a fraction or an exponent, without its sign, as a coefficient and
a power of ten. -/
inductive Scientific : Text → Nat → Int → Prop
  | mk {whole fraction digits exponent : Text} {power : Int} (isWhole : IsWhole whole)
      (isFraction : Fraction fraction digits) (isExponent : Exponent exponent power)
      (hasPart : fraction ≠ [] ∨ exponent ≠ []) :
      Scientific (whole ++ fraction ++ exponent) (Text.decimal (whole ++ digits))
        (power - digits.length)

/-! ## Values -/

def IsSpaces (text : Text) : Prop :=
  ∀ c ∈ text, isSpace c = true

mutual

/-- A text and the data that it denotes. -/
inductive Denotes : Text → Value → Prop
  | null : Denotes "null".toList .null
  | bool (part : Bool) : Denotes (if part then "true" else "false") (.bool part)
  | int (negative : Bool) {whole : Text} (isWhole : IsWhole whole) :
      Denotes (minus negative ++ whole)
        (.int (if negative then -(Text.decimal whole : Nat) else (Text.decimal whole : Nat)))
  | float (negative : Bool) {number : Text} {coefficient : Nat} {exponent : Int}
      (isNumber : Scientific number coefficient exponent) :
      Denotes (minus negative ++ number) (.float (Binary64.ofDecimal negative coefficient exponent))
  | string {inside text : Text} (areCharacters : Characters inside text) :
      Denotes ('"' :: inside ++ ['"']) (.string (String.ofList text))
  | emptyArray {spaces : Text} (areSpaces : IsSpaces spaces) :
      Denotes ('[' :: spaces ++ [']']) (.array [])
  | array {inside : Text} {items : List Value} (areItems : Items inside items) :
      Denotes ('[' :: inside ++ [']']) (.array items)
  | emptyObject {spaces : Text} (areSpaces : IsSpaces spaces) :
      Denotes ('\x7b' :: spaces ++ ['\x7d']) (.table [])
  | object {inside : Text} {entries : List (String × Value)} (areMembers : Members inside entries)
      (distinct : (Entries.keys entries).Nodup) :
      Denotes ('\x7b' :: inside ++ ['\x7d']) (.table entries)

/-- A value with spaces around it. -/
inductive Element : Text → Value → Prop
  | mk {before inside after : Text} {value : Value} (areBefore : IsSpaces before)
      (isValue : Denotes inside value) (areAfter : IsSpaces after) :
      Element (before ++ inside ++ after) value

/-- The items of an array that has some. -/
inductive Items : Text → List Value → Prop
  | last {text : Text} {item : Value} (isItem : Element text item) : Items text [item]
  | more {text rest : Text} {item : Value} {items : List Value} (isItem : Element text item)
      (areItems : Items rest items) : Items (text ++ ',' :: rest) (item :: items)

/-- The entries of an object that has some. -/
inductive Members : Text → List (String × Value) → Prop
  | last {key text : Text} {name : String} {value : Value} (isKey : Element key (.string name))
      (isValue : Element text value) : Members (key ++ ':' :: text) [(name, value)]
  | more {key text rest : Text} {name : String} {value : Value} {entries : List (String × Value)}
      (isKey : Element key (.string name)) (isValue : Element text value)
      (areMembers : Members rest entries) :
      Members (key ++ ':' :: text ++ ',' :: rest) ((name, value) :: entries)

end

/-- A JSON text: a value with spaces around it. -/
def IsDocument (text : Text) (value : Value) : Prop :=
  Element text value

end Json

end ApiWorkshop
