import ApiWorkshop.Number.Decimal
import ApiWorkshop.Toml.Strings
import ApiWorkshop.Value.Basic

/-!
# Numbers, dates and truth values of a configuration document

A scalar that is not a string is recognized by its longest form: a date before
a clock time, and both before a number.
-/

namespace ApiWorkshop

namespace Toml

/-- A two-digit number in a range, with what follows it. -/
def twoDigits? (low high : Nat) : Text → Option (Nat × Text)
  | c :: d :: rest => do
      let tens ← Text.digit? c
      let ones ← Text.digit? d
      let number := tens * 10 + ones
      if low ≤ number ∧ number ≤ high then some (number, rest) else none
  | _ => none

/-- The parts of a clock time: hour, minute, second and microsecond. -/
structure ClockParts where
  hour : Nat
  minute : Nat
  second : Nat
  microsecond : Nat

/-- A fraction of a second in microseconds; digits after the sixth are cut. -/
def secondFraction (text : Text) : Nat × Text :=
  match text with
  | '.' :: rest =>
      let digits := rest.takeWhile Text.isDigit
      if digits.isEmpty then
        (0, text)
      else
        let kept := digits.take 6
        (Text.decimal kept * Nat.pow 10 (6 - kept.length), rest.dropWhile Text.isDigit)
  | _ => (0, text)

def clockParts? (text : Text) : Option (ClockParts × Text) := do
  let (hour, rest) ← twoDigits? 0 23 text
  let rest ← Text.after? [':'] rest
  let (minute, rest) ← twoDigits? 0 59 rest
  let rest ← Text.after? [':'] rest
  let (second, rest) ← twoDigits? 0 59 rest
  let (microsecond, rest) := secondFraction rest
  some (⟨hour, minute, second, microsecond⟩, rest)

/-- Reads the sign, hours and minutes of an offset, in microseconds. -/
def numericOffset? : Text → Option (Int × Text)
  | sign :: rest =>
      if sign = '+' ∨ sign = '-' then do
        let (hour, rest) ← twoDigits? 0 23 rest
        let rest ← Text.after? [':'] rest
        let (minute, rest) ← twoDigits? 0 59 rest
        let size : Int := ((hour * 60 + minute) * 60000000 : Nat)
        some (if sign = '-' then -size else size, rest)
      else
        none
  | [] => none

/-- Reads an offset, if there is one. -/
def offsetAfterClock (text : Text) : Option Offset × Text :=
  match text with
  | 'Z' :: rest => (some .zero, rest)
  | 'z' :: rest => (some .zero, rest)
  | _ =>
      match numericOffset? text with
      | some (microseconds, rest) => (Offset.make? microseconds, rest)
      | none => (none, text)

def dateParts? (text : Text) : Option ((Nat × Nat × Nat) × Text) := do
  let digits := text.take 4
  if digits.length = 4 ∧ digits.all Text.isDigit then
    let rest ← Text.after? ['-'] (text.drop 4)
    let (month, rest) ← twoDigits? 1 12 rest
    let rest ← Text.after? ['-'] rest
    let (day, rest) ← twoDigits? 1 31 rest
    some ((Text.decimal digits, month, day), rest)
  else
    none

/-- Reads the clock time after a date, if there is one. -/
def clockAfterDate? : Text → Option (ClockParts × Text)
  | c :: rest => if c = 'T' ∨ c = 't' ∨ c = ' ' then clockParts? rest else none
  | [] => none

/-- Reads a date or a date-time.  The inner result is missing when there is no
such date. -/
def dateValue? (text : Text) : Option (Option Value × Text) := do
  let ((year, month, day), rest) ← dateParts? text
  let date := Date.make? year month day
  match clockAfterDate? rest with
  | none => some (date.map Value.date, rest)
  | some (parts, rest) =>
      let clock := Clock.make? parts.hour parts.minute parts.second parts.microsecond
      let (offset, rest) := offsetAfterClock rest
      match date, clock with
      | some date, some clock => some (some (.dateTime ⟨date, clock, offset⟩), rest)
      | _, _ => some (none, rest)

/-- Reads a clock time as a value. -/
def clockValue? (text : Text) : Option (Value × Text) := do
  let (parts, rest) ← clockParts? text
  let clock ← Clock.make? parts.hour parts.minute parts.second parts.microsecond
  some (.time ⟨clock, none⟩, rest)

/-- The digits at the start of a text; between two of them one underscore may
stand. -/
def digitRun (isDigit : Char → Bool) : Text → Text × Text
  | c :: '_' :: d :: rest =>
      if isDigit c then
        if isDigit d then
          let (digits, after) := digitRun isDigit (d :: rest)
          (c :: digits, after)
        else
          ([c], '_' :: d :: rest)
      else
        ([], c :: '_' :: d :: rest)
  | c :: rest =>
      if isDigit c then
        let (digits, after) := digitRun isDigit rest
        (c :: digits, after)
      else
        ([], c :: rest)
  | [] => ([], [])

/-- Whether a character is a digit of a base up to sixteen. -/
def isDigitOf (base : Nat) (c : Char) : Bool :=
  match Text.hexDigit? c with
  | some digit => digit < base
  | none => false

/-- Reads an integer of another base after its mark. -/
def basedInteger? (base : Nat) (text : Text) : Option (Value × Text) :=
  match digitRun (isDigitOf base) text with
  | ([], _) => none
  | (digits, rest) =>
      some (.int (Text.ofDigits base (digits.filterMap Text.hexDigit?)), rest)

/-- Reads the digits after a fraction point, if there are any. -/
def fractionDigits? : Text → Option (Text × Text)
  | '.' :: rest =>
      match digitRun Text.isDigit rest with
      | ([], _) => none
      | (digits, after) => some (digits, after)
  | _ => none

/-- Reads the exponent of a number, if there is one. -/
def exponent? : Text → Option (Int × Text)
  | c :: rest =>
      if c = 'e' ∨ c = 'E' then
        let (negative, unsigned) :=
          match rest with
          | '-' :: after => (true, after)
          | '+' :: after => (false, after)
          | after => (false, after)
        match digitRun Text.isDigit unsigned with
        | ([], _) => none
        | (digits, after) =>
            let size : Int := (Text.decimal digits : Nat)
            some (if negative then -size else size, after)
      else
        none
  | [] => none

/-- Reads a decimal integer or floating-point number without its sign.  A zero
is not followed by further digits.  The inner result is missing when an integer
has too many digits. -/
def unsignedNumber? (negative : Bool) (text : Text) : Option (Option Value × Text) :=
  let (whole, rest) :=
    match text with
    | '0' :: rest => (['0'], rest)
    | text => digitRun Text.isDigit text
  if whole.isEmpty then
    none
  else
    let fraction := fractionDigits? rest
    let afterFraction := match fraction with
      | some (_, after) => after
      | none => rest
    let exponent := exponent? afterFraction
    let afterExponent := match exponent with
      | some (_, after) => after
      | none => afterFraction
    if fraction.isNone && exponent.isNone then
      some ((Decimal.integer? negative whole).map Value.int, rest)
    else
      let digits := match fraction with
        | some (digits, _) => digits
        | none => []
      let power := match exponent with
        | some (power, _) => power
        | none => 0
      let number := Binary64.ofDecimal negative (Text.decimal (whole ++ digits))
        (power - digits.length)
      some (some (.float number), afterExponent)

/-- Reads a number.  The inner result is missing when a decimal integer has too
many digits. -/
def number? (text : Text) : Option (Option Value × Text) :=
  let based :=
    match text with
    | '0' :: 'x' :: rest => basedInteger? 16 rest
    | '0' :: 'b' :: rest => basedInteger? 2 rest
    | '0' :: 'o' :: rest => basedInteger? 8 rest
    | _ => none
  match based with
  | some (value, rest) => some (some value, rest)
  | none =>
      match text with
      | '-' :: rest => unsignedNumber? true rest
      | '+' :: rest => unsignedNumber? false rest
      | _ => unsignedNumber? false text

/-- The words that are values, with their values. -/
def words : List (String × Value) :=
  [("true", .bool true), ("false", .bool false),
    ("inf", .float (.infinity false)), ("nan", .float .nan),
    ("-inf", .float (.infinity true)), ("+inf", .float (.infinity false)),
    ("-nan", .float .nan), ("+nan", .float .nan)]

/-- Reads a word that is a value. -/
def word? (text : Text) : Option (Value × Text) :=
  words.findSome? fun (word, value) =>
    (Text.after? word text).map fun rest => (value, rest)

/-- Reads a scalar that is not a string. -/
def scalarValue (text : Text) : Except Stop (Value × Text) :=
  match dateValue? text with
  | some (some value, rest) => .ok (value, rest)
  | some (none, _) => stop .invalidDate text
  | none =>
      match clockValue? text, number? text, word? text with
      | some found, _, _ => .ok found
      | none, some (some value, rest), _ => .ok (value, rest)
      | none, some (none, _), _ => stop .longInteger text
      | none, none, some found => .ok found
      | none, none, none => stop .invalidValue text

end Toml

end ApiWorkshop
