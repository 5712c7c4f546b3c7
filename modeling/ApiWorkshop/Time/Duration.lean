import ApiWorkshop.Number.Binary64
import ApiWorkshop.Text.Classes

/-!
# Durations

A duration is written as one or more amounts with a unit, such as `24h`, `7d`
or `1h 30m`.  An amount is a decimal number in the digits of any script, a unit
is a maximal run of ASCII letters, and blanks may stand before the amount and
between it and the unit.  The amounts are added up in seconds as binary
floating-point numbers and rounded to microseconds once, at the end.
-/

namespace ApiWorkshop

/-- A length of time in microseconds. -/
structure Duration where
  microseconds : Nat
  deriving DecidableEq, Repr

/-- Why a text is not a duration. -/
inductive DurationError where
  /-- There is nothing but blanks. -/
  | empty
  /-- The text is not a sequence of amounts with units. -/
  | malformed (text : String)
  /-- A unit is not one of the known ones. -/
  | unknownUnit (unit text : String)
  /-- The sum exceeds the supported number of days. -/
  | tooLong
  deriving DecidableEq, Repr

namespace DurationError

def message : DurationError → String
  | empty => "empty duration"
  | malformed text => s!"invalid duration '{text}'"
  | unknownUnit unit text => s!"unknown duration unit '{unit}' in '{text}'"
  | tooLong => "duration too long"

end DurationError

namespace Duration

/-- The length of a whole unit in seconds; thousandths of a second are the only
units below one. -/
def unitSeconds? (unit : String) : Option Binary64 :=
  if unit ∈ ["ms", "msec", "millis"] then
    some (Binary64.ofDecimal false 1 (-3))
  else if unit ∈ ["s", "sec", "secs", "second", "seconds"] then
    some (Binary64.ofNat 1)
  else if unit ∈ ["m", "min", "mins", "minute", "minutes"] then
    some (Binary64.ofNat 60)
  else if unit ∈ ["h", "hr", "hrs", "hour", "hours"] then
    some (Binary64.ofNat 3600)
  else if unit ∈ ["d", "day", "days"] then
    some (Binary64.ofNat 86400)
  else if unit ∈ ["w", "week", "weeks"] then
    some (Binary64.ofNat 604800)
  else if unit ∈ ["M", "month", "months"] then
    some (Binary64.ofNat 2630016)
  else if unit ∈ ["y", "year", "years"] then
    some (Binary64.ofNat 31557600)
  else
    none

/-- An amount with its unit. -/
structure Token where
  digits : List Nat
  fraction : List Nat
  unit : String
  deriving DecidableEq, Repr

namespace Token

def amount (token : Token) : Binary64 :=
  Binary64.ofDecimal false (Text.ofDigits 10 (token.digits ++ token.fraction))
    (-(token.fraction.length : Int))

end Token

/-- The decimal digits at the start of a text and what follows them. -/
def takeDigits (text : Text) : List Nat × Text :=
  ((text.takeWhile Text.isDecimalDigit).filterMap Text.decimalDigit?,
    text.dropWhile Text.isDecimalDigit)

/-- The fraction of an amount: a point with at least one digit after it. -/
def takeFraction : Text → List Nat × Text
  | '.' :: rest =>
      match takeDigits rest with
      | ([], _) => ([], '.' :: rest)
      | (digits, after) => (digits, after)
  | text => ([], text)

/-- The token at the start of a text and what follows it. -/
def takeToken? (text : Text) : Option (Token × Text) :=
  let (digits, rest) := takeDigits (Text.stripStart text)
  let (fraction, rest) := takeFraction rest
  let rest := Text.stripStart rest
  let unit := rest.takeWhile Char.isAlpha
  if digits.isEmpty || unit.isEmpty then
    none
  else
    some (⟨digits, fraction, String.ofList unit⟩, rest.dropWhile Char.isAlpha)

/-- The sum of the tokens of a text in seconds, added to a sum so far.  Every
token takes up at least one character, so as many steps as there are
characters are enough. -/
def sumTokens (whole : String) : Nat → Binary64 → Text → Except DurationError Binary64
  | _, total, [] => .ok total
  | 0, _, _ => .error (.malformed whole)
  | steps + 1, total, text =>
      match takeToken? text with
      | none => .error (.malformed whole)
      | some (token, rest) =>
          match unitSeconds? token.unit with
          | none => .error (.unknownUnit token.unit whole)
          | some seconds => sumTokens whole steps (total.add (token.amount.mul seconds)) rest

/-- The largest number of days that a duration can have. -/
def maximalDays : Nat := 999999999

/-- A number of seconds as a duration. -/
def ofSeconds (seconds : Binary64) : Except DurationError Duration :=
  match seconds.microseconds? with
  | none => .error .tooLong
  | some microseconds =>
      if maximalDays < microseconds.toNat / 86400000000 then
        .error .tooLong
      else
        .ok ⟨microseconds.toNat⟩

def parse (text : String) : Except DurationError Duration :=
  match Text.strip text.toList with
  | [] => .error .empty
  | stripped =>
      (sumTokens text stripped.length Binary64.zero stripped).bind ofSeconds

end Duration

end ApiWorkshop
