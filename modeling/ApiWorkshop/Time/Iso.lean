import ApiWorkshop.Time.Calendar

/-!
# Reading ISO 8601 date-times

A date-time is a date, any single character, and a clock time that may carry
an offset; a date alone means its midnight.  Dates may be calendar dates or
week dates, in the basic and in the extended form, and only ASCII digits count.
-/

namespace ApiWorkshop

namespace Iso

/-- A number of exactly `count` decimal digits at the start of a text, with
what follows it. -/
def takeNumber? (count : Nat) (text : Text) : Option (Nat × Text) :=
  let digits := text.take count
  if digits.length = count ∧ digits.all Text.isDigit then
    some (Text.decimal digits, text.drop count)
  else
    none

/-- How many characters at the start of a text form its date.  The marks in
the fifth and sixth place tell the forms apart; a compact week date with a
number of digits after it is taken so that pairs of digits are left. -/
def dateLength (text : Text) : Nat :=
  if text.length = 7 then
    7
  else
    match text.drop 4 with
    | '-' :: 'W' :: rest =>
        match rest.drop 2 with
        | '-' :: _ :: c :: _ => if Text.isDigit c then 8 else 10
        | '-' :: _ => 10
        | _ => 8
    | '-' :: _ => 10
    | 'W' :: rest =>
        let digits := ((rest.drop 2).takeWhile Text.isDigit).length
        if digits < 2 then 7 + digits else if digits % 2 = 1 then 7 else 8
    | _ => 8

/-- The number of the Monday that starts the first week of a year. -/
def firstMonday (year : Nat) : Int :=
  let first := Date.daysBeforeYear year + 1
  let weekday := Date.weekday first
  let monday : Int := (first : Int) - weekday
  if 3 < weekday then monday + 7 else monday

/-- Whether a year has 53 weeks: it starts on a Thursday, or on a Wednesday
with a leap day to come. -/
def hasLongWeeks (year : Nat) : Bool :=
  let weekday := Date.weekday (Date.daysBeforeYear year + 1)
  weekday = 3 || (weekday = 2 && isLeapYear year)

/-- The date of a day of a week of a year. -/
def weekDate? (year week day : Nat) : Option Date :=
  if year = 0 ∨ week = 0 ∨ 53 < week ∨ (week = 53 ∧ !hasLongWeeks year) ∨ day = 0 ∨ 7 < day then
    none
  else
    Date.ofNumber? (firstMonday year + ((week - 1) * 7 + (day - 1) : Nat)).toNat

/-- The separator of an extended form, or nothing in the basic form. -/
def takeHyphen? (extended : Bool) (text : Text) : Option Text :=
  if extended then Text.after? ['-'] text else some text

/-- Reads the text of a date to its end. -/
def date? (text : Text) : Option Date := do
  let (year, rest) ← takeNumber? 4 text
  let extended := rest.head? = some '-'
  let rest := if extended then rest.drop 1 else rest
  match rest with
  | 'W' :: rest =>
      let (week, rest) ← takeNumber? 2 rest
      if rest.isEmpty then
        weekDate? year week 1
      else
        let rest ← takeHyphen? extended rest
        let (day, rest) ← takeNumber? 1 rest
        if rest.isEmpty then weekDate? year week day else none
  | rest =>
      let (month, rest) ← takeNumber? 2 rest
      let rest ← takeHyphen? extended rest
      let (day, rest) ← takeNumber? 2 rest
      if rest.isEmpty then Date.make? year month day else none

/-- The parts of a clock reading, before their ranges are checked, and whether
a character was left over after them. -/
structure Reading where
  hour : Nat
  minute : Nat
  second : Nat
  microsecond : Nat
  leftOver : Bool

/-- Whether something other than a null character stands at the front. -/
def hasMore : Text → Bool
  | [] => false
  | c :: _ => c != '\x00'

/-- A fraction of a second: up to six digits count, further ones are passed
over. -/
def fraction? (text : Text) : Option (Nat × Bool) := do
  let count := min text.length 6
  let (number, rest) ← takeNumber? count text
  some (number * Nat.pow 10 (6 - count), hasMore (rest.dropWhile Text.isDigit))

/-- Reads up to three two-digit parts, `parts` of them already read, and then a
fraction.  With colons between the parts every part needs one; without, the
parts follow each other directly.  A single ASCII character at the end is left
over. -/
def reading? (colons : Bool) (parts : List Nat) : Nat → Text → Option Reading
  | 0, text => do
      let (microsecond, leftOver) ← fraction? text
      some ⟨parts.getD 0 0, parts.getD 1 0, parts.getD 2 0, microsecond, leftOver⟩
  | missing + 1, text => do
      let (number, rest) ← takeNumber? 2 text
      let parts := parts ++ [number]
      match rest with
      | [] => some ⟨parts.getD 0 0, parts.getD 1 0, parts.getD 2 0, 0, false⟩
      | [c] =>
          if c.toNat < 128 then
            some ⟨parts.getD 0 0, parts.getD 1 0, parts.getD 2 0, 0, c != '\x00'⟩
          else
            none
      | c :: after =>
          let colons := if parts.length = 1 then decide (c = ':') else colons
          if colons && c = ':' then
            reading? colons parts missing after
          else if c = '.' || c = ',' then
            reading? colons parts 0 after
          else if colons then
            none
          else
            reading? colons parts missing rest

def startsOffset (c : Char) : Bool :=
  c = '+' || c = '-' || c = 'Z'

/-- Reads an offset to the end of the text.  An offset of less than a second is
no offset. -/
def offset? : Text → Option Offset
  | 'Z' :: rest => if hasMore rest then none else some .zero
  | sign :: rest => do
      let reading ← reading? false [] 3 rest
      if reading.leftOver then
        none
      else
        let seconds := (reading.hour * 60 + reading.minute) * 60 + reading.second
        let size : Int := (seconds * 1000000 + reading.microsecond : Nat)
        if seconds = 0 then
          some .zero
        else
          Offset.make? (if sign = '-' then -size else size)
  | [] => none

/-- Reads a clock time with an optional offset to the end of the text. -/
def clock? (text : Text) : Option (Clock × Option Offset) := do
  let parts := text.takeWhile (!startsOffset ·)
  let zone := text.dropWhile (!startsOffset ·)
  let reading ← reading? false [] 3 parts
  let clock := Clock.make? reading.hour reading.minute reading.second reading.microsecond
  if zone.isEmpty then
    if reading.leftOver then none else clock.map fun clock => (clock, none)
  else
    let offset ← offset? zone
    clock.map fun clock => (clock, some offset)

def dateTime? (text : Text) : Option DateTime := do
  if text.length < 7 then
    none
  else
    let length := dateLength text
    let date ← date? (text.take length)
    match text.drop length with
    | [] => some ⟨date, .midnight, none⟩
    | _ :: rest =>
        let (clock, offset) ← clock? rest
        some ⟨date, clock, offset⟩

end Iso

end ApiWorkshop
