import ApiWorkshop.Text.Basic

/-!
# Dates, clock times and instants

Dates are those of the Gregorian calendar in the years 1 to 9999.  A date-time
is a date with a clock time and, if it is aware, an offset from coordinated
universal time of less than a day.  The module has the day count that turns a
date-time into an instant and back, and the standard text of each kind.
-/

namespace ApiWorkshop

/-- Whether a year of the Gregorian calendar has a leap day. -/
def isLeapYear (year : Nat) : Bool :=
  year % 4 = 0 && (year % 100 != 0 || year % 400 = 0)

/-- The number of days in a month of a year. -/
def daysInMonth (year month : Nat) : Nat :=
  if month = 2 then
    if isLeapYear year then 29 else 28
  else if month = 4 ∨ month = 6 ∨ month = 9 ∨ month = 11 then
    30
  else
    31

/-- Whether a year, month and day name a date. -/
def isDate (year month day : Nat) : Bool :=
  1 ≤ year && year ≤ 9999 && 1 ≤ month && month ≤ 12 && 1 ≤ day && day ≤ daysInMonth year month

/-- A date of the Gregorian calendar. -/
structure Date where
  year : Nat
  month : Nat
  day : Nat
  valid : isDate year month day = true
  deriving DecidableEq, Repr

/-- A time of the day, to the microsecond. -/
structure Clock where
  hour : Nat
  minute : Nat
  second : Nat
  microsecond : Nat
  valid : hour < 24 ∧ minute < 60 ∧ second < 60 ∧ microsecond < 1000000
  deriving DecidableEq, Repr

/-- The number of microseconds in a day. -/
def microsecondsPerDay : Nat := 86400000000

/-- The distance of a clock from coordinated universal time. -/
structure Offset where
  microseconds : Int
  valid : microseconds.natAbs < microsecondsPerDay
  deriving DecidableEq, Repr

/-- A clock time that stands without a date; without an offset it is naive. -/
structure TimeOfDay where
  clock : Clock
  offset : Option Offset
  deriving DecidableEq, Repr

/-- A date with a clock time; without an offset it is naive. -/
structure DateTime where
  date : Date
  clock : Clock
  offset : Option Offset
  deriving DecidableEq, Repr

namespace Date

/-- The date with a given year, month and day, if there is one. -/
def make? (year month day : Nat) : Option Date :=
  if valid : isDate year month day = true then some ⟨year, month, day, valid⟩ else none

/-- The number of days before the first day of a year, counted from the first
day of year 1. -/
def daysBeforeYear (year : Nat) : Nat :=
  let past := year - 1
  past * 365 + past / 4 - past / 100 + past / 400

/-- The number of days in the first months of a year. -/
def daysInMonths (year : Nat) : Nat → Nat
  | 0 => 0
  | months + 1 => daysInMonths year months + daysInMonth year (months + 1)

/-- The number of days of a year before the first day of a month. -/
def daysBeforeMonth (year month : Nat) : Nat :=
  daysInMonths year (month - 1)

/-- The number of a date; the first day of year 1 has number 1. -/
def number (date : Date) : Nat :=
  daysBeforeYear date.year + daysBeforeMonth date.year date.month + date.day

/-- The month and day of a zero-based day of a year, searched from a month on
through a number of months. -/
def monthAndDay (year : Nat) : Nat → Nat → Nat → Nat × Nat
  | 0, month, rest => (month, rest + 1)
  | months + 1, month, rest =>
      if rest < daysInMonth year month then
        (month, rest + 1)
      else
        monthAndDay year months (month + 1) (rest - daysInMonth year month)

/-- The date with a given number, if it lies in the supported years. -/
def ofNumber? (number : Nat) : Option Date :=
  if number = 0 then
    none
  else
    let days := number - 1
    let centuries := min (days % 146097 / 36524) 3
    let inCentury := days % 146097 - centuries * 36524
    let inCycle := inCentury % 1461
    let years := min (inCycle / 365) 3
    let year := days / 146097 * 400 + centuries * 100 + inCentury / 1461 * 4 + years + 1
    let (month, day) := monthAndDay year 11 1 (inCycle - years * 365)
    make? year month day

/-- The day of the week of a date number, with Monday as zero. -/
def weekday (number : Nat) : Nat := (number + 6) % 7

def text (date : Date) : Text :=
  Text.padded 4 date.year ++ "-" ++ Text.padded 2 date.month ++ "-" ++ Text.padded 2 date.day

end Date

namespace Clock

/-- The clock time with given parts, if there is one. -/
def make? (hour minute second microsecond : Nat) : Option Clock :=
  if valid : hour < 24 ∧ minute < 60 ∧ second < 60 ∧ microsecond < 1000000 then
    some ⟨hour, minute, second, microsecond, valid⟩
  else
    none

def midnight : Clock := ⟨0, 0, 0, 0, by decide⟩

def microseconds (clock : Clock) : Nat :=
  ((clock.hour * 60 + clock.minute) * 60 + clock.second) * 1000000 + clock.microsecond

/-- The clock time a number of microseconds after midnight, within a day. -/
def ofMicroseconds? (total : Nat) : Option Clock :=
  let seconds := total / 1000000
  make? (seconds / 3600) (seconds / 60 % 60) (seconds % 60) (total % 1000000)

/-- The text of a clock time; microseconds show only when there are some. -/
def text (clock : Clock) : Text :=
  Text.padded 2 clock.hour ++ ":" ++ Text.padded 2 clock.minute ++ ":" ++
    Text.padded 2 clock.second ++
    (if clock.microsecond = 0 then [] else '.' :: Text.padded 6 clock.microsecond)

end Clock

namespace Offset

/-- The offset of a number of microseconds, if it is less than a day. -/
def make? (microseconds : Int) : Option Offset :=
  if valid : microseconds.natAbs < microsecondsPerDay then some ⟨microseconds, valid⟩ else none

/-- The offset of coordinated universal time itself. -/
def zero : Offset := ⟨0, by decide⟩

/-- The text of an offset; seconds and microseconds show only when there are
some. -/
def text (offset : Offset) : Text :=
  let size := offset.microseconds.natAbs
  let seconds := size / 1000000
  (if offset.microseconds < 0 then '-' else '+') ::
    (Text.padded 2 (seconds / 3600) ++ ":" ++ Text.padded 2 (seconds / 60 % 60) ++
      (if size % 60000000 = 0 then [] else
        ':' :: Text.padded 2 (seconds % 60) ++
          (if size % 1000000 = 0 then [] else '.' :: Text.padded 6 (size % 1000000))))

end Offset

/-- The text of an offset, if there is one. -/
def offsetText : Option Offset → Text
  | some offset => offset.text
  | none => []

namespace TimeOfDay

/-- The text of a time of the day. -/
def text (time : TimeOfDay) : Text :=
  time.clock.text ++ offsetText time.offset

end TimeOfDay

namespace DateTime

def text (dateTime : DateTime) : Text :=
  dateTime.date.text ++ "T" ++ dateTime.clock.text ++ offsetText dateTime.offset

/-- A date-time with an offset; a naive one is taken as universal time. -/
def aware (dateTime : DateTime) : DateTime :=
  { dateTime with offset := some (dateTime.offset.getD .zero) }

/-- The instant of a date-time in microseconds, on a scale where the first day
of year 1 starts after one day; a naive one is taken as universal time. -/
def instant (dateTime : DateTime) : Int :=
  (dateTime.date.number * microsecondsPerDay + dateTime.clock.microseconds : Nat) -
    (match dateTime.offset with
      | some offset => offset.microseconds
      | none => 0)

/-- The number of the first day of 1970. -/
def epochDay : Nat := 719163

/-- The universal date-time a number of microseconds after the start of 1970,
if its year is supported. -/
def ofEpoch? (microseconds : Int) : Option DateTime :=
  let total := microseconds + (epochDay * microsecondsPerDay : Nat)
  if total < 0 then
    none
  else
    match Date.ofNumber? (total.toNat / microsecondsPerDay),
        Clock.ofMicroseconds? (total.toNat % microsecondsPerDay) with
    | some date, some clock => some ⟨date, clock, some .zero⟩
    | _, _ => none

end DateTime

end ApiWorkshop
