import ApiWorkshop.Number.Decimal
import ApiWorkshop.Number.Shortest
import ApiWorkshop.Text.Quoted
import ApiWorkshop.Value.Basic

/-!
# Values as text

A value has two texts.  Its literal is source text in the language of the
generated project.  Its display text is what a translation matcher is compared
with: strings and dates as they stand, truth values in lower case, integral
floating-point numbers without a fraction.  Only a value whose integers can be
written has texts that may be shown.
-/

namespace ApiWorkshop

/-- The arguments of a call in a literal. -/
def callText (name : String) (arguments : List Text) : Text :=
  name ++ "(" ++ List.intercalate ", ".toList arguments ++ ")"

namespace Date

def literal (date : Date) : Text :=
  callText "datetime.date" [Text.padded 1 date.year, Text.padded 1 date.month,
    Text.padded 1 date.day]

end Date

namespace Clock

/-- The parts of a clock time in a literal; seconds and microseconds are left
out from the end while they are zero. -/
def literalParts (clock : Clock) : List Text :=
  [Text.padded 1 clock.hour, Text.padded 1 clock.minute] ++
    (if clock.second = 0 ∧ clock.microsecond = 0 then []
      else if clock.microsecond = 0 then [Text.padded 1 clock.second]
      else [Text.padded 1 clock.second, Text.padded 1 clock.microsecond])

end Clock

namespace Offset

/-- The literal of an offset.  A length of time is written as days, seconds and
microseconds of which only the days can be negative. -/
def literal (offset : Offset) : Text :=
  if offset.microseconds = 0 then
    "datetime.timezone.utc"
  else
    let negative := offset.microseconds < 0
    let size :=
      if negative then
        microsecondsPerDay - offset.microseconds.natAbs
      else
        offset.microseconds.natAbs
    let seconds := size / 1000000
    let parts :=
      (if negative then [("days=-1" : Text)] else []) ++
        (if seconds = 0 then [] else ["seconds=" ++ Text.padded 1 seconds]) ++
        (if size % 1000000 = 0 then []
          else ["microseconds=" ++ Text.padded 1 (size % 1000000)])
    callText "datetime.timezone" [callText "datetime.timedelta" parts]

end Offset

/-- The argument for an offset, if there is one. -/
def offsetArgument (offset : Option Offset) : List Text :=
  offset.toList.map fun offset => "tzinfo=" ++ offset.literal

namespace TimeOfDay

/-- The literal of a time of the day. -/
def literal (time : TimeOfDay) : Text :=
  callText "datetime.time" (time.clock.literalParts ++ offsetArgument time.offset)

end TimeOfDay

namespace DateTime

def literal (dateTime : DateTime) : Text :=
  callText "datetime.datetime"
    ([Text.padded 1 dateTime.date.year, Text.padded 1 dateTime.date.month,
        Text.padded 1 dateTime.date.day] ++
      dateTime.clock.literalParts ++ offsetArgument dateTime.offset)

end DateTime

namespace Scalar

def intText (value : Int) : Text :=
  (if value < 0 then ['-'] else []) ++ Nat.toDigits 10 value.natAbs

/-- Whether a scalar is no integer or one that can be written. -/
def isWritable : Scalar → Bool
  | .int value => Decimal.isWritable value
  | _ => true

def literal : Scalar → Text
  | .null => "None"
  | .bool value => if value then "True" else "False"
  | .int value => intText value
  | .float value => value.text
  | .string value => Text.quoted value.toList
  | .dateTime value => value.literal
  | .date value => value.literal
  | .time value => value.literal

def display : Scalar → Text
  | .null => "None"
  | .bool value => if value then "true" else "false"
  | .int value => intText value
  | .float value =>
      match value.toInt? with
      | some integer => intText integer
      | none => value.text
  | .string value => value.toList
  | .dateTime value => value.text
  | .date value => value.text
  | .time value => value.text

end Scalar

namespace Value

mutual

def literal : Value → Text
  | .scalar part => part.literal
  | .array items => "[" ++ literalItems items ++ "]"
  | .table entries => "\x7b" ++ literalEntries entries ++ "\x7d"

/-- The literals of a list of values, separated by commas. -/
def literalItems : List Value → Text
  | [] => []
  | [item] => literal item
  | item :: next :: items => literal item ++ ", " ++ literalItems (next :: items)

/-- The literals of entries, separated by commas. -/
def literalEntries : List (String × Value) → Text
  | [] => []
  | [(key, value)] => Text.quoted key.toList ++ ": " ++ literal value
  | (key, value) :: next :: entries =>
      Text.quoted key.toList ++ ": " ++ literal value ++ ", " ++
        literalEntries (next :: entries)

end

/-- The display text of a value; arrays and tables show as their literals. -/
def display : Value → Text
  | .scalar part => part.display
  | value => value.literal

mutual

/-- Whether every integer in a value can be written. -/
def isWritable : Value → Bool
  | .scalar part => part.isWritable
  | .array items => areWritable items
  | .table entries => entriesAreWritable entries

/-- Whether every integer in a list of values can be written. -/
def areWritable : List Value → Bool
  | [] => true
  | item :: items => isWritable item && areWritable items

/-- Whether every integer in entries can be written. -/
def entriesAreWritable : List (String × Value) → Bool
  | [] => true
  | (_, value) :: entries => isWritable value && entriesAreWritable entries

end

end Value

end ApiWorkshop
