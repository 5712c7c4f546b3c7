import ApiWorkshop.Api.Model
import ApiWorkshop.Text.Classes
import ApiWorkshop.Time.Duration
import ApiWorkshop.Time.Iso
import ApiWorkshop.Value.Literal

/-!
# Matchers

A matcher decides whether a rule applies to a value.  A literal matcher asks
for a display text; a span matcher asks for a timestamp that is at most a
duration older than a reference time.

A value can be read as an instant if it is a date, a date-time, an ISO 8601
text or a number of seconds since the start of 1970.  A date-time without an
offset is taken as universal time.
-/

namespace ApiWorkshop

/-! ## Values as timestamps -/

namespace Value

/-- A text with a final `Z` of either case written as an offset of zero. -/
def withNumericZone (text : Text) : Text :=
  match text.getLast? with
  | some c => if c = 'Z' || c = 'z' then text.dropLast ++ "+00:00" else text
  | none => text

/-- A value read as a date-time with an offset. -/
def timestamp? : Value → Option DateTime
  | .dateTime value => some value.aware
  | .date value => some (DateTime.aware ⟨value, .midnight, none⟩)
  | .string value =>
      (Iso.dateTime? (withNumericZone (Text.strip value.toList))).map DateTime.aware
  | .int value => DateTime.ofEpoch? (value * 1000000)
  | .float value => value.microseconds?.bind DateTime.ofEpoch?
  | _ => none

end Value

/-! ## Tests of a value -/

/-- The test that a rule makes. -/
inductive Matcher where
  | literal (text : String)
  | span (text : String) (duration : Duration)
  deriving DecidableEq, Repr

/-- Why a matcher cannot be tried on a value. -/
inductive LookupError where
  | longInteger
  deriving DecidableEq, Repr

namespace Matcher

/-- Reads a matcher; what follows the span mark has to be a duration. -/
def parse (text : String) : Except DurationError Matcher :=
  match Text.after? spanMark text.toList with
  | some rest => do
      let length := String.ofList rest
      let duration ← Duration.parse length
      .ok (.span length duration)
  | none => .ok (.literal text)

/-- The text that a matcher is read from. -/
def text : Matcher → String
  | literal text => text
  | span text _ => spanMark ++ text

/-- Whether a matcher applies to a value at a reference time. -/
def matchesValue (asOf : DateTime) (value : Value) : Matcher → Bool
  | literal text =>
      value != .null && value.display = text.toList
  | span _ duration =>
      match value.timestamp? with
      | some timestamp => asOf.instant - timestamp.instant ≤ duration.microseconds
      | none => false

/-- Tries a matcher on a value.  A literal needs the display text, which a value with an
integer that cannot be written does not have. -/
def tryValue (asOf : DateTime) (value : Value) (matcher : Matcher) : Except LookupError Bool :=
  match matcher with
  | literal _ =>
      if value.isWritable then .ok (matcher.matchesValue asOf value) else .error .longInteger
  | span _ _ => .ok (matcher.matchesValue asOf value)

end Matcher

end ApiWorkshop
