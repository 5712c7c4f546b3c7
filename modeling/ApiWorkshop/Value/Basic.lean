import ApiWorkshop.Entries
import ApiWorkshop.Number.Binary64
import ApiWorkshop.Time.Calendar

/-!
# Plain data

The data in definition files, settings and generated documents: scalars, arrays
and tables with ordered keys.  Definition files have no null and documents have
no dates, but one type holds both, so that a value can move from a file into a
document.
-/

namespace ApiWorkshop

/-- A value without parts. -/
inductive Scalar where
  | null
  | bool (value : Bool)
  | int (value : Int)
  | float (value : Binary64)
  | string (value : String)
  | dateTime (value : DateTime)
  | date (value : Date)
  | time (value : TimeOfDay)
  deriving DecidableEq, Repr

/-- A piece of plain data. -/
inductive Value where
  | scalar (scalar : Scalar)
  | array (items : List Value)
  | table (entries : List (String × Value))
  deriving Repr, Inhabited

namespace Value

/-- The value that stands for nothing. -/
@[match_pattern]
abbrev null : Value := .scalar .null

/-- A truth value. -/
@[match_pattern]
abbrev bool (value : Bool) : Value := .scalar (.bool value)

/-- An integer of any size. -/
@[match_pattern]
abbrev int (value : Int) : Value := .scalar (.int value)

/-- A floating-point number. -/
@[match_pattern]
abbrev float (value : Binary64) : Value := .scalar (.float value)

/-- A string. -/
@[match_pattern]
abbrev string (value : String) : Value := .scalar (.string value)

/-- A date with a clock time. -/
@[match_pattern]
abbrev dateTime (value : DateTime) : Value := .scalar (.dateTime value)

/-- A date. -/
@[match_pattern]
abbrev date (value : Date) : Value := .scalar (.date value)

/-- A time of the day. -/
@[match_pattern]
abbrev time (value : TimeOfDay) : Value := .scalar (.time value)

mutual

def decEq : (first second : Value) → Decidable (first = second)
  | .scalar first, .scalar second =>
      if same : first = second then isTrue (by rw [same]) else isFalse (by simp [same])
  | .array first, .array second =>
      match decEqItems first second with
      | isTrue same => isTrue (by rw [same])
      | isFalse different => isFalse (by simp [different])
  | .table first, .table second =>
      match decEqEntries first second with
      | isTrue same => isTrue (by rw [same])
      | isFalse different => isFalse (by simp [different])
  | .scalar _, .array _ => isFalse (by simp)
  | .scalar _, .table _ => isFalse (by simp)
  | .array _, .scalar _ => isFalse (by simp)
  | .array _, .table _ => isFalse (by simp)
  | .table _, .scalar _ => isFalse (by simp)
  | .table _, .array _ => isFalse (by simp)

/-- Equality of lists of values is decidable. -/
def decEqItems : (first second : List Value) → Decidable (first = second)
  | [], [] => isTrue rfl
  | first :: firsts, second :: seconds =>
      match decEq first second, decEqItems firsts seconds with
      | isTrue same, isTrue sameRest => isTrue (by rw [same, sameRest])
      | isFalse different, _ => isFalse (by simp [different])
      | _, isFalse different => isFalse (by simp [different])
  | [], _ :: _ => isFalse (by simp)
  | _ :: _, [] => isFalse (by simp)

/-- Equality of entries of values is decidable. -/
def decEqEntries : (first second : List (String × Value)) → Decidable (first = second)
  | [], [] => isTrue rfl
  | (firstKey, first) :: firsts, (secondKey, second) :: seconds =>
      if sameKey : firstKey = secondKey then
        match decEq first second, decEqEntries firsts seconds with
        | isTrue same, isTrue sameRest => isTrue (by rw [sameKey, same, sameRest])
        | isFalse different, _ => isFalse (by simp [different])
        | _, isFalse different => isFalse (by simp [different])
      else
        isFalse (by simp [sameKey])
  | [], _ :: _ => isFalse (by simp)
  | _ :: _, [] => isFalse (by simp)

end

instance : DecidableEq Value := decEq

/-- The word for the kind of a value in messages. -/
def kindName : Value → String
  | .table _ => "table"
  | .array _ => "array"
  | .null => "NoneType"
  | .bool _ => "boolean"
  | .int _ => "integer"
  | .float _ => "float"
  | .string _ => "string"
  | .dateTime _ => "datetime"
  | .date _ => "date"
  | .time _ => "time"

mutual

/-- The value with every date and clock time in it as its text. -/
def plain : Value → Value
  | .dateTime value => .string (String.ofList value.text)
  | .date value => .string (String.ofList value.text)
  | .time value => .string (String.ofList value.text)
  | .array items => .array (plainItems items)
  | .table entries => .table (plainEntries entries)
  | .scalar other => .scalar other

/-- The values of a list with every date and clock time as its text. -/
def plainItems : List Value → List Value
  | [] => []
  | item :: items => plain item :: plainItems items

/-- The values of entries with every date and clock time as its text. -/
def plainEntries : List (String × Value) → List (String × Value)
  | [] => []
  | (key, value) :: entries => (key, plain value) :: plainEntries entries

end

end Value

end ApiWorkshop
