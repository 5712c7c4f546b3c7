import ApiWorkshop.Entries
import ApiWorkshop.Number.Decimal
import ApiWorkshop.Text.Loose
import ApiWorkshop.Value.Basic

/-!
# JSON data

JSON data are words, numbers and strings, and arrays and objects of them.  A
string need not have bytes, because an escape can name half of a surrogate
pair.  Plain data becomes JSON data unless there is a date in it, or an integer
with too many digits; the first such value is the one that is told.
-/

namespace ApiWorkshop

/-- A piece of JSON data.  The keys of an object keep their order. -/
inductive JsonValue where
  | null
  | bool (value : Bool)
  | int (value : Int)
  | float (value : Binary64)
  | string (value : LooseText)
  | array (items : List JsonValue)
  | object (entries : List (LooseText × JsonValue))
  deriving Repr, Inhabited

/-- Why plain data cannot become JSON data. -/
inductive Unwritable where
  | date
  | longInteger
  deriving DecidableEq, Repr

namespace JsonValue

/-- Whether a piece of data is null. -/
def isNull : JsonValue → Bool
  | null => true
  | _ => false

def ofScalar : Scalar → Except Unwritable JsonValue
  | .null => .ok null
  | .bool value => .ok (bool value)
  | .int value => if Decimal.isWritable value then .ok (int value) else .error .longInteger
  | .float value => .ok (float value)
  | .string value => .ok (string value)
  | .dateTime _ => .error .date
  | .date _ => .error .date
  | .time _ => .error .date

mutual

def ofValue : Value → Except Unwritable JsonValue
  | .scalar part => ofScalar part
  | .array items => do
      let items ← ofItems items
      .ok (array items)
  | .table entries => do
      let entries ← ofEntries entries
      .ok (object entries)

/-- The JSON data for the items of an array. -/
def ofItems : List Value → Except Unwritable (List JsonValue)
  | [] => .ok []
  | item :: items => do
      let item ← ofValue item
      let items ← ofItems items
      .ok (item :: items)

/-- The JSON data for the entries of a table. -/
def ofEntries : List (String × Value) → Except Unwritable (List (LooseText × JsonValue))
  | [] => .ok []
  | (key, value) :: entries => do
      let value ← ofValue value
      let entries ← ofEntries entries
      .ok ((LooseText.ofString key, value) :: entries)

end

end JsonValue

end ApiWorkshop
