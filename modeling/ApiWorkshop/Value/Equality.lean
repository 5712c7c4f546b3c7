import ApiWorkshop.Value.Basic

/-!
# Comparing values

Two values match when they mean the same: numbers by value, whether integer or
floating point, tables whatever the order of their keys.  Inside arrays and
tables a truth value counts as the number one or zero.  Nothing matches a NaN.
-/

namespace ApiWorkshop

namespace Scalar

/-- The number that a scalar counts as. -/
inductive Number where
  | int (value : Int)
  | float (value : Binary64)

/-- A truth value counts as one or zero, and a number as itself. -/
def number? : Scalar → Option Number
  | .bool value => some (.int (if value then 1 else 0))
  | .int value => some (.int value)
  | .float value => some (.float value)
  | _ => none

/-- Whether two numbers have the same value. -/
def Number.same : Number → Number → Bool
  | .int i, .int j => i = j
  | .int i, .float x => x.sameAsInt i
  | .float x, .int i => x.sameAsInt i
  | .float x, .float y => x.sameValue y

/-- Whether two date-times mean the same.  Two naive ones or two aware ones are
compared as instants; a naive one and an aware one never match. -/
def sameDateTime (first second : DateTime) : Bool :=
  first.offset.isSome == second.offset.isSome && first.instant == second.instant

def matchesScalar (first second : Scalar) : Bool :=
  match first, second with
  | .null, .null => true
  | .string s, .string t => s = t
  | .dateTime s, .dateTime t => sameDateTime s t
  | .date s, .date t => s = t
  | .time s, .time t => s = t
  | first, second =>
      match first.number?, second.number? with
      | some x, some y => x.same y
      | _, _ => false

end Scalar

namespace Value

mutual

def sameAs : Value → Value → Bool
  | .scalar first, .scalar second => first.matchesScalar second
  | .array first, .array second => sameItems first second
  | .table first, .table second =>
      first.length == second.length && sameEntries first second
  | _, _ => false

/-- Whether two lists of values match item by item. -/
def sameItems : List Value → List Value → Bool
  | [], [] => true
  | first :: firsts, second :: seconds => sameAs first second && sameItems firsts seconds
  | _, _ => false

/-- Whether every entry matches the value under its key in a table. -/
def sameEntries : List (String × Value) → List (String × Value) → Bool
  | [], _ => true
  | (key, value) :: entries, others =>
      (match Entries.get? key others with
        | some other => sameAs value other
        | none => false) &&
        sameEntries entries others

end

/-- Whether a value is a truth value. -/
def isBool : Value → Bool
  | .bool _ => true
  | _ => false

/-- Whether a value is one of the members of a list.  A truth value is never
the number it counts as. -/
def isMember (members : List Value) (value : Value) : Bool :=
  members.any fun member => member.isBool == value.isBool && member.sameAs value

end Value

end ApiWorkshop
