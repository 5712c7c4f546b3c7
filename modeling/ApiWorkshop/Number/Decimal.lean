import ApiWorkshop.Text.Basic

/-!
# How long an integer may be

Decimal digits are read as an integer, and an integer is written in decimal, up
to a number of digits.  The digits of other bases and of floating-point numbers
have no limit.
-/

namespace ApiWorkshop

namespace Decimal

/-- The most decimal digits that an integer is read from or written with. -/
def digitLimit : Nat := 4300

/-- The smallest size with too many digits. -/
def sizeBound : Nat := Nat.pow 10 digitLimit

/-- Whether an integer has few enough digits to be written. -/
def isWritable (value : Int) : Bool :=
  value.natAbs < sizeBound

/-- The integer that decimal digits write after a sign, unless there are too
many. -/
def integer? (negative : Bool) (digits : Text) : Option Int :=
  if digits.length ≤ digitLimit then
    let size : Int := (Text.decimal digits : Nat)
    some (if negative then -size else size)
  else
    none

end Decimal

end ApiWorkshop
