/-!
# Binary floating-point numbers

A number of the 64-bit binary format is kept as exact data: a sign, an integral
significand and a power of two, counted in units of `2 ^ -1074`, the smallest
positive number of the format.  Every operation computes its exact result and
rounds it once, to the nearest number of the format, with ties going to the
even significand.
-/

namespace ApiWorkshop

/-- A 64-bit binary floating-point number.  A finite number stands for
`significand * 2 ^ scale` units of `2 ^ -1074`, with its sign. -/
inductive Binary64 where
  | nan
  | infinity (negative : Bool)
  | finite (negative : Bool) (significand scale : Nat)
  deriving DecidableEq, Repr, Inhabited

namespace Binary64

/-- How many units of the smallest positive number make one. -/
def unitsPerOne : Nat := Nat.pow 2 1074

/-- A quotient rounded to the nearest natural number, ties to even. -/
def divRoundEven (numerator denominator : Nat) : Nat :=
  let quotient := numerator / denominator
  let doubled := 2 * (numerator % denominator)
  if doubled < denominator then
    quotient
  else if denominator < doubled then
    quotient + 1
  else
    quotient + quotient % 2

/-- The number nearest to a quotient of units. -/
def round (negative : Bool) (numerator denominator : Nat) : Binary64 :=
  let floor := numerator / denominator
  let scale := floor.log2 + 1 - 53
  let significand := divRoundEven numerator (denominator * Nat.pow 2 scale)
  let (significand, scale) :=
    if significand = Nat.pow 2 53 then (Nat.pow 2 52, scale + 1) else (significand, scale)
  if 2045 < scale then .infinity negative else .finite negative significand scale

def zero : Binary64 := .finite false 0 0

/-- The magnitude of a finite number in units. -/
def magnitude? : Binary64 → Option Nat
  | .finite _ significand scale => some (significand * Nat.pow 2 scale)
  | _ => none

/-- The signed value of a finite number in units. -/
def units? : Binary64 → Option Int
  | .finite negative significand scale =>
      let magnitude : Int := (significand * Nat.pow 2 scale : Nat)
      some (if negative then -magnitude else magnitude)
  | _ => none

/-- Whether a number is neither an infinity nor a NaN. -/
def isFinite : Binary64 → Bool
  | .finite .. => true
  | _ => false

/-- The number nearest to a natural number. -/
def ofNat (n : Nat) : Binary64 :=
  round false (n * unitsPerOne) 1

/-- The number nearest to `coefficient * 10 ^ exponent`.  Far outside the range
of the format the power of ten is not computed. -/
def ofDecimal (negative : Bool) (coefficient : Nat) (exponent : Int) : Binary64 :=
  if coefficient = 0 then
    .finite negative 0 0
  else
    let size : Int := coefficient.log2 * 30103 / 100000 + exponent
    if 400 < size then
      .infinity negative
    else if size < -400 then
      .finite negative 0 0
    else if exponent < 0 then
      round negative (coefficient * unitsPerOne) (Nat.pow 10 exponent.natAbs)
    else
      round negative (coefficient * unitsPerOne * Nat.pow 10 exponent.natAbs) 1

/-- The sign of a number; a NaN counts as positive. -/
def isNegative : Binary64 → Bool
  | .nan => false
  | .infinity negative => negative
  | .finite negative _ _ => negative

def mul : Binary64 → Binary64 → Binary64
  | .finite n m q, .finite n' m' q' =>
      round (n != n') (m * Nat.pow 2 q * (m' * Nat.pow 2 q')) unitsPerOne
  | .infinity n, .infinity n' => .infinity (n != n')
  | .infinity n, .finite n' m _ => if m = 0 then .nan else .infinity (n != n')
  | .finite n m _, .infinity n' => if m = 0 then .nan else .infinity (n != n')
  | .nan, _ => .nan
  | _, .nan => .nan

def add : Binary64 → Binary64 → Binary64
  | .finite n m q, .finite n' m' q' =>
      let a := m * Nat.pow 2 q
      let b := m' * Nat.pow 2 q'
      if n = n' then
        round n (a + b) 1
      else if a = b then
        zero
      else if b < a then
        round n (a - b) 1
      else
        round n' (b - a) 1
  | .infinity n, .infinity n' => if n = n' then .infinity n else .nan
  | .infinity n, .finite .. => .infinity n
  | .finite .., .infinity n => .infinity n
  | .nan, _ => .nan
  | _, .nan => .nan

/-- The integer that a number equals, if it equals one. -/
def toInt? (x : Binary64) : Option Int :=
  match x.units? with
  | some units =>
      if units % unitsPerOne = 0 then some (units / unitsPerOne) else none
  | none => none

/-- Equality of values: the two zeros are equal, and a NaN equals nothing. -/
def sameValue : Binary64 → Binary64 → Bool
  | .nan, _ => false
  | _, .nan => false
  | .infinity n, .infinity n' => n = n'
  | .finite n m q, .finite n' m' q' =>
      (Binary64.finite n m q).units? = (Binary64.finite n' m' q').units?
  | _, _ => false

/-- Equality of the value of a number and an integer. -/
def sameAsInt (x : Binary64) (i : Int) : Bool :=
  x.units? = some (i * unitsPerOne)

/-- A number of seconds in microseconds.  The part below a second is multiplied
in the format itself and then rounded to the nearest integer, ties to even. -/
def microseconds? : Binary64 → Option Int
  | .finite negative significand scale =>
      let units := significand * Nat.pow 2 scale
      let fraction := round false (units % unitsPerOne * 1000000) 1
      let small :=
        match fraction.magnitude? with
        | some magnitude => divRoundEven magnitude unitsPerOne
        | none => 0
      let total : Int := (units / unitsPerOne * 1000000 + small : Nat)
      some (if negative then -total else total)
  | _ => none

end Binary64

end ApiWorkshop
