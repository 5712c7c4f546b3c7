import ApiWorkshop.Number.Binary64
import ApiWorkshop.Text.Basic

/-!
# The shortest decimal of a number

A finite number is written with the fewest significant digits that read back
as the same number and, of those, the nearest to it.  From one digit to
seventeen the two neighbours of the number on the decimal grid are tried.
Positional notation is used for decimal exponents from minus four to fifteen.
-/

namespace ApiWorkshop

namespace Binary64

/-- The decimal exponent of a positive magnitude: the place of its first
significant digit. -/
def leadingPlace (magnitude : Nat) : Int :=
  if unitsPerOne ≤ magnitude then
    ((Nat.toDigits 10 (magnitude / unitsPerOne)).length : Int) - 1
  else
    match (List.range 330).find? fun places => unitsPerOne ≤ magnitude * Nat.pow 10 places with
    | some places => -(places : Int)
    | none => -330

/-- The multiples of `10 ^ place` next to a positive magnitude, each with its
distance; the first is at or below the magnitude, the second above. -/
def neighbours (magnitude : Nat) (place : Int) : (Nat × Nat) × (Nat × Nat) :=
  let numerator := if place < 0 then magnitude * Nat.pow 10 place.natAbs else magnitude
  let denominator := if place < 0 then unitsPerOne else unitsPerOne * Nat.pow 10 place.natAbs
  let below := numerator / denominator
  let rest := numerator % denominator
  ((below, rest), (below + 1, denominator - rest))

/-- The coefficient at a place that reads back as a positive number, if there
is one: the nearer of the two neighbours, and the even one at equal distance. -/
def coefficientAt? (x : Binary64) (magnitude : Nat) (place : Int) : Option Nat :=
  let ((below, belowGap), (above, aboveGap)) := neighbours magnitude place
  let belowReads := decide (ofDecimal false below place = x)
  let aboveReads := decide (ofDecimal false above place = x)
  if belowReads && aboveReads then
    some (if belowGap < aboveGap then below else if aboveGap < belowGap then above
      else if below % 2 = 0 then below else above)
  else if belowReads then
    some below
  else if aboveReads then
    some above
  else
    none

/-- The shortest decimal of a positive finite number as a coefficient and the
place of its last digit. -/
def shortest (x : Binary64) (magnitude : Nat) : Nat × Int :=
  let first := leadingPlace magnitude
  let places := (List.range 18).map fun (digits : Nat) => first - (digits : Int)
  let found := places.findSome? fun place =>
    (coefficientAt? x magnitude place).map fun coefficient => (coefficient, place)
  found.getD (0, 0)

/-- An exponent with its sign and at least two digits. -/
def exponentText (exponent : Int) : Text :=
  (if exponent < 0 then '-' else '+') :: Text.padded 2 exponent.natAbs

/-- Significant digits laid out so that the first stands at a given place. -/
def layout (digits : Text) (place : Int) : Text :=
  if -4 ≤ place ∧ place < 16 then
    if place < 0 then
      "0." ++ List.replicate (place.natAbs - 1) '0' ++ digits
    else
      let whole := place.natAbs + 1
      if digits.length ≤ whole then
        digits ++ List.replicate (whole - digits.length) '0' ++ ".0"
      else
        digits.take whole ++ "." ++ digits.drop whole
  else
    let mantissa :=
      match digits with
      | first :: second :: rest => first :: '.' :: second :: rest
      | few => few
    mantissa ++ "e" ++ exponentText place

/-- The text of a positive finite number. -/
def positiveText (x : Binary64) (magnitude : Nat) : Text :=
  let (coefficient, place) := shortest x magnitude
  let written := Nat.toDigits 10 coefficient
  let digits := Text.trimEnd (· = '0') written
  layout digits (place + written.length - 1)

/-- The text of a number, with given words for the NaN and the infinity. -/
def textWith (nanWord infinityWord : Text) : Binary64 → Text
  | .nan => nanWord
  | .infinity negative => (if negative then ['-'] else []) ++ infinityWord
  | .finite negative significand scale =>
      let magnitude := significand * Nat.pow 2 scale
      (if negative then ['-'] else []) ++
        if magnitude = 0 then
          ("0.0" : Text)
        else
          positiveText (.finite false significand scale) magnitude

/-- The text of a number in a literal. -/
def text (x : Binary64) : Text :=
  textWith "nan" "inf" x

end Binary64

end ApiWorkshop
