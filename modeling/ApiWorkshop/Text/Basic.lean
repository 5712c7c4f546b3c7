/-!
# Text

Documents are read and written one character at a time, so a text is a list of
characters.  Names and messages stay strings; a string is taken as a text
wherever one is expected.  This module has the few operations on whole texts
that the readers, writers and the region merger share; those that only compare
characters work on every kind of text.
-/

namespace ApiWorkshop

/-- Text that is read or written character by character. -/
abbrev Text := List Char

instance : Coe String Text := ⟨String.toList⟩

namespace Text

variable {α : Type} [DecidableEq α]

/-- What follows `front` in a text that starts with it. -/
def after? : List α → List α → Option (List α)
  | [], text => some text
  | _ :: _, [] => none
  | c :: front, d :: text => if c = d then after? front text else none

/-- What comes before `back` in a text that ends with it. -/
def before? (back text : List α) : Option (List α) :=
  (after? back.reverse text.reverse).map List.reverse

/-- The text without the characters at its end that satisfy a test. -/
def trimEnd (drop : Char → Bool) (text : Text) : Text :=
  (text.reverse.dropWhile drop).reverse

/-- The text without the characters at either end that satisfy a test. -/
def trim (drop : Char → Bool) (text : Text) : Text :=
  trimEnd drop (text.dropWhile drop)

/-- The pieces between the occurrences of a separating character; there is
always at least one. -/
def pieces (separator : α) : List α → List (List α)
  | [] => [[]]
  | c :: text =>
      if c = separator then
        [] :: pieces separator text
      else
        match pieces separator text with
        | [] => [[c]]
        | piece :: rest => (c :: piece) :: rest

/-- Whether `part` occurs somewhere in a text. -/
def hasPart (part : Text) : Text → Bool
  | [] => part.isEmpty
  | c :: text => part.isPrefixOf (c :: text) || hasPart part text

/-- Replacement of the occurrences of `old`, where the first `skip` characters
belong to an occurrence that is already replaced. -/
def replaceFrom (old new : List α) : Nat → List α → List α
  | _, [] => []
  | skip + 1, _ :: text => replaceFrom old new skip text
  | 0, c :: text =>
      if old.isPrefixOf (c :: text) then
        new ++ replaceFrom old new (old.length - 1) text
      else
        c :: replaceFrom old new 0 text

/-- Every occurrence of a nonempty text replaced, from left to right. -/
def replaceAll (old new text : List α) : List α :=
  if old.isEmpty then text else replaceFrom old new 0 text

/-- A natural number in decimal, filled with zeros to at least `width` digits. -/
def padded (width number : Nat) : Text :=
  let digits := Nat.toDigits 10 number
  List.replicate (width - digits.length) '0' ++ digits

/-- A natural number in lower-case hexadecimal, filled with zeros to at least
`width` digits. -/
def paddedHex (width number : Nat) : Text :=
  let digits := Nat.toDigits 16 number
  List.replicate (width - digits.length) '0' ++ digits

/-- The value of an ASCII decimal digit. -/
def digit? (c : Char) : Option Nat :=
  if '0' ≤ c ∧ c ≤ '9' then some (c.toNat - '0'.toNat) else none

/-- Whether a character is an ASCII decimal digit. -/
def isDigit (c : Char) : Bool := '0' ≤ c && c ≤ '9'

/-- The value of an ASCII hexadecimal digit of either case. -/
def hexDigit? (c : Char) : Option Nat :=
  if '0' ≤ c ∧ c ≤ '9' then
    some (c.toNat - '0'.toNat)
  else if 'a' ≤ c ∧ c ≤ 'f' then
    some (c.toNat - 'a'.toNat + 10)
  else if 'A' ≤ c ∧ c ≤ 'F' then
    some (c.toNat - 'A'.toNat + 10)
  else
    none

/-- The number that digits write in a base, most significant digit first. -/
def ofDigits (base : Nat) (digits : List Nat) : Nat :=
  digits.foldl (fun value digit => value * base + digit) 0

/-- The number written by ASCII decimal digits; other characters are passed
over. -/
def decimal (text : Text) : Nat :=
  ofDigits 10 (text.filterMap digit?)

end Text

end ApiWorkshop
