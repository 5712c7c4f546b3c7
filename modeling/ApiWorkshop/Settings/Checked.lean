import ApiWorkshop.Json.Basic

/-!
# Checked settings

Settings are read entry by entry.  A bad entry does not hide the next one: all
problems are collected, in the order in which the entries are looked at.
-/

namespace ApiWorkshop

/-- What can be wrong with a setting. -/
inductive SettingFault where
  | missing
  | notText
  | notTruth
  | unclearTruth
  | notTable
  | notUnicode
  deriving DecidableEq, Repr

/-- A setting that cannot be used, by the keys that lead to it. -/
structure SettingProblem where
  path : List String
  fault : SettingFault
  deriving DecidableEq, Repr

/-- Settings that were read, or the problems with them. -/
inductive Checked (α : Type) where
  | accepted (value : α)
  | refused (problems : List SettingProblem)
  deriving DecidableEq, Repr

namespace Checked

def fault {α : Type} (path : List String) (kind : SettingFault) : Checked α :=
  .refused [⟨path, kind⟩]

/-- The settings with a function applied to them. -/
def map {α β : Type} (change : α → β) : Checked α → Checked β
  | .accepted value => .accepted (change value)
  | .refused problems => .refused problems

/-- Settings that need two readings; the problems of both are kept. -/
def apply {α β : Type} : Checked (α → β) → Checked α → Checked β
  | .accepted change, .accepted value => .accepted (change value)
  | .accepted _, .refused problems => .refused problems
  | .refused problems, .accepted _ => .refused problems
  | .refused problems, .refused more => .refused (problems ++ more)

instance : Applicative Checked where
  pure := .accepted
  map := map
  seq change value := apply change (value ())

def text (path : List String) : JsonValue → Checked LooseText
  | .string value => .accepted value
  | _ => fault path .notText

def text? (path : List String) : JsonValue → Checked (Option LooseText)
  | .null => .accepted none
  | value => (text path value).map some

/-- The words for the two truth values, false and true. -/
def truthWords : List String × List String :=
  (["0", "off", "f", "false", "n", "no"], ["1", "on", "t", "true", "y", "yes"])

/-- The truth value that a word says, in any case. -/
def truthWord? (word : String) : Option Bool :=
  let word := word.map Char.toLower
  if word ∈ truthWords.1 then
    some false
  else if word ∈ truthWords.2 then
    some true
  else
    none

/-- The integers of 64 bits, least and greatest, that are read as truth values. -/
def truthRange : Int × Int := (-0x8000000000000000, 0x7FFFFFFFFFFFFFFF)

/-- The truth value that zero or one stands for. -/
def truthNumber? (number : Int) : Option Bool :=
  if number = 0 then
    some false
  else if number = 1 then
    some true
  else
    none

/-- A truth value that may be unclear. -/
def clearTruth (path : List String) : Option Bool → Checked Bool
  | some value => .accepted value
  | none => fault path .unclearTruth

/-- A truth value, also as a word or as an integral number.  A number out of the
range is of another kind; for a floating-point number the least of the range is
out of it as well. -/
def truth (path : List String) : JsonValue → Checked Bool
  | .bool value => .accepted value
  | .string word =>
      match word.text? with
      | some word => clearTruth path (truthWord? (String.ofList word))
      | none => fault path .notUnicode
  | .int number =>
      if truthRange.1 ≤ number ∧ number ≤ truthRange.2 then
        clearTruth path (truthNumber? number)
      else
        fault path .notTruth
  | .float number =>
      match number.toInt? with
      | some number =>
          if truthRange.1 < number ∧ number ≤ truthRange.2 then
            clearTruth path (truthNumber? number)
          else
            fault path .notTruth
      | none => fault path .notTruth
  | _ => fault path .notTruth

def table {α : Type} (path : List String)
    (read : Entries LooseText JsonValue → Checked α) : JsonValue → Checked α
  | .object entries => read entries
  | _ => fault path .notTable

/-- The setting under a key, or a fallback when there is none. -/
def orElse {α : Type} (entries : Entries LooseText JsonValue) (key : String) (fallback : α)
    (read : JsonValue → Checked α) : Checked α :=
  match Entries.get? (LooseText.ofString key) entries with
  | some value => read value
  | none => .accepted fallback

/-- The setting under a key that has to be there. -/
def required {α : Type} (entries : Entries LooseText JsonValue) (key : String)
    (read : JsonValue → Checked α) : Checked α :=
  match Entries.get? (LooseText.ofString key) entries with
  | some value => read value
  | none => fault [key] .missing

end Checked

end ApiWorkshop
