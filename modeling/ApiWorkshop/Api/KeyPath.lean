import ApiWorkshop.Text.Basic

/-!
# Key paths

A key path leads from the top of a definition to a value in it, by names of
table entries and positions of array items.
-/

namespace ApiWorkshop

/-- A step of a key path. -/
inductive PathStep where
  | name (name : String)
  | index (index : Nat)
  deriving DecidableEq, Repr

/-- A way from the top of a definition to a value in it. -/
abbrev KeyPath := List PathStep

namespace KeyPath

/-- The text of a path after what is written already. -/
def textAfter : String → KeyPath → String
  | written, [] => written
  | written, .index index :: path => textAfter s!"{written}[{index}]" path
  | written, .name name :: path =>
      textAfter (if written.isEmpty then name else s!"{written}.{name}") path

/-- The text of a path, such as `endpoints[2].query.roles`. -/
def text (path : KeyPath) : String :=
  textAfter "" path

def child (path : KeyPath) (name : String) : KeyPath :=
  path ++ [.name name]

def item (path : KeyPath) (index : Nat) : KeyPath :=
  path ++ [.index index]

end KeyPath

end ApiWorkshop
