import ApiWorkshop.Text.Basic

/-!
# Placeholders

A path may hold placeholders: names between braces, with no brace inside.
-/

namespace ApiWorkshop

/-- The placeholder names in a text.  Inside an open brace the name read so far
is kept in reverse. -/
def placeholdersFrom : Option Text → Text → List Text
  | _, [] => []
  | opened, c :: rest =>
      if c = '\x7b' then
        placeholdersFrom (some []) rest
      else
        match opened with
        | none => placeholdersFrom none rest
        | some name =>
            if c = '\x7d' then
              if name.isEmpty then
                placeholdersFrom none rest
              else
                name.reverse :: placeholdersFrom none rest
            else
              placeholdersFrom (some (c :: name)) rest

/-- The names of the placeholders of a path, in order. -/
def placeholders (path : String) : List String :=
  (placeholdersFrom none path.toList).map String.ofList

end ApiWorkshop
