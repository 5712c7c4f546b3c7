import ApiWorkshop.Text.Basic

/-!
# Lines

A text falls into lines at each of ten line-break characters; a carriage
return and the line feed after it are one break.  Every line keeps its own
break, so the lines of a text put together are the text again.
-/

namespace ApiWorkshop

namespace Text

/-- The characters that end a line: line feed, vertical tab, form feed,
carriage return, the three information separators above unit, next line, and
the line and paragraph separators. -/
def isLineBreak (c : Char) : Bool :=
  c = '\n' || c = '\r' || c = '\x0b' || c = '\x0c' || c = '\x1c' || c = '\x1d' ||
    c = '\x1e' || c = '\u0085' || c = '\u2028' || c = '\u2029'

/-- The lines of a text, each with the break that ends it.  Only the last line
can lack one. -/
def lines : Text → List Text
  | [] => []
  | '\r' :: '\n' :: text => ['\r', '\n'] :: lines text
  | c :: text =>
      if isLineBreak c then
        [c] :: lines text
      else
        match lines text with
        | [] => [[c]]
        | line :: rest => (c :: line) :: rest

/-- A line without the break that ends it. -/
def lineContent (line : Text) : Text :=
  match before? ['\r', '\n'] line with
  | some content => content
  | none =>
      match line.getLast? with
      | some c => if isLineBreak c then line.dropLast else line
      | none => line

/-- The lines of a text without their breaks. -/
def lineContents (text : Text) : List Text :=
  (lines text).map lineContent

/-- Lines put together, each ended by a line feed. -/
def unlines (contents : List Text) : Text :=
  contents.flatMap fun content => content ++ ['\n']

/-- Strings put together as lines, each ended by a line feed. -/
def ofLines (contents : List String) : Text :=
  unlines (contents.map String.toList)

/-- Every pair of carriage return and line feed becomes a line feed. -/
def unixLines : Text → Text
  | [] => []
  | '\r' :: '\n' :: text => '\n' :: unixLines text
  | c :: text => c :: unixLines text

/-- Every pair of carriage return and line feed, and every other carriage
return, becomes a line feed. -/
def universalLines : Text → Text
  | [] => []
  | '\r' :: '\n' :: text => '\n' :: universalLines text
  | c :: text => (if c = '\r' then '\n' else c) :: universalLines text

theorem lines_flatten (text : Text) : (lines text).flatten = text := by
  fun_induction lines text with
  | case1 => rfl
  | case2 text ih => simp [ih]
  | case3 c text _ _ ih => simp [ih]
  | case4 c text _ _ empty ih =>
      rw [empty] at ih
      simp [← ih]
  | case5 c text _ _ line rest split ih =>
      rw [split] at ih
      simpa using ih

end Text

end ApiWorkshop
