import ApiWorkshop.Text.Basic

/-!
# Words and case conventions

A name falls into words of ASCII letters and digits.  Any other character
separates two words, and so does the place between a lower-case letter or
digit and an upper-case letter.  The module has the case conventions of the
generated artifacts, and the rule that derives a package name from a project
name.
-/

namespace ApiWorkshop

namespace Text

/-- Whether a character may stand in a word. -/
def isWordPart (c : Char) : Bool := c.isAlphanum

/-- Whether a new word starts between two adjacent characters of a name. -/
def isCamelBoundary (before after : Char) : Bool :=
  (before.isLower || before.isDigit) && after.isUpper

def words : Text → List Text
  | [] => []
  | [c] => if isWordPart c then [[c]] else []
  | c :: d :: rest =>
      if !isWordPart c then
        words (d :: rest)
      else if !isWordPart d || isCamelBoundary c d then
        [c] :: words (d :: rest)
      else
        match words (d :: rest) with
        | [] => [[c]]
        | word :: more => (c :: word) :: more

/-- A word with its first letter in upper case. -/
def capitalized : Text → Text
  | [] => []
  | c :: rest => c.toUpper :: rest

/-- The words of a name in lower case, joined by underscores. -/
def snakeCase (name : Text) : Text :=
  List.intercalate ['_'] ((words name).map (List.map Char.toLower))

/-- The capitalized words of a name in one piece. -/
def pascalCase (name : Text) : Text :=
  (words name).flatMap capitalized

/-- A name with an underscore put at each change from a lower-case letter or
digit to an upper-case letter. -/
def markBoundaries : Text → Text
  | c :: d :: rest =>
      if isCamelBoundary c d then
        c :: '_' :: markBoundaries (d :: rest)
      else
        c :: markBoundaries (d :: rest)
  | rest => rest

/-- Each maximal run of characters outside a class becomes one underscore; the
flag says that the character before belonged to such a run. -/
def collapseRuns (keep : Char → Bool) : Bool → Text → Text
  | _, [] => []
  | inRun, c :: rest =>
      if keep c then
        c :: collapseRuns keep false rest
      else if inRun then
        collapseRuns keep true rest
      else
        '_' :: collapseRuns keep true rest

/-- A name rewritten in place: boundaries marked, other characters collapsed
to single underscores, none at either end, and all in lower case. -/
def underscored (name : Text) : Text :=
  (trim (· = '_') (collapseRuns isWordPart false (markBoundaries name))).map Char.toLower

/-- The lower case of a character, as far as it matters for a package name:
outside ASCII only two characters have a lower case with an ASCII letter in
it, the dotted capital I and the Kelvin sign. -/
def packageLower (c : Char) : Text :=
  if c = '\u0130' then
    ['i', '\u0307']
  else if c = '\u212a' then
    ['k']
  else
    [c.toLower]

/-- The package name of a project name: its lower-case ASCII letters and
digits, with everything between them as one underscore.  A name without any
is called `app`, and a package name does not start with a digit. -/
def packageName (name : Text) : Text :=
  let lowered := name.flatMap packageLower
  let slug := trim (· = '_')
    (collapseRuns (fun c => c.isLower || c.isDigit) false lowered)
  match slug with
  | [] => "app"
  | c :: _ => if c.isDigit then "app_" ++ slug else slug

end Text

end ApiWorkshop
