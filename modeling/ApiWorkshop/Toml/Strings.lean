import ApiWorkshop.Text.Classes
import ApiWorkshop.Toml.Fault

/-!
# Strings and keys of a configuration document

Literal strings run to the next closing mark.  Basic strings have escapes, and
their multi-line form may break a line with a backslash.  A key is a sequence
of bare or quoted parts with dots between them.
-/

namespace ApiWorkshop

namespace Toml

/-- The control characters that no string of a single line and no comment may
hold; a tab is allowed. -/
def isControl (c : Char) : Bool :=
  (c.toNat < 32 || c.toNat = 127) && c != '\t'

/-- The control characters that a multi-line string may not hold. -/
def isBlockControl (c : Char) : Bool :=
  isControl c && c != '\n'

/-- Whether a character separates the parts of a line. -/
def isSpace (c : Char) : Bool := Text.isSpaceOrTab c

/-- Whether a character is a space, a tab or a line feed. -/
def isSpaceOrLine (c : Char) : Bool := isSpace c || c = '\n'

/-- A text without the spaces and tabs at its start. -/
def skipSpaces (text : Text) : Text := text.dropWhile isSpace

/-- The text before the first occurrence of a mark and the text after it. -/
def splitAtMark? (mark : Text) : Text → Option (Text × Text)
  | [] => (Text.after? mark []).map fun rest => ([], rest)
  | c :: text =>
      match Text.after? mark (c :: text) with
      | some rest => some ([], rest)
      | none => (splitAtMark? mark text).map fun (before, rest) => (c :: before, rest)

/-- Reads the inside of a literal string and the mark that ends it. -/
def literalString (mark : String) (isIllegal : Char → Bool) (text : Text) :
    Except Stop (Text × Text) :=
  match splitAtMark? mark text with
  | none => stop (.expectedMark mark) []
  | some (inside, rest) =>
      match inside.find? isIllegal with
      | some c => stop (.invalidCharacter c) (text.dropWhile (!isIllegal ·))
      | none => .ok (inside, rest)

/-- Reads the given number of hexadecimal digits as one character. -/
def hexCharacter (count : Nat) (text : Text) : Except Stop (Text × Text) :=
  let digits := (text.take count).filterMap Text.hexDigit?
  if digits.length = count then
    let code := Text.ofDigits 16 digits
    if code.isValidChar then
      .ok ([Char.ofNat code], text.drop count)
    else
      stop .notScalarValue (text.drop count)
  else
    stop .invalidHex text

/-- Reads what follows a backslash: the characters it stands for.  In a
multi-line string a backslash at the end of a line stands for nothing and takes
the blank text after it along. -/
def escape (multiline : Bool) : Text → Except Stop (Text × Text)
  | [] => stop .strayBackslash []
  | c :: rest =>
      if multiline && c = '\n' then
        .ok ([], rest.dropWhile isSpaceOrLine)
      else if multiline && isSpace c then
        match skipSpaces rest with
        | [] => .ok ([], [])
        | '\n' :: after => .ok ([], after.dropWhile isSpaceOrLine)
        | after => stop .strayBackslash after
      else
        match c with
        | 'u' => hexCharacter 4 rest
        | 'U' => hexCharacter 8 rest
        | 'b' => .ok (['\x08'], rest)
        | 't' => .ok (['\t'], rest)
        | 'n' => .ok (['\n'], rest)
        | 'f' => .ok (['\x0c'], rest)
        | 'r' => .ok (['\r'], rest)
        | '"' => .ok (['"'], rest)
        | '\\' => .ok (['\\'], rest)
        | _ => stop .strayBackslash rest

/-- Reads the inside of a basic string and the mark that ends it, in at most a
number of steps; every step takes up a character. -/
def basicString (multiline : Bool) : Nat → Text → Except Stop (Text × Text)
  | _, [] => stop .unterminatedString []
  | 0, text => stop .unterminatedString text
  | steps + 1, '"' :: rest =>
      if multiline then
        match rest with
        | '"' :: '"' :: after => .ok ([], after)
        | _ => do
            let (inside, after) ← basicString multiline steps rest
            .ok ('"' :: inside, after)
      else
        .ok ([], rest)
  | steps + 1, '\\' :: rest => do
      let (written, after) ← escape multiline rest
      let (inside, after) ← basicString multiline steps after
      .ok (written ++ inside, after)
  | steps + 1, c :: rest =>
      if (if multiline then isBlockControl c else isControl c) then
        stop (.illegalCharacter c) (c :: rest)
      else do
        let (inside, after) ← basicString multiline steps rest
        .ok (c :: inside, after)

/-- Up to two more quotation marks after the mark that ends a multi-line string
belong to the string. -/
def closingMarks (mark : Char) (inside : Text) : Text → Text × Text
  | c :: d :: rest =>
      if c = mark then
        if d = mark then (inside ++ [mark, mark], rest) else (inside ++ [mark], d :: rest)
      else
        (inside, c :: d :: rest)
  | [c] => if c = mark then (inside ++ [mark], []) else (inside, [c])
  | [] => (inside, [])

/-- A line feed right after the opening mark of a multi-line string does not
belong to it. -/
def skipFirstLine : Text → Text
  | '\n' :: rest => rest
  | text => text

/-- Reads a string of any kind, after its opening quotation mark. -/
def stringValue (mark : Char) (text : Text) : Except Stop (Text × Text) :=
  match Text.after? [mark, mark] text with
  | some block => do
      let block := skipFirstLine block
      let (inside, rest) ←
        if mark = '"' then
          basicString true block.length block
        else
          literalString "'''" isBlockControl block
      .ok (closingMarks mark inside rest)
  | none =>
      if mark = '"' then
        basicString false text.length text
      else
        literalString "'" isControl text

/-- Whether a character may stand in a bare part of a key. -/
def isBareKey (c : Char) : Bool := c.isAlphanum || c = '-' || c = '_'

def keyPart (text : Text) : Except Stop (String × Text) :=
  match text with
  | [] => stop .invalidKeyStart []
  | c :: rest =>
      if isBareKey c then
        .ok (String.ofList (text.takeWhile isBareKey), text.dropWhile isBareKey)
      else if c = '"' then do
        let (inside, rest) ← basicString false rest.length rest
        .ok (String.ofList inside, rest)
      else if c = '\x27' then do
        let (inside, rest) ← literalString "'" isControl rest
        .ok (String.ofList inside, rest)
      else
        stop .invalidKeyStart text

/-- Reads the parts of a key and the spaces after it, in at most a number of
steps; every part takes up a character. -/
def keyParts : Nat → Text → Except Stop (Key × Text)
  | 0, text => stop .invalidKeyStart text
  | steps + 1, text => do
      let (part, rest) ← keyPart text
      match skipSpaces rest with
      | '.' :: after => do
          let (parts, rest) ← keyParts steps (skipSpaces after)
          .ok (part :: parts, rest)
      | rest => .ok ([part], rest)

/-- Reads a key and the spaces after it. -/
def key (text : Text) : Except Stop (Key × Text) :=
  keyParts (text.length + 1) text

end Toml

end ApiWorkshop
