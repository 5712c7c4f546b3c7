import ApiWorkshop.Text.Loose
import ApiWorkshop.Text.Printable

/-!
# Quoted literals

A quoted literal is a text between two equal delimiters in which every
character that could not stand there as itself is escaped.  It never contains a
line break, whatever the text.  The literal of a loose text escapes the halves
of surrogate pairs too, so it is a text itself.
-/

namespace ApiWorkshop

namespace Text

/-- The delimiter of a quoted literal: the single quote, unless the text
contains one and no double quote. -/
def delimiter (text : Text) : Char :=
  if text.contains '\x27' && !text.contains '"' then '"' else '\x27'

/-- One character as it is written between delimiters. -/
def escaped (delimiter c : Char) : Text :=
  if c = delimiter || c = '\\' then
    ['\\', c]
  else if c = '\t' then
    ['\\', 't']
  else if c = '\n' then
    ['\\', 'n']
  else if c = '\r' then
    ['\\', 'r']
  else if isPrintable c then
    [c]
  else if c.toNat < 0x100 then
    '\\' :: 'x' :: paddedHex 2 c.toNat
  else if c.toNat < 0x10000 then
    '\\' :: 'u' :: paddedHex 4 c.toNat
  else
    '\\' :: 'U' :: paddedHex 8 c.toNat

def quoted (text : Text) : Text :=
  let mark := delimiter text
  mark :: text.flatMap (escaped mark) ++ [mark]

end Text

namespace LooseText

/-- One code point as it is written between delimiters. -/
def escaped (delimiter : Char) : CodePoint → Text
  | .char c => Text.escaped delimiter c
  | .half place => '\\' :: 'u' :: Text.paddedHex 4 (CodePoint.half place).code

/-- A loose text as a quoted literal. -/
def quoted (text : LooseText) : Text :=
  let mark := Text.delimiter text.shown
  mark :: text.flatMap (escaped mark) ++ [mark]

end LooseText

def quotedName (name : String) : String :=
  String.ofList (Text.quoted name.toList)

end ApiWorkshop
