import ApiWorkshop.Text.Basic

/-!
# Loose text

An escape can name half of a surrogate pair, which is no character and has no
bytes.  A loose text may hold such halves among its characters.  It can be
compared, cut and put together like a text, but only one without halves can
become bytes; where a loose text is shown, a replacement character stands for
each half.

A draft is what a file is to hold.  It may have come from loose texts, and then
it cannot be written, but it can still be planned for and compared: no file
holds such a draft.
-/

namespace ApiWorkshop

/-- A character, or half of a surrogate pair by its place among the halves. -/
inductive CodePoint where
  | char (c : Char)
  | half (place : Fin 0x800)
  deriving DecidableEq, Repr

namespace CodePoint

def firstHalf : Nat := 0xD800

def code : CodePoint → Nat
  | char c => c.toNat
  | half place => firstHalf + place

def ofCode (code : Nat) : CodePoint :=
  if isHalf : firstHalf ≤ code ∧ code < firstHalf + 0x800 then
    half ⟨code - firstHalf, by omega⟩
  else
    char (Char.ofNat code)

/-- Whether a code point is a character. -/
def isChar : CodePoint → Bool
  | char _ => true
  | half _ => false

/-- The character that is shown for a code point. -/
def shown : CodePoint → Char
  | char c => c
  | half _ => '\ufffd'

end CodePoint

/-- Text that may hold halves of surrogate pairs. -/
abbrev LooseText := List CodePoint

namespace LooseText

def ofText (text : Text) : LooseText := text.map CodePoint.char

def ofString (text : String) : LooseText := ofText text.toList

instance : Coe Text LooseText := ⟨ofText⟩

instance : Coe String LooseText := ⟨ofString⟩

/-- The text itself, if it holds no half. -/
def text? : LooseText → Option Text
  | [] => some []
  | .char c :: rest => (text? rest).map (c :: ·)
  | .half _ :: _ => none

/-- Whether a loose text holds no half. -/
def isWhole (text : LooseText) : Bool := text.all CodePoint.isChar

/-- The text that is shown for a loose one. -/
def shown (text : LooseText) : Text := text.map CodePoint.shown

/-- The string that is shown for a loose text. -/
def label (text : LooseText) : String := String.ofList text.shown

/-- Loose texts put together as lines, each ended by a line feed. -/
def unlines (contents : List LooseText) : LooseText :=
  contents.flatMap fun content => content ++ [.char '\n']

@[simp]
theorem text?_ofText (text : Text) : text? (ofText text) = some text := by
  induction text with
  | nil => rfl
  | cons c text ih => simpa [ofText, text?] using ih

@[simp]
theorem shown_ofText (text : Text) : shown (ofText text) = text := by
  induction text with
  | nil => rfl
  | cons c text ih => simpa [ofText, shown, CodePoint.shown] using ih

@[simp]
theorem isWhole_ofText (text : Text) : isWhole (ofText text) = true := by
  induction text with
  | nil => rfl
  | cons c text _ => simp [ofText, isWhole, CodePoint.isChar]

@[simp]
theorem label_ofString (text : String) : label (ofString text) = text := by
  simp [label, ofString]

end LooseText

/-! ## Drafts -/

/-- A text that is to be written to a file. -/
structure Draft where
  /-- The text, with a replacement character for each half of a surrogate
  pair. -/
  text : Text
  /-- Whether there was no half to replace. -/
  whole : Bool := true
  deriving DecidableEq, Repr

def LooseText.draft (text : LooseText) : Draft :=
  ⟨text.shown, text.isWhole⟩

namespace Draft

instance : Coe Text Draft := ⟨fun text => ⟨text, true⟩⟩

/-- The text to write, if it has bytes. -/
def text? (draft : Draft) : Option Text :=
  if draft.whole then some draft.text else none

/-- Whether a file that holds a text holds a draft. -/
def isHeldBy (existing : Text) (draft : Draft) : Bool :=
  draft.whole && decide (existing = draft.text)

end Draft

end ApiWorkshop
