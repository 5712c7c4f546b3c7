import Mathlib.Data.Nat.Digits.Defs
import ApiWorkshop.Proofs.Text.Lines
import ApiWorkshop.Proofs.Text.Parts
import ApiWorkshop.Text.Quoted

/-!
# Literals stand on one line

Whatever a text is, its literal has no line break in it: the characters that are
written as themselves are none, and the others are written as escapes of letters and
digits.  A literal ends where its delimiter comes again, so what is written after it can
be told from it.
-/

namespace ApiWorkshop

namespace Text

/-! ## No line breaks -/

theorem isLineBreak_of_isPrintable {c : Char} (printable : isPrintable c = true) :
    isLineBreak c = false :=
  not_break_of isPrintable (by decide +kernel) printable

theorem isPrintable_of_code {c : Char} (atLeast : 32 ≤ c.toNat) (less : c.toNat < 127) :
    isPrintable c = true := by
  rw [isPrintable, if_pos (by omega), Bool.and_eq_true, decide_eq_true_eq, decide_eq_true_eq]
  exact ⟨atLeast, less⟩

/-- A hexadecimal digit. -/
def IsHexDigit (c : Char) : Prop :=
  ∃ digit < 16, c = Nat.digitChar digit

theorem isHexDigit_of_mem_toDigits {number : Nat} {c : Char}
    (member : c ∈ Nat.toDigits 16 number) : IsHexDigit c := by
  induction number using Nat.strong_induction_on with
  | _ number ih =>
      rw [Nat.toDigits_eq_if (by decide)] at member
      split at member
      next isSmall => exact ⟨number, isSmall, List.mem_singleton.mp member⟩
      next isLarge =>
        rcases List.mem_append.mp member with inFront | isLast
        · exact ih (number / 16) (by omega) inFront
        · exact ⟨number % 16, Nat.mod_lt _ (by decide), List.mem_singleton.mp isLast⟩

theorem isHexDigit_of_mem_paddedHex {width number : Nat} :
    ∀ c ∈ paddedHex width number, IsHexDigit c := by
  intro c member
  rcases List.mem_append.mp member with isZero | isDigit
  · rw [List.eq_of_mem_replicate isZero]
    exact ⟨0, by decide, rfl⟩
  · exact isHexDigit_of_mem_toDigits isDigit

theorem delimiter_eq (text : Text) : delimiter text = '\x27' ∨ delimiter text = '"' := by
  rw [delimiter]
  split
  · exact .inr rfl
  · exact .inl rfl

/-- The ways in which a character is written between delimiters: as itself, if it is
printable, or as an escape that goes on in printable characters. -/
inductive IsEscaped (mark c : Char) : Text → Prop
  | itself (printable : isPrintable c = true) (noMark : c ≠ mark) (noEscape : c ≠ '\\') :
      IsEscaped mark c [c]
  | escape {first : Char} {rest : Text} (isFirst : first = c ∧ (c = mark ∨ c = '\\') ∨
        first ∈ ['t', 'n', 'r', 'x', 'u', 'U']) (areDigits : ∀ d ∈ rest, IsHexDigit d) :
      IsEscaped mark c ('\\' :: first :: rest)

theorem isEscaped_escaped (mark c : Char) : IsEscaped mark c (escaped mark c) := by
  have noDigits : ∀ d ∈ ([] : Text), IsHexDigit d := by simp
  rw [escaped]
  split
  next isSpecial => exact .escape (.inl ⟨rfl, by simpa using isSpecial⟩) noDigits
  next notSpecial =>
    simp only [Bool.or_eq_true, decide_eq_true_eq, not_or] at notSpecial
    split
    · exact .escape (.inr (by decide)) noDigits
    split
    · exact .escape (.inr (by decide)) noDigits
    split
    · exact .escape (.inr (by decide)) noDigits
    split
    next printable => exact .itself printable notSpecial.1 notSpecial.2
    split
    · exact .escape (.inr (by decide)) isHexDigit_of_mem_paddedHex
    split
    · exact .escape (.inr (by decide)) isHexDigit_of_mem_paddedHex
    · exact .escape (.inr (by decide)) isHexDigit_of_mem_paddedHex

theorem not_break_of_mem_escaped {mark : Char} (isMark : isLineBreak mark = false) (c : Char) :
    ∀ d ∈ escaped mark c, isLineBreak d = false := by
  have written := isEscaped_escaped mark c
  generalize escaped mark c = text at written
  cases written with
  | itself printable _ _ =>
      simpa using isLineBreak_of_isPrintable printable
  | escape isFirst areDigits =>
      refine List.forall_mem_cons.mpr ⟨by decide, List.forall_mem_cons.mpr ⟨?_, ?_⟩⟩
      · rcases isFirst with ⟨rfl, rfl | rfl⟩ | isLetter
        · exact isMark
        · decide
        · exact eq_false_of_mem (by decide) _ isLetter
      · intro d member
        obtain ⟨digit, isSmall, rfl⟩ := areDigits d member
        exact (by decide : ∀ digit < 16, isLineBreak (Nat.digitChar digit) = false) digit isSmall

/-- A quoted literal has no line break in it. -/
theorem not_break_of_mem_quoted (text : Text) : ∀ c ∈ quoted text, isLineBreak c = false := by
  have isMark : isLineBreak (delimiter text) = false := by
    rcases delimiter_eq text with same | same <;> rw [same] <;> decide
  simp only [quoted, List.cons_append, List.forall_mem_cons, List.forall_mem_append,
    List.forall_mem_flatMap]
  refine ⟨isMark, fun c _ => not_break_of_mem_escaped isMark c, isMark, by simp⟩

/-! ## The end of a literal -/

/-- The text up to a delimiter that is not escaped, and what follows the delimiter. -/
def untilMark (mark : Char) : Text → Option (Text × Text)
  | [] => none
  | '\\' :: c :: rest =>
      (untilMark mark rest).map fun (inside, after) => ('\\' :: c :: inside, after)
  | c :: rest =>
      if c = mark then
        some ([], rest)
      else
        (untilMark mark rest).map fun (inside, after) => (c :: inside, after)

/-- What stands between the delimiters of the literal at the front of a text, and what
follows the literal. -/
def literal? : Text → Option (Text × Text)
  | [] => none
  | mark :: rest => untilMark mark rest

theorem untilMark_cons {mark c : Char} (noMark : c ≠ mark) (noEscape : c ≠ '\\') (rest : Text) :
    untilMark mark (c :: rest) =
      (untilMark mark rest).map fun (inside, after) => (c :: inside, after) := by
  rw [untilMark.eq_def]
  split
  · contradiction
  next isEscape => exact absurd (List.cons.inj isEscape).1 noEscape
  next same =>
    obtain ⟨rfl, rfl⟩ := List.cons.inj same
    rw [if_neg noMark]

theorem untilMark_append {mark : Char} {plain : Text}
    (isPlain : ∀ c ∈ plain, c ≠ mark ∧ c ≠ '\\') (rest : Text) :
    untilMark mark (plain ++ rest) =
      (untilMark mark rest).map fun (inside, after) => (plain ++ inside, after) := by
  induction plain with
  | nil => simp
  | cons c plain ih =>
      obtain ⟨⟨noMark, noEscape⟩, restPlain⟩ := List.forall_mem_cons.mp isPlain
      rw [List.cons_append, untilMark_cons noMark noEscape, ih restPlain, Option.map_map]
      rfl

theorem untilMark_escaped {mark : Char} (isMark : mark = '\x27' ∨ mark = '"') (c : Char)
    (rest : Text) : untilMark mark (escaped mark c ++ rest) =
      (untilMark mark rest).map fun (inside, after) => (escaped mark c ++ inside, after) := by
  have written := isEscaped_escaped mark c
  generalize escaped mark c = text at written
  cases written with
  | itself _ noMark noEscape => exact untilMark_cons noMark noEscape rest
  | @escape first digits _ areDigits =>
      have notMark : ∀ d ∈ digits, d ≠ mark ∧ d ≠ '\\' := by
        intro d member
        obtain ⟨digit, isSmall, rfl⟩ := areDigits d member
        have apart : ∀ digit < 16, Nat.digitChar digit ≠ '\x27' ∧ Nat.digitChar digit ≠ '"' ∧
            Nat.digitChar digit ≠ '\\' := by decide
        obtain ⟨noSingle, noDouble, noEscape⟩ := apart digit isSmall
        rcases isMark with rfl | rfl
        · exact ⟨noSingle, noEscape⟩
        · exact ⟨noDouble, noEscape⟩
      rw [List.cons_append, List.cons_append, untilMark, untilMark_append notMark, Option.map_map]
      rfl

/-- A literal ends at its last delimiter, whatever is written after it. -/
theorem literal?_quoted (text rest : Text) :
    literal? (quoted text ++ rest) =
      some (text.flatMap (escaped (delimiter text)), rest) := by
  have isMark := delimiter_eq text
  have inside (part : Text) : untilMark (delimiter text)
      (part.flatMap (escaped (delimiter text)) ++ delimiter text :: rest) =
        some (part.flatMap (escaped (delimiter text)), rest) := by
    induction part with
    | nil =>
        rcases isMark with same | same <;> simp [same, untilMark]
    | cons c part ih =>
        rw [List.flatMap_cons, List.append_assoc, untilMark_escaped isMark, ih]
        rfl
  rw [quoted, List.append_assoc]
  exact inside text

/-- A text in which nothing has to be escaped stands in its literal as it is. -/
theorem flatMap_escaped_eq_self {mark : Char} {text : Text}
    (isPlain : ∀ c ∈ text, c ≠ mark ∧ c ≠ '\\' ∧ isPrintable c = true) :
    text.flatMap (escaped mark) = text := by
  induction text with
  | nil => rfl
  | cons c text ih =>
      obtain ⟨⟨noMark, noEscape, printable⟩, restPlain⟩ := List.forall_mem_cons.mp isPlain
      have noControl {d : Char} (isControl : isPrintable d = false) : c ≠ d := by
        rintro rfl
        rw [isControl] at printable
        contradiction
      have asItself : escaped mark c = [c] := by
        rw [escaped, if_neg (by simp [noMark, noEscape]), if_neg (noControl (by decide)),
          if_neg (noControl (by decide)), if_neg (noControl (by decide)), if_pos printable]
      rw [List.flatMap_cons, asItself, ih restPlain, List.singleton_append]

end Text

end ApiWorkshop
