import ApiWorkshop.Proofs.Json.Grammar
import ApiWorkshop.Proofs.Number.Digits

/-!
# Strings and numbers are read

A string of the grammar is read as the text that it denotes, and so is a number,
if what follows does not go on with a number.
-/

namespace ApiWorkshop

namespace Json

/-! ## Strings -/

theorem ofCode_toNat (c : Char) : CodePoint.ofCode c.toNat = .char c := by
  have valid : c.toNat < 0xD800 ∨ 0xDFFF < c.toNat ∧ c.toNat < 0x110000 := c.valid
  rw [CodePoint.ofCode, dif_neg, Char.ofNat_toNat]
  simp only [CodePoint.firstHalf]
  omega

theorem ofCodes_cons_char (c : Char) (codes : List Nat) :
    ofCodes (c.toNat :: codes) = .char c :: ofCodes codes := by
  have valid : c.toNat < 0xD800 ∨ 0xDFFF < c.toNat ∧ c.toNat < 0x110000 := c.valid
  have notHigh : isHighSurrogate c.toNat = false := by
    rw [isHighSurrogate, Bool.and_eq_false_iff, decide_eq_false_iff_not, decide_eq_false_iff_not]
    omega
  cases codes with
  | nil => rw [ofCodes, ofCode_toNat, ofCodes]
  | cons code codes =>
      rw [ofCodes, notHigh, Bool.false_and, if_neg Bool.false_ne_true, ofCode_toNat c]

/-- A pair stands for a character. -/
theorem ofCode_pairCode (high low : Nat) :
    CodePoint.ofCode (pairCode high low) = .char (Char.ofNat (pairCode high low)) := by
  have isLarge : 0x10000 ≤ pairCode high low :=
    Nat.le_trans (Nat.le_add_right 0x10000 ((high - 0xD800) * 0x400))
      (Nat.le_add_right _ (low - 0xDC00))
  have noHalf : ¬(CodePoint.firstHalf ≤ pairCode high low ∧
      pairCode high low < CodePoint.firstHalf + 0x800) := by
    simp only [CodePoint.firstHalf]
    omega
  rw [CodePoint.ofCode, dif_neg noHalf]

theorem ofCodes_cons_pair {high low : Nat} (isHigh : isHighSurrogate high = true)
    (isLow : isLowSurrogate low = true) (codes : List Nat) :
    ofCodes (high :: low :: codes) = .char (Char.ofNat (pairCode high low)) :: ofCodes codes := by
  rw [ofCodes, isHigh, isLow, Bool.and_self, if_pos rfl, ofCode_pairCode]

section Codes

variable {text rest : Text} {codes : List Nat} (areRead : codes? text = some (codes, rest))

include areRead

theorem codes?_plain {c : Char} (isPlain : 32 ≤ c.toNat ∧ c ≠ '"' ∧ c ≠ '\\') :
    codes? (c :: text) = some (c.toNat :: codes, rest) := by
  obtain ⟨notControl, notQuote, notBackslash⟩ := isPlain
  have isRead : ¬(decide (c.toNat < 32) || decide (c = '\\')) = true := by
    simp [notBackslash]
    omega
  rw [codes?, if_neg isRead, areRead]
  · rfl
  · exact notQuote
  · exact fun _ _ _ _ _ isBackslash => absurd isBackslash notBackslash
  · exact fun _ _ isBackslash => absurd isBackslash notBackslash

theorem codes?_letter {c : Char} {code : Nat} (isEscape : escapeCode? c = some code) :
    codes? ('\\' :: c :: text) = some (code :: codes, rest) := by
  rw [codes?, isEscape, areRead]
  · rfl
  · rintro _ _ _ _ _ rfl
    exact nomatch isEscape

theorem codes?_unit {a b c d : Char} {unit : Nat} (isUnit : unit? a b c d = some unit) :
    codes? ('\\' :: 'u' :: a :: b :: c :: d :: text) = some (unit :: codes, rest) := by
  simp only [codes?, isUnit, areRead]
  rfl

end Codes

/-- The characters of a string are read up to the quotation mark. -/
theorem exists_codes_of_characters {inside text : Text} (areCharacters : Characters inside text)
    (rest : Text) : ∃ codes, codes? (inside ++ '"' :: rest) = some (codes, rest) ∧
      ofCodes codes = LooseText.ofText text := by
  induction areCharacters with
  | nil => exact ⟨[], rfl, rfl⟩
  | @plain c inside text isPlain _ ih =>
      obtain ⟨codes, areRead, same⟩ := ih
      refine ⟨c.toNat :: codes, codes?_plain areRead isPlain, ?_⟩
      rw [ofCodes_cons_char, same]
      rfl
  | @letter c escaped inside text isEscape _ ih =>
      obtain ⟨codes, areRead, same⟩ := ih
      refine ⟨escaped.toNat :: codes, codes?_letter areRead isEscape, ?_⟩
      rw [ofCodes_cons_char, same]
      rfl
  | @unit a b c d escaped inside text isUnit _ ih =>
      obtain ⟨codes, areRead, same⟩ := ih
      refine ⟨escaped.toNat :: codes, codes?_unit areRead isUnit, ?_⟩
      rw [ofCodes_cons_char, same]
      rfl
  | @pair a b c d a' b' c' d' high low inside text isHigh isLow _ ih =>
      obtain ⟨codes, areRead, same⟩ := ih
      refine ⟨high :: low :: codes, codes?_unit (codes?_unit areRead isLow.1) isHigh.1, ?_⟩
      rw [ofCodes_cons_pair isHigh.2 isLow.2, same]
      rfl

theorem stringRest?_of_characters {inside text : Text} (areCharacters : Characters inside text)
    (rest : Text) :
    stringRest? (inside ++ '"' :: rest) = some (LooseText.ofText text, rest) := by
  obtain ⟨codes, areRead, same⟩ := exists_codes_of_characters areCharacters rest
  rw [stringRest?, areRead, ← same]
  rfl

/-! ## Numbers -/

/-- A text that does not go on with a number. -/
def EndsNumber (rest : Text) : Prop :=
  ∀ c ∈ rest.head?, Text.isDigit c = false ∧ c ≠ '.' ∧ c ≠ 'e' ∧ c ≠ 'E'

theorem wholeDigits_of_isWhole {whole rest : Text} (isWhole : IsWhole whole)
    (ends : ∀ c ∈ rest.head?, Text.isDigit c = false) :
    wholeDigits (whole ++ rest) = (whole, rest) := by
  obtain ⟨c, digits, rfl⟩ := List.exists_cons_of_ne_nil isWhole.nonempty
  by_cases isZero : c = '0'
  · subst isZero
    obtain rfl := List.cons.inj (isWhole.zeroAlone rfl) |>.2
    rfl
  · obtain ⟨areDigits, isRest⟩ := Text.span_append isWhole.areDigits ends
    rw [wholeDigits.eq_def]
    split
    next same => exact absurd (List.cons.inj same).1 isZero
    next => rw [areDigits, isRest]

theorem fraction_of_fraction {part digits rest : Text} (isFraction : Fraction part digits)
    (ends : ∀ c ∈ rest.head?, Text.isDigit c = false ∧ c ≠ '.') :
    fraction (part ++ rest) = (if part = [] then none else some digits, rest) := by
  cases isFraction with
  | none =>
      rw [List.nil_append, fraction.eq_def]
      split
      next => exact absurd rfl (ends _ rfl).2
      next => rfl
  | some areDigits =>
      obtain ⟨isSpan, isRest⟩ := Text.span_append areDigits.areDigits
        fun c isHead => (ends c isHead).1
      rw [List.cons_append, fraction, isSpan, isRest]
      split
      next noDigit => exact absurd rfl areDigits.nonempty
      next => rfl

/-- Signs are no digits. -/
theorem exponentSign_digits {digits rest : Text} (areDigits : IsDigits digits) :
    exponentSign (digits ++ rest) = (false, digits ++ rest) := by
  obtain ⟨c, more, rfl⟩ := List.exists_cons_of_ne_nil areDigits.nonempty
  have isDigit := areDigits.areDigits c List.mem_cons_self
  rw [exponentSign.eq_def]
  split
  next same =>
    obtain ⟨rfl, -⟩ := List.cons.inj same
    exact nomatch isDigit
  next same =>
    obtain ⟨rfl, -⟩ := List.cons.inj same
    exact nomatch isDigit
  next => rfl

theorem exponent_of_exponent {part rest : Text} {power : Int} (isExponent : Exponent part power)
    (ends : EndsNumber rest) :
    exponent (part ++ rest) = (if part = [] then none else some power, rest) := by
  have behind {digits : Text} (areDigits : IsDigits digits) :=
    Text.span_append areDigits.areDigits fun c (isHead : c ∈ rest.head?) => (ends c isHead).1
  cases isExponent with
  | none =>
      rw [List.nil_append, exponent.eq_def]
      split
      next => rfl
      next c rest =>
        obtain ⟨-, -, notSmall, notLarge⟩ := ends c rfl
        simp [notSmall, notLarge]
  | unsigned isLetter areDigits =>
      obtain ⟨isSpan, isRest⟩ := behind areDigits
      simp [exponent, exponentSign_digits areDigits, isSpan, isRest, isLetter, areDigits.nonempty]
  | plus isLetter areDigits =>
      obtain ⟨isSpan, isRest⟩ := behind areDigits
      simp [exponent, exponentSign, isSpan, isRest, isLetter, areDigits.nonempty]
  | minus isLetter areDigits =>
      obtain ⟨isSpan, isRest⟩ := behind areDigits
      simp [exponent, exponentSign, isSpan, isRest, isLetter, areDigits.nonempty]

theorem unsignedNumber?_of_isWhole {whole rest : Text} (isWhole : IsWhole whole)
    (ends : EndsNumber rest) (negative : Bool) :
    unsignedNumber? negative (whole ++ rest) =
      some ((Decimal.integer? negative whole).map JsonValue.int, rest) := by
  have isFraction := fraction_of_fraction .none fun c isHead =>
    ⟨(ends c isHead).1, (ends c isHead).2.1⟩
  have isExponent := exponent_of_exponent .none ends
  rw [List.nil_append] at isFraction isExponent
  rw [unsignedNumber?, wholeDigits_of_isWhole isWhole fun c isHead => (ends c isHead).1]
  simp [isFraction, isExponent, isWhole.nonempty]

theorem unsignedNumber?_of_scientific {number rest : Text} {coefficient : Nat} {power : Int}
    (isNumber : Scientific number coefficient power) (ends : EndsNumber rest) (negative : Bool) :
    unsignedNumber? negative (number ++ rest) =
      some (some (.float (Binary64.ofDecimal negative coefficient power)), rest) := by
  cases isNumber with
  | @mk whole fractionPart digits exponentPart power isWhole isFraction isExponent hasPart =>
      -- What follows the fraction is the exponent or the end of the number.
      have endsFraction : ∀ c ∈ (exponentPart ++ rest).head?, Text.isDigit c = false ∧ c ≠ '.' := by
        cases isExponent with
        | none => exact fun c isHead => ⟨(ends c isHead).1, (ends c isHead).2.1⟩
        | unsigned isLetter _ | plus isLetter _ | minus isLetter _ =>
            intro c isHead
            obtain rfl := Option.some.inj isHead
            rcases isLetter with rfl | rfl
            · decide
            · decide
      have endsWhole : ∀ c ∈ (fractionPart ++ (exponentPart ++ rest)).head?,
          Text.isDigit c = false := by
        cases isFraction with
        | none => exact fun c isHead => (endsFraction c isHead).1
        | some _ =>
            intro c isHead
            obtain rfl := Option.some.inj isHead
            decide
      rw [List.append_assoc, List.append_assoc, unsignedNumber?,
        wholeDigits_of_isWhole isWhole endsWhole]
      simp only [fraction_of_fraction isFraction endsFraction, exponent_of_exponent isExponent ends]
      have noInteger : ((if fractionPart = [] then none else some digits).isNone &&
          (if exponentPart = [] then none else some power).isNone) = false := by
        rcases hasPart with hasFraction | hasExponent
        · simp [hasFraction]
        · simp [hasExponent]
      have sameDigits : (if fractionPart = [] then none else some digits).getD [] = digits := by
        cases isFraction with
        | none => rfl
        | some _ => rfl
      have samePower : (if exponentPart = [] then none else some power).getD 0 = power := by
        cases isExponent with
        | none => rfl
        | unsigned _ _ | plus _ _ | minus _ _ => rfl
      rw [noInteger, sameDigits, samePower, if_neg Bool.false_ne_true, if_neg]
      simp [isWhole.nonempty]

end Json

end ApiWorkshop
