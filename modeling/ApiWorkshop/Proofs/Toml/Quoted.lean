import ApiWorkshop.Proofs.Number.Digits
import ApiWorkshop.Proofs.Api.Reading
import ApiWorkshop.Proofs.Json.Escapes
import ApiWorkshop.Proofs.Text.Literals
import ApiWorkshop.Toml.Values

/-!
# Quoted literals in documents

A quoted literal is not a string of a document, though both use the same marks: between
single marks a document has no escapes, and between double marks it does not have all
that a literal has.  So the literal of a text is read as that text exactly if nothing in
it is escaped, or if it stands between double marks and each of its escapes is one that
documents have.
-/

namespace ApiWorkshop

namespace Toml

open Text

/-! ## Literal strings -/

theorem splitAtMark?_append {mark : Char} {inside : Text} (apart : mark ∉ inside) (rest : Text) :
    splitAtMark? [mark] (inside ++ mark :: rest) = some (inside, rest) := by
  induction inside with
  | nil => simp [splitAtMark?, after?]
  | cons c inside ih =>
      obtain ⟨different, restApart⟩ := not_or.mp (mt List.mem_cons.mpr apart)
      rw [List.cons_append, splitAtMark?, after?, if_neg different, ih restApart]
      rfl

theorem notMem_of_splitAtMark? {mark : Char} {text inside rest : Text}
    (isSplit : splitAtMark? [mark] text = some (inside, rest)) : mark ∉ inside := by
  induction text generalizing inside with
  | nil => simp [splitAtMark?, after?] at isSplit
  | cons c text ih =>
      rw [splitAtMark?] at isSplit
      split at isSplit
      · obtain ⟨rfl, -⟩ := Prod.mk.inj (Option.some.inj isSplit)
        simp
      next notMark =>
        obtain ⟨⟨before, after⟩, isRest, same⟩ := Option.map_eq_some_iff.mp isSplit
        obtain ⟨rfl, rfl⟩ := Prod.mk.inj same
        have different : mark ≠ c := by
          rintro rfl
          simp [after?] at notMark
        exact fun member => (List.mem_cons.mp member).elim different (ih isRest)

/-- What is left after the first mark ends in what stands after the last one. -/
theorem exists_of_splitAtMark?_append {mark : Char} {content rest inside after : Text}
    (isSplit : splitAtMark? [mark] (content ++ mark :: rest) = some (inside, after)) :
    ∃ middle, after = middle ++ rest ∧ ∀ c ∈ middle, c ∈ content ++ [mark] := by
  induction content generalizing inside with
  | nil =>
      rw [List.nil_append, splitAtMark?, after?, if_pos rfl, after?] at isSplit
      obtain ⟨-, rfl⟩ := Prod.mk.inj (Option.some.inj isSplit)
      exact ⟨[], rfl, by simp⟩
  | cons c content ih =>
      rw [List.cons_append, splitAtMark?] at isSplit
      split at isSplit
      next isMark =>
        obtain ⟨-, rfl⟩ := Prod.mk.inj (Option.some.inj isSplit)
        rw [after?] at isMark
        split at isMark
        · obtain rfl := Option.some.inj isMark
          exact ⟨content ++ [mark], by simp, fun d member => List.mem_cons_of_mem _ member⟩
        · contradiction
      next =>
        obtain ⟨⟨before, left⟩, isRest, same⟩ := Option.map_eq_some_iff.mp isSplit
        obtain ⟨-, rfl⟩ := Prod.mk.inj same
        obtain ⟨middle, isMiddle, inContent⟩ := ih isRest
        exact ⟨middle, isMiddle, fun d member => List.mem_cons_of_mem _ (inContent d member)⟩

theorem literalString_append {inside : Text} (apart : '\x27' ∉ inside)
    (noControl : ∀ c ∈ inside, isControl c = false) (rest : Text) :
    literalString "'" isControl (inside ++ '\x27' :: rest) = .ok (inside, rest) := by
  have isMark : "'".toList = ['\x27'] := rfl
  have noneFound : inside.find? isControl = none := by
    simpa [List.find?_eq_none] using noControl
  rw [literalString, isMark, splitAtMark?_append apart]
  simp only [noneFound]

/-! ## Hexadecimal escapes -/

theorem ofDigits_hex_toDigits (number : Nat) :
    ofDigits 16 ((Nat.toDigits 16 number).filterMap hexDigit?) = number := by
  induction number using Nat.strong_induction_on with
  | _ number ih =>
      rw [Nat.toDigits_eq_if (by decide)]
      split
      next isSmall => simp [Json.hexDigit?_digitChar isSmall, ofDigits]
      next isLarge =>
        have isLast := Json.hexDigit?_digitChar (Nat.mod_lt number (by decide : 0 < 16))
        rw [List.filterMap_append, ofDigits_append, ih _ (by omega)]
        simp [isLast, ofDigits]
        omega

theorem ofDigits_zeros (base count : Nat) : ofDigits base (List.replicate count 0) = 0 := by
  induction count with
  | zero => rfl
  | succ count ih =>
      rw [List.replicate_succ', ofDigits_append, ih]
      simp [ofDigits]

theorem ofDigits_paddedHex (width number : Nat) :
    ofDigits 16 ((paddedHex width number).filterMap hexDigit?) = number := by
  have isZero : hexDigit? '0' = some 0 := rfl
  rw [paddedHex, List.filterMap_append, ofDigits_append, List.filterMap_replicate_of_some isZero,
    ofDigits_zeros, ofDigits_hex_toDigits, Nat.zero_mul, Nat.zero_add]

theorem length_filterMap_hexDigit? {text : Text} (areDigits : ∀ c ∈ text, IsHexDigit c) :
    (text.filterMap hexDigit?).length = text.length := by
  induction text with
  | nil => rfl
  | cons c text ih =>
      obtain ⟨⟨digit, isSmall, rfl⟩, restDigits⟩ := List.forall_mem_cons.mp areDigits
      rw [List.filterMap_cons_some (Json.hexDigit?_digitChar isSmall), List.length_cons,
        List.length_cons, ih restDigits]

theorem length_paddedHex {width number : Nat} (isPositive : 0 < width)
    (fits : number < 16 ^ width) : (paddedHex width number).length = width := by
  have isShort : (Nat.toDigits 16 number).length ≤ width :=
    (Nat.length_toDigits_le_iff (by decide) isPositive).mpr fits
  rw [paddedHex, List.length_append, List.length_replicate]
  omega

/-- A padded number is read as the character with that number, if there is one. -/
theorem hexCharacter_paddedHex {width code : Nat} (isPositive : 0 < width)
    (fits : code < 16 ^ width) (rest : Text) :
    hexCharacter width (paddedHex width code ++ rest) =
      if code.isValidChar then .ok ([Char.ofNat code], rest) else stop .notScalarValue rest := by
  have hasLength := length_paddedHex isPositive fits
  have isTaken : (paddedHex width code ++ rest).take width = paddedHex width code := by
    rw [List.take_append_of_le_length (Nat.le_of_eq hasLength.symm),
      List.take_of_length_le (Nat.le_of_eq hasLength)]
  have isDropped : (paddedHex width code ++ rest).drop width = rest := by
    rw [List.drop_append_of_le_length (Nat.le_of_eq hasLength.symm),
      List.drop_of_length_le (Nat.le_of_eq hasLength), List.nil_append]
  have areDigits : ((paddedHex width code).filterMap hexDigit?).length = width := by
    rw [length_filterMap_hexDigit? isHexDigit_of_mem_paddedHex, hasLength]
  simp only [hexCharacter, isTaken, isDropped, areDigits, if_true, ofDigits_paddedHex]

theorem escape_four (rest : Text) : escape false ('u' :: rest) = hexCharacter 4 rest :=
  rfl

theorem escape_eight (rest : Text) : escape false ('U' :: rest) = hexCharacter 8 rest :=
  rfl

/-! ## Basic strings -/

/-- A character that stands for itself between double marks. -/
def IsPlain (c : Char) : Prop :=
  c ≠ '"' ∧ c ≠ '\\' ∧ isControl c = false

instance : DecidablePred IsPlain :=
  fun _ => inferInstanceAs (Decidable (_ ∧ _ ∧ _))

/-- A string of a single line goes on after something that is read as some text. -/
theorem basicString_plain {c : Char} (isPlain : IsPlain c) (steps : Nat) (rest : Text) :
    basicString false (steps + 1) (c :: rest) =
      (basicString false steps rest).map fun (inside, after) => (c :: inside, after) := by
  obtain ⟨noMark, noEscape, noControl⟩ := isPlain
  rw [basicString]
  · simp only [noControl, if_false, Bool.false_eq_true]
    cases basicString false steps rest <;> rfl
  · exact noMark
  · exact noEscape

theorem basicString_escape {rest after written : Text}
    (isEscape : escape false rest = .ok (written, after)) (steps : Nat) :
    basicString false (steps + 1) ('\\' :: rest) =
      (basicString false steps after).map fun (inside, after) => (written ++ inside, after) := by
  rw [basicString, isEscape]
  simp only [Bind.bind, Except.bind]
  cases basicString false steps after <;> rfl

theorem cases_of_hexCharacter {width : Nat} {text written after : Text}
    (isRead : hexCharacter width text = .ok (written, after)) :
    written.length = 1 ∧ ∃ front, text = front ++ after := by
  rw [hexCharacter] at isRead
  dsimp only at isRead
  split at isRead
  · split at isRead
    · obtain ⟨rfl, rfl⟩ := Prod.mk.inj (Except.ok.inj isRead)
      exact ⟨rfl, text.take width, (List.take_append_drop width text).symm⟩
    · contradiction
  · contradiction

/-- An escape is written with a character at least and stands for one. -/
theorem cases_of_escape {text written after : Text}
    (isRead : escape false text = .ok (written, after)) :
    written.length = 1 ∧ ∃ c front, text = c :: (front ++ after) := by
  have single (c d : Char) (rest : Text)
      (isRead : (Except.ok ([d], rest) : Except Stop (Text × Text)) = .ok (written, after)) :
      written.length = 1 ∧ ∃ first front, c :: rest = first :: (front ++ after) := by
    obtain ⟨rfl, rfl⟩ := Prod.mk.inj (Except.ok.inj isRead)
    exact ⟨rfl, c, [], rfl⟩
  have coded (width : Nat) (c : Char) (rest : Text)
      (isRead : hexCharacter width rest = .ok (written, after)) :
      written.length = 1 ∧ ∃ first front, c :: rest = first :: (front ++ after) := by
    obtain ⟨isOne, front, rfl⟩ := cases_of_hexCharacter isRead
    exact ⟨isOne, c, front, rfl⟩
  cases text with
  | nil => simp [escape, stop] at isRead
  | cons c rest =>
      simp only [escape, Bool.false_and, Bool.false_eq_true, if_false] at isRead
      split at isRead
      · exact coded 4 _ rest isRead
      · exact coded 8 _ rest isRead
      · exact single _ _ rest isRead
      · exact single _ _ rest isRead
      · exact single _ _ rest isRead
      · exact single _ _ rest isRead
      · exact single _ _ rest isRead
      · exact single _ _ rest isRead
      · exact single _ _ rest isRead
      · contradiction

/-- What a string is read from is longer than the string by its last mark, and by more
unless it is the string itself. -/
theorem exists_of_basicString {steps : Nat} {text inside after : Text}
    (isRead : basicString false steps text = .ok (inside, after)) :
    ∃ front, text = front ++ after ∧ inside.length < front.length ∧
      (front.length = inside.length + 1 → front = inside ++ ['"'] ∧ ∀ c ∈ inside, IsPlain c) := by
  induction steps generalizing text inside after with
  | zero => cases text <;> simp [basicString, stop] at isRead
  | succ steps ih =>
      rcases text with _ | ⟨c, rest⟩
      · simp [basicString, stop] at isRead
      by_cases isMark : c = '"'
      · subst isMark
        obtain ⟨rfl, rfl⟩ := Prod.mk.inj (Except.ok.inj isRead)
        exact ⟨['"'], rfl, by simp, fun _ => ⟨rfl, by simp⟩⟩
      · by_cases isEscape : c = '\\'
        · subst isEscape
          rw [basicString] at isRead
          obtain ⟨⟨written, afterEscape⟩, isWritten, isRead⟩ := bind_eq_ok_iff.mp isRead
          obtain ⟨⟨more, afterMore⟩, isMore, same⟩ := bind_eq_ok_iff.mp isRead
          obtain ⟨rfl, rfl⟩ := Prod.mk.inj (Except.ok.inj same)
          obtain ⟨isOne, first, escaped, rfl⟩ := cases_of_escape isWritten
          obtain ⟨front, rfl, isLonger, -⟩ := ih isMore
          refine ⟨'\\' :: first :: (escaped ++ front), by simp, ?_, fun isExact => ?_⟩
          · simp only [List.length_cons, List.length_append]
            omega
          · simp only [List.length_cons, List.length_append] at isExact
            omega
        · cases control : isControl c with
          | true =>
              rw [basicString.eq_6 _ _ _ _ isMark isEscape] at isRead
              simp [control, stop] at isRead
          | false =>
              rw [basicString_plain ⟨isMark, isEscape, control⟩] at isRead
              obtain ⟨⟨more, afterMore⟩, isMore, same⟩ := map_eq_ok_iff.mp isRead
              obtain ⟨rfl, rfl⟩ := Prod.mk.inj same
              obtain ⟨front, rfl, isLonger, isSame⟩ := ih isMore
              refine ⟨c :: front, rfl, by simpa using isLonger, fun isExact => ?_⟩
              obtain ⟨rfl, arePlain⟩ := isSame (by simpa using isExact)
              exact ⟨rfl, List.forall_mem_cons.mpr ⟨⟨isMark, isEscape, control⟩, arePlain⟩⟩

/-! ## Escapes of quoted literals -/

theorem isControl_of_isPrintable {c : Char} (printable : isPrintable c = true) :
    isControl c = false := by
  rw [isPrintable] at printable
  split at printable
  · simp only [Bool.and_eq_true, decide_eq_true_eq] at printable
    simp [isControl, Nat.not_lt.mpr printable.1, Nat.ne_of_lt printable.2]
  next isLarge =>
    simp [isControl, show ¬ c.toNat < 32 by omega, show c.toNat ≠ 127 by omega]

/-- A code point that stands in a literal as itself. -/
def IsLiteral : CodePoint → Prop
  | .char c => isPrintable c = true ∧ c ≠ '\\'
  | .half _ => False

/-- A code point is written as itself or as an escape. -/
theorem escaped_cases (mark : Char) (c : CodePoint) :
    (∃ d, c = .char d ∧ LooseText.escaped mark c = [d] ∧ IsLiteral c ∧ d ≠ mark) ∨
      ∃ first digits, LooseText.escaped mark c = '\\' :: first :: digits ∧
        (∀ d ∈ digits, IsHexDigit d) ∧ (first ∈ ['t', 'n', 'r', 'x', 'u', 'U'] ∨
          c = .char first ∧ (first = mark ∨ first = '\\')) := by
  cases c with
  | half place => exact .inr ⟨_, _, rfl, isHexDigit_of_mem_paddedHex, by simp⟩
  | char c =>
      have written := isEscaped_escaped mark c
      rw [LooseText.escaped]
      generalize Text.escaped mark c = text at written
      cases written with
      | itself printable noMark noEscape => exact .inl ⟨c, rfl, rfl, ⟨printable, noEscape⟩, noMark⟩
      | escape isFirst areDigits =>
          refine .inr ⟨_, _, rfl, areDigits, ?_⟩
          rcases isFirst with ⟨rfl, isSpecial⟩ | inList
          · exact .inr ⟨rfl, isSpecial⟩
          · exact .inl inList

instance : DecidablePred IsLiteral
  | .char _ => inferInstanceAs (Decidable (_ ∧ _))
  | .half _ => inferInstanceAs (Decidable False)

/-- A code point that is written between double marks as a document reads it. -/
def IsBasic : CodePoint → Prop
  | .char c => isPrintable c = true ∨ c ∈ ['\t', '\n', '\r'] ∨ 0x100 ≤ c.toNat
  | .half _ => False

instance : DecidablePred IsBasic
  | .char _ => inferInstanceAs (Decidable (_ ∨ _ ∨ _))
  | .half _ => inferInstanceAs (Decidable False)

theorem basicString_escaped {c : CodePoint} (isBasic : IsBasic c) (steps : Nat) (rest : Text) :
    basicString false (steps + 1) (LooseText.escaped '"' c ++ rest) =
      (basicString false steps rest).map fun (inside, after) => (c.shown :: inside, after) := by
  cases c with
  | half place => exact isBasic.elim
  | char c =>
      have isValid : c.toNat.isValidChar := c.valid
      have isRead {text : Text} (isEscape : escape false text = .ok ([c], rest)) :
          basicString false (steps + 1) ('\\' :: text) = (basicString false steps rest).map
            fun (inside, after) => ((CodePoint.char c).shown :: inside, after) :=
        basicString_escape isEscape steps
      rw [LooseText.escaped, Text.escaped]
      split
      next isSpecial =>
        simp only [Bool.or_eq_true, decide_eq_true_eq] at isSpecial
        rcases isSpecial with rfl | rfl
        · exact isRead (by rfl)
        · exact isRead (by rfl)
      next notSpecial =>
        simp only [Bool.or_eq_true, decide_eq_true_eq, not_or] at notSpecial
        split
        next isTab =>
          subst isTab
          exact isRead (by rfl)
        split
        next isLine =>
          subst isLine
          exact isRead (by rfl)
        split
        next isReturn =>
          subst isReturn
          exact isRead (by rfl)
        split
        next printable =>
          exact basicString_plain
            ⟨notSpecial.1, notSpecial.2, isControl_of_isPrintable printable⟩ steps rest
        split
        next noTab noLine noReturn notPrintable isSmall =>
          rcases isBasic with printable | inList | isLarge
          · exact absurd printable notPrintable
          · simp [noTab, noLine, noReturn] at inList
          · omega
        split
        next fits =>
          rw [List.cons_append, List.cons_append]
          refine isRead ?_
          rw [escape_four, hexCharacter_paddedHex (by decide) fits, if_pos isValid,
            Char.ofNat_toNat]
        next =>
          have fits : c.toNat < 16 ^ 8 := by
            have inRange := isValid
            simp only [Nat.isValidChar] at inRange
            omega
          rw [List.cons_append, List.cons_append]
          refine isRead ?_
          rw [escape_eight, hexCharacter_paddedHex (by decide) fits, if_pos isValid,
            Char.ofNat_toNat]

theorem basicString_escaped_error {c : CodePoint} (notBasic : ¬ IsBasic c) (steps : Nat)
    (rest : Text) : ∃ found,
      basicString false (steps + 1) (LooseText.escaped '"' c ++ rest) = .error found := by
  have fails {text : Text} {found : Stop} (isEscape : escape false text = .error found) :
      ∃ found, basicString false (steps + 1) ('\\' :: text) = .error found := by
    refine ⟨found, ?_⟩
    rw [basicString, isEscape]
    rfl
  cases c with
  | half place =>
      have fits : (CodePoint.half place).code < 16 ^ 4 := by
        have inRange := place.isLt
        simp only [CodePoint.code, CodePoint.firstHalf]
        omega
      have notValid : ¬ (CodePoint.half place).code.isValidChar := by
        have inRange := place.isLt
        simp only [CodePoint.code, CodePoint.firstHalf, Nat.isValidChar]
        omega
      have isError : escape false ('u' :: (paddedHex 4 (CodePoint.half place).code ++ rest)) =
          .error ⟨.notScalarValue, rest⟩ := by
        rw [escape_four, hexCharacter_paddedHex (by decide) fits, if_neg notValid]
        rfl
      exact fails isError
  | char c =>
      simp only [IsBasic, not_or] at notBasic
      obtain ⟨notPrintable, notInList, isSmall⟩ := notBasic
      have noSpecial : ¬ (c = '"' ∨ c = '\\') := by
        rintro (rfl | rfl)
        · exact notPrintable (by decide)
        · exact notPrintable (by decide)
      simp only [List.mem_cons, List.not_mem_nil, or_false, not_or] at notInList
      rw [LooseText.escaped, Text.escaped, if_neg (by simpa using noSpecial),
        if_neg notInList.1, if_neg notInList.2.1, if_neg notInList.2.2, if_neg notPrintable,
        if_pos (by omega)]
      have isError : escape false ('x' :: (paddedHex 2 c.toNat ++ rest)) =
          .error ⟨.strayBackslash, paddedHex 2 c.toNat ++ rest⟩ := rfl
      exact fails isError

theorem basicString_flatMap {text : LooseText} (areBasic : ∀ c ∈ text, IsBasic c) (steps : Nat)
    (rest : Text) :
    basicString false (text.length + (steps + 1))
      (text.flatMap (LooseText.escaped '"') ++ '"' :: rest) = .ok (text.shown, rest) := by
  induction text with
  | nil => rw [List.length_nil, Nat.zero_add]; rfl
  | cons c text ih =>
      obtain ⟨isBasic, restBasic⟩ := List.forall_mem_cons.mp areBasic
      have isNext : (c :: text).length + (steps + 1) = text.length + (steps + 1) + 1 := by
        rw [List.length_cons]
        omega
      rw [isNext, List.flatMap_cons, List.append_assoc, basicString_escaped isBasic, ih restBasic]
      rfl

/-- Between double marks only basic code points are read. -/
theorem isBasic_of_basicString {steps : Nat} {text : LooseText} {rest inside after : Text}
    (isRead : basicString false steps (text.flatMap (LooseText.escaped '"') ++ rest) =
      .ok (inside, after)) : ∀ c ∈ text, IsBasic c := by
  induction text generalizing steps inside after with
  | nil => simp
  | cons c text ih =>
      rw [List.flatMap_cons, List.append_assoc] at isRead
      cases steps with
      | zero =>
          rcases escaped_cases '"' c with ⟨d, -, isWritten, -⟩ | ⟨first, digits, isWritten, -⟩ <;>
            simp [isWritten, basicString, stop] at isRead
      | succ steps =>
          by_cases isBasic : IsBasic c
          · rw [basicString_escaped isBasic] at isRead
            obtain ⟨⟨more, afterMore⟩, isMore, -⟩ := map_eq_ok_iff.mp isRead
            exact List.forall_mem_cons.mpr ⟨isBasic, ih isMore⟩
          · obtain ⟨found, isError⟩ := basicString_escaped_error isBasic steps
              (text.flatMap (LooseText.escaped '"') ++ rest)
            rw [isError] at isRead
            contradiction

/-! ## Literals between single marks -/

theorem mark_notMem_digits {digits : Text} (areDigits : ∀ d ∈ digits, IsHexDigit d) :
    '\x27' ∉ digits := by
  intro member
  obtain ⟨digit, isSmall, same⟩ := areDigits _ member
  have apart : ∀ digit < 16, '\x27' ≠ Nat.digitChar digit := by decide
  exact apart digit isSmall same

/-- No single mark is written for a text without one. -/
theorem mark_notMem_flatMap {text : LooseText} (apart : .char '\x27' ∉ text) :
    '\x27' ∉ text.flatMap (LooseText.escaped '\x27') := by
  intro member
  obtain ⟨c, inText, written⟩ := List.mem_flatMap.mp member
  have different : c ≠ .char '\x27' := fun same => apart (same ▸ inText)
  rcases escaped_cases '\x27' c with ⟨d, rfl, isWritten, -, noMark⟩ |
    ⟨first, digits, isWritten, areDigits, isFirst⟩
  · rw [isWritten] at written
    exact noMark (List.mem_singleton.mp written).symm
  · rw [isWritten] at written
    rcases List.mem_cons.mp written with isEscape | written
    · simp at isEscape
    · rcases List.mem_cons.mp written with rfl | inDigits
      · rcases isFirst with inList | ⟨same, -⟩
        · simp at inList
        · exact different same
      · exact mark_notMem_digits areDigits inDigits

theorem flatMap_escaped_of_isLiteral {mark : Char} {text : LooseText}
    (areLiteral : ∀ c ∈ text, IsLiteral c) (apart : .char mark ∉ text) :
    text.flatMap (LooseText.escaped mark) = text.shown := by
  induction text with
  | nil => rfl
  | cons c text ih =>
      obtain ⟨isLiteral, restLiteral⟩ := List.forall_mem_cons.mp areLiteral
      obtain ⟨different, restApart⟩ := not_or.mp (mt List.mem_cons.mpr apart)
      rw [List.flatMap_cons, ih restLiteral restApart]
      cases c with
      | half place => exact isLiteral.elim
      | char c =>
          have noMark : c ≠ mark := fun same => different (by rw [same])
          have asItself : [c].flatMap (Text.escaped mark) = [c] :=
            flatMap_escaped_eq_self (by simpa using ⟨noMark, isLiteral.2, isLiteral.1⟩)
          rw [List.flatMap_cons, List.flatMap_nil, List.append_nil] at asItself
          rw [LooseText.escaped, asItself]
          rfl

theorem length_escaped_pos (mark : Char) (c : CodePoint) :
    0 < (LooseText.escaped mark c).length := by
  rcases escaped_cases mark c with ⟨d, -, isWritten, -⟩ | ⟨first, digits, isWritten, -⟩ <;>
    simp [isWritten]

theorem length_le_flatMap_escaped (mark : Char) (text : LooseText) :
    text.length ≤ (text.flatMap (LooseText.escaped mark)).length := by
  induction text with
  | nil => exact Nat.le_refl _
  | cons c text ih =>
      have isWritten := length_escaped_pos mark c
      rw [List.flatMap_cons, List.length_append, List.length_cons]
      omega

/-- If a literal is as long as its text, every code point stands in it as itself. -/
theorem isLiteral_of_length {mark : Char} {text : LooseText}
    (isShort : (text.flatMap (LooseText.escaped mark)).length ≤ text.length) :
    ∀ c ∈ text, IsLiteral c := by
  induction text with
  | nil => simp
  | cons c text ih =>
      have restAtLeast := length_le_flatMap_escaped mark text
      have isWritten := length_escaped_pos mark c
      rw [List.flatMap_cons, List.length_append, List.length_cons] at isShort
      refine List.forall_mem_cons.mpr ⟨?_, ih (by omega)⟩
      rcases escaped_cases mark c with ⟨d, -, -, isLiteral, -⟩ | ⟨first, digits, written, -⟩
      · exact isLiteral
      · rw [written] at isShort
        simp only [List.length_cons] at isShort
        omega

/-! ## Whole literals -/

/-- A text whose quoted literal a document reads as that text. -/
def ReadsAlike (text : LooseText) : Prop :=
  (.char '\x27' ∉ text ∧ ∀ c ∈ text, IsLiteral c) ∨
    (.char '\x27' ∈ text ∧ .char '"' ∉ text ∧ ∀ c ∈ text, IsBasic c)

instance : DecidablePred ReadsAlike :=
  fun _ => inferInstanceAs (Decidable (_ ∨ _))

theorem mem_shown_iff {c : Char} (isShown : c ≠ '\ufffd') {text : LooseText} :
    c ∈ text.shown ↔ .char c ∈ text := by
  rw [LooseText.shown, List.mem_map]
  constructor
  · rintro ⟨point, member, same⟩
    cases point with
    | char d => exact (show d = c from same) ▸ member
    | half place => exact absurd same.symm isShown
  · exact fun member => ⟨_, member, rfl⟩

theorem delimiter_shown (text : LooseText) :
    (.char '\x27' ∈ text ∧ .char '"' ∉ text ∧ delimiter text.shown = '"') ∨
      ((.char '\x27' ∉ text ∨ .char '"' ∈ text) ∧ delimiter text.shown = '\x27') := by
  have single : '\x27' ∈ text.shown ↔ .char '\x27' ∈ text := mem_shown_iff (by decide)
  have double : '"' ∈ text.shown ↔ .char '"' ∈ text := mem_shown_iff (by decide)
  rw [delimiter]
  split
  next usesDouble =>
    simp only [Bool.and_eq_true, List.contains_iff_mem, Bool.not_eq_true',
      Bool.eq_false_iff, ne_eq, single, double] at usesDouble
    exact .inl ⟨usesDouble.1, usesDouble.2, rfl⟩
  next usesSingle =>
    refine .inr ⟨?_, rfl⟩
    simp only [Bool.and_eq_true, List.contains_iff_mem, Bool.not_eq_true',
      Bool.eq_false_iff, ne_eq, single, double] at usesSingle
    tauto

theorem delimiter_ne_backslash {text : Text} : delimiter text ≠ '\\' := by
  rw [delimiter]
  split <;> decide

theorem ReadsAlike.ofText_shown {text : LooseText} (alike : ReadsAlike text) :
    LooseText.ofText text.shown = text := by
  have areChars : ∀ c ∈ text, CodePoint.char c.shown = c := by
    intro c member
    cases c with
    | char c => rfl
    | half place =>
        rcases alike with ⟨-, areLiteral⟩ | ⟨-, -, areBasic⟩
        · exact (areLiteral _ member).elim
        · exact (areBasic _ member).elim
  rw [LooseText.ofText, LooseText.shown, List.map_map]
  exact (List.map_congr_left areChars).trans (List.map_id text)

/-- A string that does not start with its own mark stands on a line. -/
theorem stringValue_eq {mark : Char} {inside rest : Text} (start : ∀ c ∈ inside.head?, c ≠ mark)
    (ends : ∀ c ∈ rest.head?, c ≠ mark) :
    stringValue mark (inside ++ mark :: rest) =
      if mark = '"' then
        basicString false (inside ++ mark :: rest).length (inside ++ mark :: rest)
      else
        literalString "'" isControl (inside ++ mark :: rest) := by
  have noBlock : after? [mark, mark] (inside ++ mark :: rest) = none := by
    cases inside with
    | nil =>
        cases rest with
        | nil => simp [after?]
        | cons c rest => simp [after?, (ends c rfl).symm]
    | cons c inside => simp [after?, (start c rfl).symm]
  rw [stringValue, noBlock]

theorem head?_flatMap_escaped {mark : Char} (noEscape : mark ≠ '\\') (text : LooseText) :
    ∀ c ∈ (text.flatMap (LooseText.escaped mark)).head?, c ≠ mark := by
  cases text with
  | nil => simp
  | cons c text =>
      rcases escaped_cases mark c with ⟨d, -, isWritten, -, noMark⟩ |
        ⟨first, digits, isWritten, -⟩
      · simpa [isWritten] using noMark
      · simpa [isWritten] using noEscape.symm

section Literals

variable {text : LooseText} {rest : Text}

theorem literalString_of_apart (apart : .char '\x27' ∉ text)
    (areLiteral : ∀ c ∈ text, IsLiteral c) :
    literalString "'" isControl (text.flatMap (LooseText.escaped '\x27') ++ '\x27' :: rest) =
      .ok (text.shown, rest) := by
  rw [flatMap_escaped_of_isLiteral areLiteral apart]
  refine literalString_append (mt (mem_shown_iff (by decide)).mp apart) (fun c member => ?_) rest
  obtain ⟨point, inText, rfl⟩ := List.mem_map.mp member
  cases point with
  | half place => exact (areLiteral _ inText).elim
  | char c => exact isControl_of_isPrintable (areLiteral _ inText).1

/-- The literal of a text that reads alike is read as that text. -/
theorem stringValue_of_readsAlike (alike : ReadsAlike text)
    (ends : ∀ c ∈ rest.head?, c ≠ delimiter text.shown) :
    stringValue (delimiter text.shown)
      (text.flatMap (LooseText.escaped (delimiter text.shown)) ++ delimiter text.shown :: rest) =
        .ok (text.shown, rest) := by
  rw [stringValue_eq (head?_flatMap_escaped delimiter_ne_backslash text) ends]
  rcases alike with ⟨apart, areLiteral⟩ | ⟨single, noDouble, areBasic⟩
  · obtain ⟨single, -⟩ | ⟨-, usesSingle⟩ := delimiter_shown text
    · contradiction
    · rw [usesSingle, if_neg (by decide)]
      exact literalString_of_apart apart areLiteral
  · obtain ⟨-, -, usesDouble⟩ | ⟨noSingle, -⟩ := delimiter_shown text
    · rw [usesDouble, if_pos rfl]
      have isLong := length_le_flatMap_escaped '"' text
      obtain ⟨steps, isLength⟩ := Nat.exists_eq_add_of_le
        (show text.length + 1 ≤ (text.flatMap (LooseText.escaped '"') ++ '"' :: rest).length by
          rw [List.length_append, List.length_cons]
          omega)
      rw [isLength, Nat.add_assoc, Nat.add_comm 1]
      exact basicString_flatMap areBasic steps rest
    · exact (noSingle.elim (· single) noDouble).elim

example : ReadsAlike "the team's 1.0" := by
  decide

example : ¬ ReadsAlike "1\\2" := by
  decide

/-- However the literal of a text is read, it reads alike if it is that text, and only
what stood in the literal is left in front of the rest. -/
theorem exists_of_stringValue {inside after : Text}
    (ends : ∀ c ∈ rest.head?, c ≠ delimiter text.shown)
    (isRead : stringValue (delimiter text.shown)
      (text.flatMap (LooseText.escaped (delimiter text.shown)) ++ delimiter text.shown :: rest) =
        .ok (inside, after)) :
    (LooseText.ofText inside = text ↔ ReadsAlike text) ∧
      ∃ middle, after = middle ++ rest ∧ ∀ c ∈ middle, c ∈ text.quoted := by
  have exactly (alike : ReadsAlike text) : inside = text.shown ∧ after = rest := by
    rw [stringValue_of_readsAlike alike ends] at isRead
    obtain ⟨same, sameRest⟩ := Prod.mk.inj (Except.ok.inj isRead)
    exact ⟨same.symm, sameRest.symm⟩
  have ofAlike (alike : ReadsAlike text) : LooseText.ofText inside = text := by
    rw [(exactly alike).1, alike.ofText_shown]
  rw [stringValue_eq (head?_flatMap_escaped delimiter_ne_backslash text) ends] at isRead
  obtain ⟨single, noDouble, usesDouble⟩ | ⟨-, usesSingle⟩ := delimiter_shown text
  · rw [usesDouble, if_pos rfl] at isRead
    have alike : ReadsAlike text := .inr ⟨single, noDouble, isBasic_of_basicString isRead⟩
    exact ⟨⟨fun _ => alike, ofAlike⟩, [], (exactly alike).2, by simp⟩
  · rw [usesSingle, if_neg (by decide), literalString,
      show "'".toList = ['\x27'] from rfl] at isRead
    split at isRead
    · contradiction
    next split isSplit =>
      split at isRead
      · contradiction
      · obtain ⟨rfl, rfl⟩ := Prod.mk.inj (Except.ok.inj isRead)
        refine ⟨⟨fun same => ?_, ofAlike⟩, ?_⟩
        · have apart : .char '\x27' ∉ text := by
            rw [← same, LooseText.ofText, List.mem_map]
            rintro ⟨c, member, isMark⟩
            cases isMark
            exact notMem_of_splitAtMark? isSplit member
          rw [splitAtMark?_append (mark_notMem_flatMap apart)] at isSplit
          obtain ⟨isInside, -⟩ := Prod.mk.inj (Option.some.inj isSplit)
          have sameLength : (text.flatMap (LooseText.escaped '\x27')).length = text.length := by
            rw [isInside, ← congrArg List.length same, LooseText.ofText, List.length_map]
          exact .inl ⟨apart, isLiteral_of_length (Nat.le_of_eq sameLength)⟩
        · obtain ⟨middle, isMiddle, inLiteral⟩ := exists_of_splitAtMark?_append isSplit
          refine ⟨middle, isMiddle, fun c member => ?_⟩
          rw [LooseText.quoted, usesSingle]
          exact List.mem_cons_of_mem _ (inLiteral c member)

end Literals

/-- A quoted literal has no line break in it. -/
theorem not_break_of_mem_literal (text : LooseText) :
    ∀ c ∈ text.quoted, isLineBreak c = false := by
  have isMark : isLineBreak (delimiter text.shown) = false := by
    rcases delimiter_eq text.shown with same | same <;> rw [same] <;> decide
  have inEscaped (c : CodePoint) :
      ∀ d ∈ LooseText.escaped (delimiter text.shown) c, isLineBreak d = false := by
    cases c with
    | char c => exact Text.not_break_of_mem_escaped isMark c
    | half place =>
        refine List.forall_mem_cons.mpr ⟨by decide, List.forall_mem_cons.mpr ⟨by decide, ?_⟩⟩
        intro d member
        obtain ⟨digit, isSmall, rfl⟩ := isHexDigit_of_mem_paddedHex d member
        exact (by decide : ∀ digit < 16, isLineBreak (Nat.digitChar digit) = false) digit isSmall
  simp only [LooseText.quoted, List.cons_append, List.forall_mem_cons, List.forall_mem_append,
    List.forall_mem_flatMap]
  exact ⟨isMark, fun c _ => inEscaped c, isMark, by simp⟩

end Toml

end ApiWorkshop
