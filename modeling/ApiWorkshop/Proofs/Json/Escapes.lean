import Mathlib.Data.List.Chain
import ApiWorkshop.Json.Print
import ApiWorkshop.Proofs.Json.Tokens

/-!
# Written strings are read

A string is written with escapes for what cannot stand in it, and on demand for all
characters outside ASCII.  It is read as the text that it was written for, unless two
halves of a surrogate pair follow each other in the text: their escapes are those of
one character.  A text that was read never has such halves.
-/

namespace ApiWorkshop

/-- No first half of a surrogate pair stands directly before a second half. -/
def LooseText.IsApart (text : LooseText) : Prop :=
  text.IsChain fun first second =>
    ¬ (Json.isHighSurrogate first.code = true ∧ Json.isLowSurrogate second.code = true)

namespace Json

/-! ## Units -/

theorem hexDigit?_digitChar {digit : Nat} (isSmall : digit < 16) :
    Text.hexDigit? digit.digitChar = some digit := by
  have all : ∀ small : Fin 16, Text.hexDigit? (small : Nat).digitChar = some (small : Nat) := by decide
  exact all ⟨digit, isSmall⟩

theorem paddedHex_four {unit : Nat} (isSmall : unit < 0x10000) :
    Text.paddedHex 4 unit = [(unit / 4096).digitChar, (unit / 256 % 16).digitChar,
      (unit / 16 % 16).digitChar, (unit % 16).digitChar] := by
  have digits (number : Nat) : Nat.toDigits 16 number = if number < 16 then [number.digitChar]
      else Nat.toDigits 16 (number / 16) ++ [(number % 16).digitChar] :=
    Nat.toDigits_eq_if (by decide)
  have second : unit / 16 / 16 = unit / 256 := Nat.div_div_eq_div_mul ..
  have third : unit / 256 / 16 = unit / 4096 := Nat.div_div_eq_div_mul ..
  rw [Text.paddedHex, digits unit, digits (unit / 16), second, digits (unit / 256), third,
    digits (unit / 4096), if_pos (by omega : unit / 4096 < 16)]
  have noDigit {number : Nat} (isZero : number = 0) : number.digitChar = '0' := by
    rw [isZero]
    rfl
  split
  next isSmall =>
    rw [noDigit (by omega : unit / 4096 = 0), noDigit (by omega : unit / 256 % 16 = 0),
      noDigit (by omega : unit / 16 % 16 = 0), Nat.mod_eq_of_lt isSmall]
    rfl
  next =>
    split
    next isSmall =>
      rw [noDigit (by omega : unit / 4096 = 0), noDigit (by omega : unit / 256 % 16 = 0),
        Nat.mod_eq_of_lt isSmall]
      rfl
    next =>
      split
      next isSmall =>
        rw [noDigit (by omega : unit / 4096 = 0), Nat.mod_eq_of_lt isSmall]
        rfl
      next => rfl

/-- The escape of a unit is read as the unit. -/
theorem exists_unit {unit : Nat} (isSmall : unit < 0x10000) :
    ∃ a b c d, Text.paddedHex 4 unit = [a, b, c, d] ∧ unit? a b c d = some unit := by
  refine ⟨_, _, _, _, paddedHex_four isSmall, ?_⟩
  have first := hexDigit?_digitChar (by omega : unit / 4096 < 16)
  have second := hexDigit?_digitChar (by omega : unit / 256 % 16 < 16)
  have third := hexDigit?_digitChar (by omega : unit / 16 % 16 < 16)
  have fourth := hexDigit?_digitChar (by omega : unit % 16 < 16)
  simp only [unit?, List.mapM_cons, List.mapM_nil, first, second, third, fourth]
  simp [Text.ofDigits]
  omega

theorem codes?_unitEscape {unit : Nat} (isSmall : unit < 0x10000) {text rest : Text}
    {codes : List Nat} (areRead : codes? text = some (codes, rest)) :
    codes? (unitEscape unit ++ text) = some (unit :: codes, rest) := by
  obtain ⟨a, b, c, d, same, isUnit⟩ := exists_unit isSmall
  rw [unitEscape, same]
  exact codes?_unit areRead isUnit

/-! ## Codes -/

/-- The codes that are read from a code point as it is written. -/
def codesOf (charset : Charset) (point : CodePoint) : List Nat :=
  if charset = .ascii ∧ 0x10000 ≤ point.code then
    [0xD800 + (point.code - 0x10000) / 0x400, 0xDC00 + (point.code - 0x10000) % 0x400]
  else
    [point.code]

theorem toNat_lt (c : Char) : c.toNat < 0x110000 := by
  have valid : c.toNat < 0xD800 ∨ 0xDFFF < c.toNat ∧ c.toNat < 0x110000 := c.valid
  omega

theorem codes?_unitEscapes (c : Char) {text rest : Text} {codes : List Nat}
    (areRead : codes? text = some (codes, rest)) :
    codes? (unitEscapes c ++ text) = some (codesOf .ascii (.char c) ++ codes, rest) := by
  have isBelow := toNat_lt c
  rw [unitEscapes, codesOf, CodePoint.code]
  split
  next isSmall =>
    rw [if_neg (by omega)]
    exact codes?_unitEscape isSmall areRead
  next notSmall =>
    rw [if_pos ⟨rfl, by omega⟩, List.append_assoc]
    exact codes?_unitEscape (by omega) (codes?_unitEscape (by omega) areRead)

/-- A character is read as its codes. -/
theorem codes?_character (charset : Charset) (c : Char) {text rest : Text} {codes : List Nat}
    (areRead : codes? text = some (codes, rest)) :
    codes? (character charset c ++ text) = some (codesOf charset (.char c) ++ codes, rest) := by
  have oneCode (isOne : c.toNat < 0x10000 ∨ charset ≠ .ascii) :
      codesOf charset (.char c) = [c.toNat] := by
    rw [codesOf, CodePoint.code, if_neg]
    rintro ⟨isAscii, isLarge⟩
    exact isOne.elim (by omega) fun notAscii => notAscii isAscii
  unfold character
  split
  case h_8 notQuote notBackslash _ _ _ _ _ =>
    split
    next isControl =>
      rw [oneCode (.inl (by omega))]
      exact codes?_unitEscape (by omega) areRead
    next notControl =>
      have isPlain : 32 ≤ c.toNat ∧ c ≠ '"' ∧ c ≠ '\\' := ⟨by omega, notQuote, notBackslash⟩
      split
      next isEscaped =>
        obtain rfl : charset = .ascii := by simpa using (Bool.and_eq_true_iff.mp isEscaped).2
        exact codes?_unitEscapes c areRead
      next notEscaped =>
        have isOne : c.toNat < 0x10000 ∨ charset ≠ .ascii := by
          simp only [Bool.and_eq_true, decide_eq_true_eq, not_and] at notEscaped
          by_cases isAscii : charset = .ascii
          · exact .inl (by have := mt (@notEscaped) (not_not.mpr isAscii); omega)
          · exact .inr isAscii
        rw [oneCode isOne]
        exact codes?_plain areRead isPlain
  all_goals
    rw [oneCode (.inl (by decide))]
    exact codes?_letter areRead rfl

theorem codes?_codePoint (charset : Charset) (point : CodePoint) {text rest : Text}
    {codes : List Nat} (areRead : codes? text = some (codes, rest)) :
    codes? (codePoint charset point ++ text) = some (codesOf charset point ++ codes, rest) := by
  cases point with
  | char c => exact codes?_character charset c areRead
  | half place =>
      have isSmall : (CodePoint.half place).code < 0x10000 := by
        simp only [CodePoint.code, CodePoint.firstHalf]
        omega
      rw [codesOf, if_neg (by omega)]
      exact codes?_unitEscape isSmall areRead

theorem codes?_flatMap (charset : Charset) (text : LooseText) (rest : Text) :
    codes? (text.flatMap (codePoint charset) ++ '"' :: rest) =
      some (text.flatMap (codesOf charset), rest) := by
  induction text with
  | nil => rfl
  | cons point text ih =>
      rw [List.flatMap_cons, List.append_assoc, codes?_codePoint charset point ih]
      rfl

/-! ## Halves -/

/-- A character is no half. -/
theorem not_surrogate_toNat (c : Char) :
    isHighSurrogate c.toNat = false ∧ isLowSurrogate c.toNat = false := by
  have valid : c.toNat < 0xD800 ∨ 0xDFFF < c.toNat ∧ c.toNat < 0x110000 := c.valid
  simp only [isHighSurrogate, isLowSurrogate, Bool.and_eq_false_iff, decide_eq_false_iff_not]
  omega

/-- The codes of a code point begin with a second half only if it is one. -/
theorem isLowSurrogate_of_head?_codesOf {charset : Charset} {point : CodePoint} {code : Nat}
    (isHead : code ∈ (codesOf charset point).head?) (isLow : isLowSurrogate code = true) :
    isLowSurrogate point.code = true := by
  rw [codesOf] at isHead
  split at isHead
  next isPair =>
    obtain rfl := Option.some.inj isHead
    cases point with
    | half place =>
        simp only [CodePoint.code, CodePoint.firstHalf] at isPair
        omega
    | char c =>
        have isBelow : (CodePoint.char c).code < 0x110000 := toNat_lt c
        rw [isLowSurrogate, Bool.and_eq_true, decide_eq_true_eq, decide_eq_true_eq] at isLow
        omega
  next =>
    obtain rfl := Option.some.inj isHead
    exact isLow

theorem ofCode_code (point : CodePoint) : CodePoint.ofCode point.code = point := by
  cases point with
  | char c => exact ofCode_toNat c
  | half place =>
      have isHalf : CodePoint.firstHalf ≤ (CodePoint.half place).code ∧
          (CodePoint.half place).code < CodePoint.firstHalf + 0x800 :=
        ⟨Nat.le_add_right _ _, Nat.add_lt_add_left place.isLt _⟩
      rw [CodePoint.ofCode, dif_pos isHalf]
      exact congrArg CodePoint.half (Fin.ext (Nat.add_sub_cancel_left _ _))

/-- A code that makes no pair with the next one is a code point of its own. -/
theorem ofCodes_cons_of_not_pair {code : Nat} {codes : List Nat}
    (noPair : isHighSurrogate code = true → ∀ next ∈ codes.head?, isLowSurrogate next = false) :
    ofCodes (code :: codes) = CodePoint.ofCode code :: ofCodes codes := by
  cases codes with
  | nil => rfl
  | cons next codes =>
      rw [ofCodes, if_neg]
      rw [Bool.and_eq_true]
      rintro ⟨isHigh, isLow⟩
      exact Bool.noConfusion ((noPair isHigh next rfl).symm.trans isLow)

/-- The two halves of a large code. -/
theorem isSurrogate_split {rest : Nat} (isBelow : rest < 0x100000) :
    isHighSurrogate (0xD800 + rest / 0x400) = true ∧
      isLowSurrogate (0xDC00 + rest % 0x400) = true := by
  simp only [isHighSurrogate, isLowSurrogate, Bool.and_eq_true, decide_eq_true_eq]
  omega

theorem pairCode_split (rest : Nat) :
    pairCode (0xD800 + rest / 0x400) (0xDC00 + rest % 0x400) = 0x10000 + rest := by
  have isSum : rest / 0x400 * 0x400 + rest % 0x400 = rest := Nat.div_add_mod' ..
  generalize rest / 0x400 = quotient at isSum ⊢
  generalize rest % 0x400 = remainder at isSum ⊢
  unfold pairCode
  omega

/-- The codes of a text without adjacent halves are those of the text alone. -/
theorem ofCodes_flatMap (charset : Charset) {text : LooseText} (isApart : text.IsApart) :
    ofCodes (text.flatMap (codesOf charset)) = text := by
  induction text with
  | nil => rfl
  | cons point text ih =>
      have rest := ih isApart.tail
      rw [List.flatMap_cons]
      by_cases isPair : charset = .ascii ∧ 0x10000 ≤ point.code
      · cases point with
        | half place =>
            simp only [CodePoint.code, CodePoint.firstHalf] at isPair
            omega
        | char c =>
            have isBelow := toNat_lt c
            simp only [CodePoint.code] at isPair
            have isBelow : c.toNat - 0x10000 < 0x100000 := by omega
            obtain ⟨isHigh, isLow⟩ := isSurrogate_split isBelow
            have isCode : 0x10000 + (c.toNat - 0x10000) = c.toNat := Nat.add_sub_cancel' isPair.2
            rw [codesOf, CodePoint.code, if_pos isPair, List.cons_append, List.singleton_append,
              ofCodes_cons_pair isHigh isLow, pairCode_split, isCode, Char.ofNat_toNat, rest]
      · rw [codesOf, if_neg isPair, List.singleton_append, ofCodes_cons_of_not_pair, rest,
          ofCode_code]
        intro isHigh next isHead
        cases text with
        | nil => cases isHead
        | cons second text =>
            have notBoth := (List.isChain_cons_cons.mp isApart).1
            cases isLow : isLowSurrogate next with
            | false => rfl
            | true =>
                have isHeadOf : next ∈ (codesOf charset second).head? := by
                  rw [List.flatMap_cons, List.head?_append_of_ne_nil] at isHead
                  · exact isHead
                  · rw [codesOf]
                    split <;> exact List.cons_ne_nil _ _
                exact absurd ⟨isHigh, isLowSurrogate_of_head?_codesOf isHeadOf isLow⟩ notBoth

/-- A text without adjacent halves is read as it was written. -/
theorem stringRest?_flatMap (charset : Charset) {text : LooseText} (isApart : text.IsApart)
    (rest : Text) :
    stringRest? (text.flatMap (codePoint charset) ++ '"' :: rest) = some (text, rest) := by
  simp only [stringRest?, codes?_flatMap, Option.bind_eq_bind, Option.bind_some,
    ofCodes_flatMap _ isApart]

/-- Characters alone are no adjacent halves. -/
theorem isApart_of_isWhole {text : LooseText} (isWhole : text.isWhole = true) : text.IsApart := by
  induction text with
  | nil => exact .nil
  | cons point text ih =>
      obtain ⟨isChar, restWhole⟩ := Bool.and_eq_true_iff.mp isWhole
      refine List.isChain_cons.mpr ⟨fun next _ ⟨isHigh, _⟩ => ?_, ih restWhole⟩
      cases point with
      | char c => exact nomatch (not_surrogate_toNat c).1.symm.trans isHigh
      | half place => contradiction

theorem isApart_ofString (text : String) : (LooseText.ofString text).IsApart :=
  isApart_of_isWhole (LooseText.isWhole_ofText _)

/-! ## Texts that are read -/

theorem isSurrogate_code_ofCode (code : Nat) :
    (isHighSurrogate (CodePoint.ofCode code).code = true → isHighSurrogate code = true) ∧
      (isLowSurrogate (CodePoint.ofCode code).code = true → isLowSurrogate code = true) := by
  rw [CodePoint.ofCode]
  split
  next isHalf =>
    have same : CodePoint.firstHalf + (code - CodePoint.firstHalf) = code := by omega
    simp [CodePoint.code, same]
  next =>
    obtain ⟨notHigh, notLow⟩ := not_surrogate_toNat (Char.ofNat code)
    simp [CodePoint.code, notHigh, notLow]

/-- What is read begins with a second half only if the codes do. -/
theorem isLowSurrogate_of_head?_ofCodes {codes : List Nat} {point : CodePoint}
    (isHead : point ∈ (ofCodes codes).head?) (isLow : isLowSurrogate point.code = true) :
    ∃ code ∈ codes.head?, isLowSurrogate code = true := by
  have single {code : Nat} (isCode : CodePoint.ofCode code = point) : isLowSurrogate code = true :=
    (isSurrogate_code_ofCode code).2 (isCode ▸ isLow)
  fun_cases ofCodes codes with
  | case1 high low codes isPair =>
      obtain ⟨isHigh, isLowNext⟩ := Bool.and_eq_true_iff.mp isPair
      rw [ofCodes_cons_pair isHigh isLowNext] at isHead
      obtain rfl := Option.some.inj isHead
      exact absurd isLow (by simp [CodePoint.code, (not_surrogate_toNat _).2])
  | case2 high low codes noPair =>
      rw [ofCodes, if_neg noPair] at isHead
      exact ⟨high, rfl, single (Option.some.inj isHead)⟩
  | case3 code => exact ⟨code, rfl, single (Option.some.inj isHead)⟩
  | case4 => cases isHead

/-- No two halves follow each other in a text that was read. -/
theorem isApart_ofCodes (codes : List Nat) : LooseText.IsApart (ofCodes codes) := by
  fun_induction ofCodes codes with
  | case1 high low codes isPair ih =>
      refine List.isChain_cons.mpr ⟨fun next _ both => ?_, ih⟩
      rw [ofCode_pairCode, CodePoint.code, (not_surrogate_toNat _).1] at both
      exact nomatch both.1
  | case2 high low codes noPair ih =>
      refine List.isChain_cons.mpr ⟨fun next isHead ⟨isHigh, isLow⟩ => ?_, ih⟩
      obtain ⟨code, isCode, isLowCode⟩ := isLowSurrogate_of_head?_ofCodes isHead isLow
      obtain rfl := Option.some.inj isCode
      exact noPair (Bool.and_eq_true_iff.mpr ⟨(isSurrogate_code_ofCode high).1 isHigh, isLowCode⟩)
  | case3 code => exact .singleton _
  | case4 => exact .nil

end Json

end ApiWorkshop
