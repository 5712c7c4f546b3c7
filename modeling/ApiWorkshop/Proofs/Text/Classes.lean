import ApiWorkshop.Text.Classes

/-!
# Blanks, digits and letters

No character is of two of these kinds: a blank, a decimal digit of some script, an ASCII
letter.
-/

namespace ApiWorkshop

namespace Text

theorem exists_run_of_isDecimalDigit {c : Char} (isDigit : isDecimalDigit c = true) :
    ∃ start ∈ zeros, start ≤ c.toNat ∧ c.toNat ≤ start + 9 := by
  obtain ⟨digit, isValue⟩ := Option.isSome_iff_exists.mp isDigit
  obtain ⟨start, isStart, -⟩ := Option.map_eq_some_iff.mp isValue
  have inRun := List.find?_some isStart
  rw [Bool.and_eq_true, decide_eq_true_eq, decide_eq_true_eq] at inRun
  exact ⟨start, List.mem_of_find?_eq_some isStart, inRun⟩

theorem exists_range_of_isBlank {c : Char} (isBlank : isBlank c = true) :
    ∃ range ∈ blankRanges, range.1 ≤ c.toNat ∧ c.toNat ≤ range.2 := by
  obtain ⟨range, member, inRange⟩ := List.any_eq_true.mp isBlank
  rw [Bool.and_eq_true, decide_eq_true_eq, decide_eq_true_eq] at inRange
  exact ⟨range, member, inRange⟩

theorem code_of_isDigit {c : Char} (isDigit : c.isDigit = true) :
    48 ≤ c.toNat ∧ c.toNat ≤ 57 :=
  Char.isDigit_iff_toNat.mp isDigit

theorem code_of_inRange {c first last : Char} (inRange : first.val ≤ c.val ∧ c.val ≤ last.val) :
    first.toNat ≤ c.toNat ∧ c.toNat ≤ last.toNat :=
  inRange.imp UInt32.le_iff_toNat_le.mp UInt32.le_iff_toNat_le.mp

theorem code_of_isLower {c : Char} (isLower : c.isLower = true) :
    97 ≤ c.toNat ∧ c.toNat ≤ 122 := by
  have inRange : 'a'.val ≤ c.val ∧ c.val ≤ 'z'.val :=
    (Bool.and_eq_true_iff.mp isLower).imp of_decide_eq_true of_decide_eq_true
  exact code_of_inRange inRange

theorem code_of_isUpper {c : Char} (isUpper : c.isUpper = true) :
    65 ≤ c.toNat ∧ c.toNat ≤ 90 := by
  have inRange : 'A'.val ≤ c.val ∧ c.val ≤ 'Z'.val := of_decide_eq_true isUpper
  exact code_of_inRange inRange

theorem code_of_isAlpha {c : Char} (isLetter : c.isAlpha = true) :
    65 ≤ c.toNat ∧ c.toNat ≤ 122 := by
  rcases Bool.or_eq_true_iff.mp isLetter with isUpper | isLower
  · have code := code_of_isUpper isUpper
    omega
  · have code := code_of_isLower isLower
    omega

theorem isDecimalDigit_of_isDigit {c : Char} (isAscii : isDigit c = true) :
    isDecimalDigit c = true := by
  rw [isDigit, Bool.and_eq_true, decide_eq_true_eq, decide_eq_true_eq] at isAscii
  have inRun : 0x30 ≤ c.toNat ∧ c.toNat ≤ 0x30 + 9 := isAscii
  rw [isDecimalDigit, decimalDigit?, zeros, List.find?_cons_of_pos (by simpa using inRun)]
  rfl

theorem isBlank_of_isDecimalDigit {c : Char} (isDigit : isDecimalDigit c = true) :
    isBlank c = false := by
  have apart : ∀ start ∈ zeros, ∀ range ∈ blankRanges,
      start + 9 < range.1 ∨ range.2 < start := by decide
  refine Bool.eq_false_iff.mpr fun isBlank => ?_
  obtain ⟨start, isStart, inRun⟩ := exists_run_of_isDecimalDigit isDigit
  obtain ⟨range, isRange, inRange⟩ := exists_range_of_isBlank isBlank
  have beside := apart start isStart range isRange
  omega

theorem isDecimalDigit_of_isBlank {c : Char} (isBlank : isBlank c = true) :
    isDecimalDigit c = false :=
  Bool.eq_false_iff.mpr fun isDigit => by simp [isBlank_of_isDecimalDigit isDigit] at isBlank

theorem isDecimalDigit_of_isAlpha {c : Char} (isLetter : c.isAlpha = true) :
    isDecimalDigit c = false := by
  have apart : ∀ start ∈ zeros, start + 9 < 65 ∨ 122 < start := by decide
  refine Bool.eq_false_iff.mpr fun isDigit => ?_
  obtain ⟨start, isStart, inRun⟩ := exists_run_of_isDecimalDigit isDigit
  have beside := apart start isStart
  have code := code_of_isAlpha isLetter
  omega

theorem isBlank_of_isAlpha {c : Char} (isLetter : c.isAlpha = true) : isBlank c = false := by
  have apart : ∀ range ∈ blankRanges, range.2 < 65 ∨ 122 < range.1 := by decide
  refine Bool.eq_false_iff.mpr fun isBlank => ?_
  obtain ⟨range, isRange, inRange⟩ := exists_range_of_isBlank isBlank
  have beside := apart range isRange
  have code := code_of_isAlpha isLetter
  omega

end Text

end ApiWorkshop
