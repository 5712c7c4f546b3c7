import Mathlib.Algebra.Group.Nat.Defs
import ApiWorkshop.Proofs.Text.Parts

/-!
# The digits of a number

Writing a number with digits and reading them gives the number back.
-/

namespace ApiWorkshop

namespace Text

/-! ## Digits put together -/

theorem foldl_digits (base start : Nat) (digits : List Nat) :
    digits.foldl (fun value digit => value * base + digit) start =
      start * base ^ digits.length + ofDigits base digits := by
  induction digits generalizing start with
  | nil => simp [ofDigits]
  | cons digit digits ih =>
      have behind := ih digit
      rw [ofDigits, List.foldl_cons, ih, List.foldl_cons, Nat.zero_mul, Nat.zero_add, behind,
        List.length_cons, Nat.pow_succ', Nat.add_mul, Nat.mul_assoc, Nat.add_assoc]

theorem ofDigits_append (base : Nat) (front back : List Nat) :
    ofDigits base (front ++ back) = ofDigits base front * base ^ back.length + ofDigits base back := by
  rw [ofDigits, List.foldl_append, foldl_digits]
  rfl

/-! ## Decimal digits -/

theorem isDigit_iff_digit? {c : Char} : isDigit c = true ↔ (digit? c).isSome = true := by
  rw [isDigit, digit?, Bool.and_eq_true, decide_eq_true_eq, decide_eq_true_eq]
  split
  next bounds => simpa using bounds
  next noBounds => simpa using noBounds

theorem digit?_digitChar {digit : Nat} (isSmall : digit < 10) :
    digit? digit.digitChar = some digit := by
  have all : ∀ small : Fin 10, digit? (small : Nat).digitChar = some (small : Nat) := by decide
  exact all ⟨digit, isSmall⟩

theorem length_filterMap_digit? {text : Text} (areDigits : ∀ c ∈ text, isDigit c = true) :
    (text.filterMap digit?).length = text.length := by
  induction text with
  | nil => rfl
  | cons c text ih =>
      obtain ⟨isFirst, areRest⟩ := List.forall_mem_cons.mp areDigits
      obtain ⟨digit, isSome⟩ := Option.isSome_iff_exists.mp (isDigit_iff_digit?.mp isFirst)
      rw [List.filterMap_cons_some isSome, List.length_cons, List.length_cons, ih areRest]

theorem decimal_append (front : Text) {back : Text} (areDigits : ∀ c ∈ back, isDigit c = true) :
    decimal (front ++ back) = decimal front * 10 ^ back.length + decimal back := by
  rw [decimal, List.filterMap_append, ofDigits_append, length_filterMap_digit? areDigits]
  rfl

theorem decimal_lt {text : Text} (areDigits : ∀ c ∈ text, isDigit c = true) :
    decimal text < 10 ^ text.length := by
  induction text with
  | nil => decide
  | cons c text ih =>
      obtain ⟨isFirst, areRest⟩ := List.forall_mem_cons.mp areDigits
      have firstBelow : decimal [c] ≤ 9 := by
        rw [isDigit, Bool.and_eq_true, decide_eq_true_eq, decide_eq_true_eq] at isFirst
        have atMost : c.toNat ≤ 57 := isFirst.2
        have zero : '0'.toNat = 48 := rfl
        simp only [decimal, digit?, List.filterMap_cons, if_pos isFirst, List.filterMap_nil, ofDigits,
          List.foldl_cons, List.foldl_nil]
        omega
      have restBelow := ih areRest
      have splits := decimal_append [c] areRest
      rw [List.singleton_append] at splits
      rw [splits, List.length_cons, Nat.pow_succ]
      have whole : decimal [c] * 10 ^ text.length ≤ 9 * 10 ^ text.length :=
        Nat.mul_le_mul_right _ firstBelow
      omega

/-- Digits that do not begin with a zero make a large number. -/
theorem pow_le_decimal {c : Char} {text : Text} (isFirst : isDigit c = true) (notZero : c ≠ '0')
    (areDigits : ∀ c ∈ text, isDigit c = true) : 10 ^ text.length ≤ decimal (c :: text) := by
  have isPositive : 1 ≤ decimal [c] := by
    rw [isDigit, Bool.and_eq_true, decide_eq_true_eq, decide_eq_true_eq] at isFirst
    have isCode : c.toNat ≠ '0'.toNat := fun same => notZero (Char.toNat_inj.mp same)
    have atLeast : '0'.toNat ≤ c.toNat := isFirst.1
    simp only [decimal, digit?, List.filterMap_cons, if_pos isFirst, List.filterMap_nil, ofDigits,
      List.foldl_cons, List.foldl_nil]
    omega
  have splits := decimal_append [c] areDigits
  rw [List.singleton_append] at splits
  calc 10 ^ text.length = 1 * 10 ^ text.length := (Nat.one_mul _).symm
    _ ≤ decimal [c] * 10 ^ text.length := Nat.mul_le_mul_right _ isPositive
    _ ≤ decimal (c :: text) := splits ▸ Nat.le_add_right _ _

theorem isDigit_of_mem_replicate {count : Nat} {c : Char} (member : c ∈ List.replicate count '0') :
    isDigit c = true := by
  rw [List.eq_of_mem_replicate member]
  rfl

theorem decimal_replicate (count : Nat) : decimal (List.replicate count '0') = 0 := by
  induction count with
  | zero => rfl
  | succ count ih =>
      rw [List.replicate_succ', decimal_append _ (List.forall_mem_singleton.mpr rfl), ih]
      rfl

theorem decimal_toDigits (number : Nat) : decimal (Nat.toDigits 10 number) = number := by
  induction number using Nat.strongRecOn with
  | ind number ih =>
      have single {digit : Nat} (isSmall : digit < 10) : decimal [digit.digitChar] = digit := by
        simp [decimal, digit?_digitChar isSmall, ofDigits]
      rw [Nat.toDigits_eq_if (by decide)]
      split
      next isSmall => exact single isSmall
      next notSmall =>
        have isLast : number % 10 < 10 := Nat.mod_lt _ (by decide)
        have isDigit : ∀ c ∈ [(number % 10).digitChar], isDigit c = true := by
          simp [isDigit_iff_digit?, digit?_digitChar isLast]
        rw [decimal_append _ isDigit, ih _ (by omega), single isLast, List.length_singleton]
        omega

theorem isDigit_of_mem_toDigits {number : Nat} {c : Char} (member : c ∈ Nat.toDigits 10 number) :
    isDigit c = true :=
  Nat.isDigit_of_mem_toDigits (by decide) (by decide) member

/-- A positive number is written without a zero at the front. -/
theorem head?_toDigits {number : Nat} (isPositive : 0 < number) :
    (Nat.toDigits 10 number).head? ≠ some '0' := by
  induction number using Nat.strongRecOn with
  | ind number ih =>
      rw [Nat.toDigits_eq_if (by decide)]
      split
      next isSmall =>
        have all : ∀ small : Fin 10, 0 < (small : Nat) → (small : Nat).digitChar ≠ '0' := by decide
        simpa using all ⟨number, isSmall⟩ isPositive
      next notSmall =>
        have sameHead : (Nat.toDigits 10 (number / 10) ++ [(number % 10).digitChar]).head? =
            (Nat.toDigits 10 (number / 10)).head? := by
          rw [List.head?_append, Option.or_of_isSome (by simp [Nat.toDigits_ne_nil])]
        rw [sameHead]
        exact ih _ (by omega) (by omega)

theorem decimal_padded (width number : Nat) : decimal (padded width number) = number := by
  rw [padded, decimal_append _ fun _ => isDigit_of_mem_toDigits, decimal_replicate, decimal_toDigits,
    Nat.zero_mul, Nat.zero_add]

theorem length_padded {width number : Nat} (isPositive : 0 < width)
    (fits : number < 10 ^ width) : (padded width number).length = width := by
  have isShort : (Nat.toDigits 10 number).length ≤ width :=
    (Nat.length_toDigits_le_iff (by decide) isPositive).mpr fits
  rw [padded, List.length_append, List.length_replicate]
  omega

theorem isDigit_of_mem_padded {width number : Nat} {c : Char} (member : c ∈ padded width number) :
    isDigit c = true := by
  rcases List.mem_append.mp member with inFront | inDigits
  · exact isDigit_of_mem_replicate inFront
  · exact isDigit_of_mem_toDigits inDigits

theorem padded_ne_nil (width number : Nat) : padded width number ≠ [] :=
  List.append_ne_nil_of_right_ne_nil _ Nat.toDigits_ne_nil

/-! ## Zeros at the end -/

/-- Digits without the zeros at their end. -/
theorem exists_eq_trimEnd_replicate (text : Text) :
    ∃ count, text = trimEnd (· = '0') text ++ List.replicate count '0' := by
  obtain ⟨cut, same, areZeros⟩ := exists_eq_trimEnd_append (· = '0') text
  refine ⟨cut.length, ?_⟩
  have isReplicate : cut = List.replicate cut.length '0' :=
    List.eq_replicate_of_mem fun c member => of_decide_eq_true (areZeros c member)
  rwa [← isReplicate]

end Text

end ApiWorkshop
