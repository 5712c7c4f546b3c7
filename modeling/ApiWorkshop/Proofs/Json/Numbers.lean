import ApiWorkshop.Proofs.Json.Grammar
import ApiWorkshop.Proofs.Number.Digits
import ApiWorkshop.Proofs.Number.ReadBack
import ApiWorkshop.Value.Literal

/-!
# Numbers in JSON texts

The text of an integer, and that of a finite number, follows the grammar and
denotes the number.
-/

namespace ApiWorkshop

namespace Json

/-! ## Integers -/

theorem isDigits_toDigits (number : Nat) : IsDigits (Nat.toDigits 10 number) :=
  ⟨Nat.toDigits_ne_nil, fun _ => Text.isDigit_of_mem_toDigits⟩

theorem isWhole_toDigits (number : Nat) : IsWhole (Nat.toDigits 10 number) := by
  refine ⟨isDigits_toDigits number, fun startsWithZero => ?_⟩
  rcases Nat.eq_zero_or_pos number with rfl | isPositive
  · rfl
  · exact absurd startsWithZero (Text.head?_toDigits isPositive)

theorem denotes_intText (value : Int) : Denotes (Scalar.intText value) (.int value) := by
  have isNumber := Denotes.int (decide (value < 0)) (isWhole_toDigits value.natAbs)
  have same : (if decide (value < 0) = true then -(Text.decimal (Nat.toDigits 10 value.natAbs) : Int)
      else (Text.decimal (Nat.toDigits 10 value.natAbs) : Int)) = value := by
    rw [Text.decimal_toDigits]
    simp only [decide_eq_true_eq]
    split <;> omega
  rw [same] at isNumber
  simpa [minus, Scalar.intText] using isNumber

/-! ## Significant digits -/

/-- Digits that do not begin with a zero. -/
structure IsSignificant (digits : Text) : Prop extends IsDigits digits where
  noZero : digits.head? ≠ some '0'

theorem IsSignificant.isWhole {digits : Text} (areDigits : IsSignificant digits) :
    IsWhole digits :=
  ⟨areDigits.toIsDigits, fun startsWithZero => absurd startsWithZero areDigits.noZero⟩

theorem IsDigits.append {front back : Text} (areFront : IsDigits front)
    (areBack : ∀ c ∈ back, Text.isDigit c = true) : IsDigits (front ++ back) := by
  refine ⟨List.append_ne_nil_of_left_ne_nil areFront.nonempty back, fun c member => ?_⟩
  rcases List.mem_append.mp member with inFront | inBack
  · exact areFront.areDigits c inFront
  · exact areBack c inBack

theorem IsSignificant.append {front back : Text} (areFront : IsSignificant front)
    (areBack : ∀ c ∈ back, Text.isDigit c = true) : IsSignificant (front ++ back) := by
  refine ⟨areFront.toIsDigits.append areBack, ?_⟩
  obtain ⟨c, rest, rfl⟩ := List.exists_cons_of_ne_nil areFront.nonempty
  exact areFront.noZero

/-- The digits of a positive number without the zeros at their end, and how many
zeros those are. -/
theorem exists_trimmed {number : Nat} (isPositive : 0 < number) :
    ∃ zeros, IsSignificant (Text.trimEnd (· = '0') (Nat.toDigits 10 number)) ∧
      (Nat.toDigits 10 number).length =
        (Text.trimEnd (· = '0') (Nat.toDigits 10 number)).length + zeros ∧
      Text.decimal (Text.trimEnd (· = '0') (Nat.toDigits 10 number)) * 10 ^ zeros = number := by
  have areDigits := isDigits_toDigits number
  have noZero := Text.head?_toDigits isPositive
  have hasValue := Text.decimal_toDigits number
  obtain ⟨zeros, split⟩ := Text.exists_eq_trimEnd_replicate (Nat.toDigits 10 number)
  generalize Text.trimEnd (· = '0') (Nat.toDigits 10 number) = digits at split
  rw [split] at areDigits noZero hasValue ⊢
  have nonempty : digits ≠ [] := by
    rintro rfl
    rw [List.nil_append, Text.decimal_replicate] at hasValue
    omega
  refine ⟨zeros, ⟨⟨nonempty, fun c member => ?_⟩, ?_⟩, ?_, ?_⟩
  · exact areDigits.areDigits c (List.mem_append_left _ member)
  · obtain ⟨c, rest, rfl⟩ := List.exists_cons_of_ne_nil nonempty
    exact noZero
  · rw [List.length_append, List.length_replicate]
  · rw [Text.decimal_append _ fun _ => Text.isDigit_of_mem_replicate, Text.decimal_replicate,
      List.length_replicate, Nat.add_zero] at hasValue
    exact hasValue

theorem IsSignificant.take {digits : Text} (areDigits : IsSignificant digits) (count : Nat) :
    IsSignificant (digits.take (count + 1)) := by
  obtain ⟨c, rest, rfl⟩ := List.exists_cons_of_ne_nil areDigits.nonempty
  refine ⟨⟨by simp, fun d member => areDigits.areDigits d (List.mem_of_mem_take member)⟩, ?_⟩
  exact areDigits.noZero

/-! ## The layouts of a number -/

theorem exponent_exponentText (exponent : Int) :
    Exponent ('e' :: Binary64.exponentText exponent) exponent := by
  have areDigits : IsDigits (Text.padded 2 exponent.natAbs) :=
    ⟨Text.padded_ne_nil _ _, fun _ => Text.isDigit_of_mem_padded⟩
  rw [Binary64.exponentText]
  split
  next isNegative =>
    have isExponent := Exponent.minus (.inl rfl : 'e' = 'e' ∨ 'e' = 'E') areDigits
    have same : -((exponent.natAbs : Nat) : Int) = exponent := by omega
    rwa [Text.decimal_padded, same] at isExponent
  next notNegative =>
    have isExponent := Exponent.plus (.inl rfl : 'e' = 'e' ∨ 'e' = 'E') areDigits
    have same : ((exponent.natAbs : Nat) : Int) = exponent := by omega
    rwa [Text.decimal_padded, same] at isExponent

/-- Digits behind zeros and a point. -/
theorem scientific_behindPoint {digits : Text} (areDigits : IsSignificant digits) (zeros : Nat) :
    Scientific ("0.".toList ++ List.replicate zeros '0' ++ digits) (Text.decimal digits)
      (-(zeros + digits.length : Nat)) := by
  have isFraction : IsDigits (List.replicate zeros '0' ++ digits) := by
    refine ⟨List.append_ne_nil_of_right_ne_nil _ areDigits.nonempty, fun c member => ?_⟩
    rcases List.mem_append.mp member with inZeros | inDigits
    · exact Text.isDigit_of_mem_replicate inZeros
    · exact areDigits.areDigits c inDigits
  have isZero : IsWhole ['0'] :=
    ⟨⟨List.cons_ne_nil _ _, List.forall_mem_singleton.mpr rfl⟩, fun _ => rfl⟩
  have isNumber := Scientific.mk isZero (.some isFraction) .none (.inl (List.cons_ne_nil _ _))
  have noValue : Text.decimal (['0'] ++ List.replicate zeros '0') = 0 :=
    Text.decimal_replicate (zeros + 1)
  rw [← List.append_assoc, Text.decimal_append _ areDigits.areDigits, noValue, Nat.zero_mul,
    Nat.zero_add, List.append_nil, List.length_append, List.length_replicate, Int.zero_sub]
    at isNumber
  rw [List.append_assoc]
  exact isNumber

/-- Digits with a point among them. -/
theorem scientific_aroundPoint {whole digits : Text} (isWhole : IsWhole whole)
    (areDigits : IsDigits digits) :
    Scientific (whole ++ ".".toList ++ digits) (Text.decimal (whole ++ digits))
      (-(digits.length : Nat)) := by
  have isNumber := Scientific.mk isWhole (.some areDigits) .none (.inl (List.cons_ne_nil _ _))
  rw [List.append_nil, Int.zero_sub] at isNumber
  rw [List.append_assoc]
  exact isNumber

/-- Few digits in front of a point, with zeros for the missing ones and one more behind the
point, denote the number of the digits alone. -/
theorem scientific_padded {digits : Text} (areDigits : IsSignificant digits) {zeros : Nat}
    (areFew : digits.length + zeros ≤ 16) :
    ∃ coefficient exponent,
      Scientific (digits ++ List.replicate zeros '0' ++ ".".toList ++ Nat.toDigits 10 0)
        coefficient exponent ∧
      Binary64.ofDecimal false coefficient exponent =
        Binary64.ofDecimal false (Text.decimal digits) zeros := by
  have isWhole : IsWhole (digits ++ List.replicate zeros '0') :=
    (areDigits.append fun _ => Text.isDigit_of_mem_replicate).isWhole
  refine ⟨_, _, scientific_aroundPoint isWhole (isDigits_toDigits 0), ?_⟩
  have hasValue : Text.decimal (digits ++ List.replicate zeros '0' ++ Nat.toDigits 10 0) =
      Text.decimal digits * 10 ^ (zeros + 1) := by
    rw [Text.decimal_append _ fun _ => Text.isDigit_of_mem_toDigits,
      Text.decimal_append _ fun _ => Text.isDigit_of_mem_replicate, Text.decimal_replicate,
      Text.decimal_toDigits, List.length_replicate, Nat.add_zero, Nat.add_zero, Nat.mul_assoc]
    rfl
  have isBelow := Text.decimal_lt areDigits.areDigits
  have isShort : Text.decimal digits * 10 ^ (zeros + 1) < 2 ^ 128 :=
    calc Text.decimal digits * 10 ^ (zeros + 1)
        < 10 ^ digits.length * 10 ^ (zeros + 1) :=
          Nat.mul_lt_mul_of_pos_right isBelow (Nat.pow_pos (by decide))
      _ = 10 ^ (digits.length + (zeros + 1)) := (Nat.pow_add ..).symm
      _ ≤ 10 ^ 17 := Nat.pow_le_pow_right (by decide) (by omega)
      _ < 2 ^ 128 := by decide
  rw [hasValue, Binary64.ofDecimal_mul_pow isShort (by decide) (by simp; omega)]
  congr 1
  simp

/-- One digit, a point if more digits follow, and an exponent. -/
theorem scientific_exponential {digits : Text} (areDigits : IsSignificant digits) (place : Int) :
    Scientific
      ((match (motive := Text → Text) digits with
        | first :: second :: rest => first :: '.' :: second :: rest
        | few => few) ++ "e".toList ++ Binary64.exponentText place)
      (Text.decimal digits) (place + 1 - digits.length) := by
  have isExponent := exponent_exponentText place
  have hasPart : 'e' :: Binary64.exponentText place ≠ [] := List.cons_ne_nil _ _
  obtain ⟨first, rest, rfl⟩ := List.exists_cons_of_ne_nil areDigits.nonempty
  cases rest with
  | nil =>
      have isNumber := Scientific.mk areDigits.isWhole .none isExponent (.inr hasPart)
      have samePlace : place - ([] : Text).length = place + 1 - [first].length := by simp
      rwa [List.append_nil, samePlace] at isNumber
  | cons second rest =>
      have isFirst : IsWhole [first] := (areDigits.take 0).isWhole
      have areRest : IsDigits (second :: rest) :=
        ⟨List.cons_ne_nil _ _, (List.forall_mem_cons.mp areDigits.areDigits).2⟩
      have isNumber := Scientific.mk isFirst (.some areRest) isExponent (.inr hasPart)
      have sameText : [first] ++ '.' :: second :: rest ++ 'e' :: Binary64.exponentText place =
          first :: '.' :: second :: rest ++ "e".toList ++ Binary64.exponentText place := by
        rw [List.append_assoc, List.append_assoc]
        rfl
      have samePlace : place - (second :: rest).length =
          place + 1 - (first :: second :: rest).length := by
        rw [List.length_cons (a := first)]
        omega
      rwa [sameText, samePlace] at isNumber

/-- However digits are laid out, the number they denote is the same. -/
theorem scientific_layout {digits : Text} (areDigits : IsSignificant digits) (place : Int) :
    ∃ coefficient exponent, Scientific (Binary64.layout digits place) coefficient exponent ∧
      Binary64.ofDecimal false coefficient exponent =
        Binary64.ofDecimal false (Text.decimal digits) (place + 1 - digits.length) := by
  unfold Binary64.layout
  split
  next isPositional =>
    split
    next isNegative =>
      refine ⟨_, _, scientific_behindPoint areDigits _, ?_⟩
      congr 1
      omega
    next notNegative =>
      dsimp only
      split
      next areFew =>
        have fits : digits.length + (place.natAbs + 1 - digits.length) ≤ 16 := by omega
        obtain ⟨coefficient, exponent, isNumber, sameNumber⟩ := scientific_padded areDigits fits
        rw [List.append_assoc _ ".".toList] at isNumber
        refine ⟨coefficient, exponent, isNumber, sameNumber.trans ?_⟩
        congr 1
        omega
      next areMany =>
        have areBehind : IsDigits (digits.drop (place.natAbs + 1)) := by
          refine ⟨?_, fun c member => areDigits.areDigits c (List.mem_of_mem_drop member)⟩
          rw [ne_eq, List.drop_eq_nil_iff]
          omega
        refine ⟨_, _, scientific_aroundPoint (areDigits.take _).isWhole areBehind, ?_⟩
        rw [List.take_append_drop, List.length_drop]
        congr 1
        omega
  next notPositional => exact ⟨_, _, scientific_exponential areDigits place, rfl⟩

/-! ## Floating-point numbers -/

/-- The text of a positive number denotes it. -/
theorem scientific_positiveText {significand scale : Nat}
    (isRounded : (Binary64.finite false significand scale).IsRounded) (isPositive : 0 < significand) :
    ∃ coefficient exponent,
      Scientific (Binary64.positiveText (.finite false significand scale) (significand * 2 ^ scale))
        coefficient exponent ∧
      Binary64.ofDecimal false coefficient exponent = .finite false significand scale := by
  rw [Binary64.positiveText]
  split
  next found place isShortest =>
  obtain ⟨reads, foundPositive, isShort, lower, upper⟩ :=
    Binary64.shortest_spec isRounded isPositive isShortest
  have areFew : (Nat.toDigits 10 found).length ≤ 19 :=
    (Nat.length_toDigits_le_iff (by decide) (by decide)).mpr (by omega)
  obtain ⟨zeros, areDigits, hasLength, hasValue⟩ := exists_trimmed foundPositive
  dsimp only
  obtain ⟨coefficient, exponent, isNumber, same⟩ :=
    scientific_layout areDigits (place + (Nat.toDigits 10 found).length - 1)
  refine ⟨coefficient, exponent, isNumber, ?_⟩
  have samePlace : place + ((Nat.toDigits 10 found).length : Int) - 1 + 1 -
      (Text.trimEnd (· = '0') (Nat.toDigits 10 found)).length = place + zeros := by
    omega
  rw [same, samePlace, ← Binary64.ofDecimal_mul_pow (by omega) (by omega) (by omega), hasValue, reads]

/-- The text of a finite number denotes it. -/
theorem denotes_textWith {x : Binary64} (isFinite : x.isFinite = true) (isRounded : x.IsRounded)
    (nanWord infinityWord : Text) : Denotes (x.textWith nanWord infinityWord) (.float x) := by
  cases x with
  | nan => contradiction
  | infinity negative => contradiction
  | finite negative significand scale =>
      have isMagnitude : (Binary64.finite false significand scale).IsRounded := isRounded
      change Denotes (minus negative ++ if significand * 2 ^ scale = 0 then "0.0".toList
        else Binary64.positiveText (.finite false significand scale) (significand * 2 ^ scale)) _
      split
      next isZero =>
        have noSignificand : significand = 0 :=
          (Nat.mul_eq_zero.mp isZero).resolve_right (Nat.two_pow_pos scale).ne'
        have noScale : scale = 0 := by
          rcases isMagnitude.2.1 with noScale | isLarge
          · exact noScale
          · omega
        subst noSignificand noScale
        exact .float negative (scientific_aroundPoint (isWhole_toDigits 0) (isDigits_toDigits 0))
      next notZero =>
        have isPositive : 0 < significand := by
          refine Nat.pos_of_ne_zero ?_
          rintro rfl
          exact notZero (Nat.zero_mul _)
        obtain ⟨coefficient, exponent, isNumber, reads⟩ :=
          scientific_positiveText isMagnitude isPositive
        have isFloat := Denotes.float negative isNumber
        rwa [Binary64.ofDecimal_eq_withSign, reads] at isFloat

end Json

end ApiWorkshop
