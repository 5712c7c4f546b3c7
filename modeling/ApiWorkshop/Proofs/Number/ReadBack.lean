import Mathlib.Tactic.Linarith
import Mathlib.Tactic.Ring
import ApiWorkshop.Number.Shortest
import ApiWorkshop.Proofs.Number.Rounded

/-!
# The shortest decimal reads back

A decimal with eighteen significant digits just below a number is closer to it
than half the gap to the next number, so it rounds to the number.  Hence the
search for the shortest decimal always ends with one that reads back.
-/

namespace ApiWorkshop

namespace Binary64

/-! ## Rounding depends on the quotient only -/

theorem divRoundEven_mul_right {factor : Nat} (isPositive : 0 < factor)
    (numerator denominator : Nat) :
    divRoundEven (numerator * factor) (denominator * factor) =
      divRoundEven numerator denominator := by
  have doubled : 2 * (numerator % denominator * factor) = 2 * (numerator % denominator) * factor :=
    (Nat.mul_assoc ..).symm
  simp only [divRoundEven, Nat.mul_div_mul_right _ _ isPositive, Nat.mul_mod_mul_right, doubled,
    Nat.mul_lt_mul_right isPositive]

theorem round_mul_right {factor : Nat} (isPositive : 0 < factor) (negative : Bool)
    (numerator denominator : Nat) :
    round negative (numerator * factor) (denominator * factor) =
      round negative numerator denominator := by
  have sameScale (scale : Nat) : denominator * factor * Nat.pow 2 scale =
      denominator * Nat.pow 2 scale * factor := Nat.mul_right_comm ..
  simp only [round, Nat.mul_div_mul_right _ _ isPositive, sameScale,
    divRoundEven_mul_right isPositive]

/-- Equal quotients are rounded to the same number. -/
theorem round_eq_round {first second firstBelow secondBelow : Nat} (isFirst : 0 < firstBelow)
    (isSecond : 0 < secondBelow) (same : first * secondBelow = second * firstBelow)
    (negative : Bool) : round negative first firstBelow = round negative second secondBelow := by
  rw [← round_mul_right isSecond, same, Nat.mul_comm firstBelow, round_mul_right isFirst]

/-! ## Rounding what is close to a number -/

/-- A quotient that is less than a half below an integer is rounded to it. -/
theorem divRoundEven_of_close {numerator denominator integer gap : Nat}
    (isBelow : numerator + gap = integer * denominator) (isClose : 2 * gap < denominator) :
    divRoundEven numerator denominator = integer := by
  rcases Nat.eq_zero_or_pos gap with noGap | hasGap
  · rw [noGap, Nat.add_zero] at isBelow
    have quotient : numerator / denominator = integer :=
      Nat.div_eq_of_eq_mul_left (by omega) isBelow
    have rest : numerator % denominator = 0 := by rw [isBelow, Nat.mul_mod_left]
    rw [divRoundEven, quotient, rest]
    simp only [if_pos (by omega : 2 * 0 < denominator)]
  · obtain ⟨before, rfl⟩ : ∃ before, integer = before + 1 := by
      refine ⟨integer - 1, ?_⟩
      rcases Nat.eq_zero_or_pos integer with rfl | _ <;> omega
    rw [Nat.add_mul, Nat.one_mul] at isBelow
    have split : numerator = denominator - gap + denominator * before := by
      rw [Nat.mul_comm denominator]
      omega
    have quotient : numerator / denominator = before := by
      rw [split, Nat.add_mul_div_left _ _ (by omega), Nat.div_eq_of_lt (by omega), Nat.zero_add]
    have rest : numerator % denominator = denominator - gap := by
      rw [split, Nat.add_mul_mod_self_left, Nat.mod_eq_of_lt (by omega)]
    rw [divRoundEven, quotient, rest]
    simp only [if_neg (by omega : ¬ 2 * (denominator - gap) < denominator),
      if_pos (by omega : denominator < 2 * (denominator - gap))]

/-- Rounding at the scale that the floor of a quotient has. -/
theorem round_of_scale {numerator denominator scale significand : Nat}
    (isScale : (numerator / denominator).log2 + 1 - 53 = scale)
    (isSignificand : divRoundEven numerator (denominator * 2 ^ scale) = significand)
    (notFull : significand ≠ 2 ^ 53) (inRange : scale ≤ 2045) (negative : Bool) :
    round negative numerator denominator = .finite negative significand scale := by
  have isSignificand : divRoundEven numerator (denominator * Nat.pow 2 scale) = significand :=
    isSignificand
  have notFull : ¬ significand = Nat.pow 2 53 := notFull
  rw [round]
  simp only [isScale, isSignificand, if_neg notFull, if_neg (by omega : ¬ 2045 < scale)]

/-- A significand that is rounded up to one bit more is a power of two. -/
theorem round_of_full {numerator denominator scale : Nat}
    (isScale : (numerator / denominator).log2 + 1 - 53 = scale)
    (isFull : divRoundEven numerator (denominator * 2 ^ scale) = 2 ^ 53)
    (inRange : scale < 2045) (negative : Bool) :
    round negative numerator denominator = .finite negative (2 ^ 52) (scale + 1) := by
  have isFull : divRoundEven numerator (denominator * Nat.pow 2 scale) = Nat.pow 2 53 := isFull
  rw [round]
  simp only [isScale, isFull, if_true, if_neg (by omega : ¬ 2045 < scale + 1)]
  rfl

theorem log2_div_eq {numerator denominator exponent : Nat} (isPositive : 0 < denominator)
    (lower : 2 ^ exponent * denominator ≤ numerator)
    (upper : numerator < 2 ^ (exponent + 1) * denominator) :
    (numerator / denominator).log2 = exponent := by
  have atLeast : 2 ^ exponent ≤ numerator / denominator :=
    (Nat.le_div_iff_mul_le isPositive).mpr lower
  have below : numerator / denominator < 2 ^ (exponent + 1) :=
    (Nat.div_lt_iff_lt_mul isPositive).mpr upper
  have nonzero : numerator / denominator ≠ 0 := by
    have isPower := Nat.two_pow_pos exponent
    omega
  exact (Nat.log2_eq_iff nonzero).mpr ⟨atLeast, below⟩

theorem two_pow_add_mul (exponent scale denominator : Nat) :
    2 ^ (exponent + scale) * denominator = 2 ^ exponent * (denominator * 2 ^ scale) := by
  rw [Nat.pow_add, Nat.mul_assoc, Nat.mul_comm (2 ^ scale)]

/-- A quotient just below an integer of few bits is rounded to it. -/
theorem round_of_close_integer {significand numerator denominator gap : Nat}
    (hasFewBits : significand < 2 ^ 53) (isBelow : numerator + gap = significand * denominator)
    (isClose : 2 * gap < denominator) (negative : Bool) :
    round negative numerator denominator = .finite negative significand 0 := by
  have isPositive : 0 < denominator := by omega
  have bound : significand * denominator < 2 ^ 53 * denominator :=
    Nat.mul_lt_mul_of_pos_right hasFewBits isPositive
  have isSmall : numerator / denominator < 2 ^ 53 :=
    (Nat.div_lt_iff_lt_mul isPositive).mpr (by omega)
  have noScale : (numerator / denominator).log2 + 1 - 53 = 0 := by
    rcases Nat.eq_zero_or_pos (numerator / denominator) with isZero | isPositive
    · rw [isZero]
      rfl
    · have := (Nat.log2_lt (by omega)).mpr isSmall
      omega
  have below : numerator + gap = significand * (denominator * 2 ^ 0) := by
    rw [isBelow, Nat.pow_zero, Nat.mul_one]
  have nearest := divRoundEven_of_close below (by omega)
  exact round_of_scale noScale nearest (by omega) (by omega) negative

/-- A quotient just below a number is rounded to it if its floor has as many bits. -/
theorem round_of_close_scaled {significand scale numerator denominator gap : Nat}
    (hasFewBits : significand < 2 ^ 53) (inRange : scale ≤ 2045) (isPositive : 0 < denominator)
    (isBelow : numerator + gap = significand * (denominator * 2 ^ scale))
    (isClose : 2 * gap < denominator * 2 ^ scale)
    (sameBinade : 2 ^ 52 * (denominator * 2 ^ scale) ≤ numerator) (negative : Bool) :
    round negative numerator denominator = .finite negative significand scale := by
  have upper : significand * (denominator * 2 ^ scale) < 2 ^ 53 * (denominator * 2 ^ scale) :=
    Nat.mul_lt_mul_of_pos_right hasFewBits (by omega)
  have hasLog : (numerator / denominator).log2 = 52 + scale := by
    refine log2_div_eq isPositive (by rw [two_pow_add_mul]; exact sameBinade) ?_
    have next : 52 + scale + 1 = 53 + scale := by omega
    rw [next, two_pow_add_mul]
    omega
  have nearest := divRoundEven_of_close isBelow isClose
  exact round_of_scale (by omega) nearest (by omega) inRange negative

/-- A quotient just below a power of two is rounded up to it, although the numbers
below the power have a smaller scale. -/
theorem round_of_close_power {scale numerator denominator gap : Nat} (inRange : scale < 2045)
    (isPositive : 0 < denominator) (hasGap : 0 < gap)
    (isBelow : numerator + gap = 2 ^ 53 * (denominator * 2 ^ scale))
    (isClose : 2 * gap < denominator * 2 ^ scale) (negative : Bool) :
    round negative numerator denominator = .finite negative (2 ^ 52) (scale + 1) := by
  have hasLog : (numerator / denominator).log2 = 52 + scale := by
    refine log2_div_eq isPositive ?_ ?_
    · rw [two_pow_add_mul]
      omega
    · have next : 52 + scale + 1 = 53 + scale := by omega
      rw [next, two_pow_add_mul]
      omega
  have nearest := divRoundEven_of_close isBelow isClose
  exact round_of_full (by omega) nearest inRange negative

/-- A quotient just below a number is rounded to it. -/
theorem round_of_close {significand scale numerator denominator gap : Nat}
    (isRounded : (Binary64.finite false significand scale).IsRounded)
    (isBelow : numerator + gap = significand * 2 ^ scale * denominator)
    (isClose : gap * 2 ^ 54 < significand * 2 ^ scale * denominator) (negative : Bool) :
    round negative numerator denominator = .finite negative significand scale := by
  obtain ⟨hasFewBits, isNormal, inRange⟩ := isRounded
  -- All of these are multiples of one step of the significand.
  obtain ⟨step, isStep⟩ : ∃ step, step = denominator * 2 ^ scale := ⟨_, rfl⟩
  have inSteps : significand * 2 ^ scale * denominator = significand * step := by
    rw [isStep, Nat.mul_assoc, Nat.mul_comm (2 ^ scale)]
  rw [inSteps] at isBelow isClose
  have upper : significand * step ≤ 2 ^ 53 * step :=
    Nat.mul_le_mul_right step (Nat.le_of_lt hasFewBits)
  have isNear : 2 * gap < step := by omega
  have isPositive : 0 < denominator := by
    rcases Nat.eq_zero_or_pos denominator with rfl | isPositive
    · omega
    · exact isPositive
  by_cases sameBinade : 2 ^ 52 * step ≤ numerator
  · subst isStep
    exact round_of_close_scaled hasFewBits inRange isPositive isBelow isNear sameBinade negative
  · cases scale with
    | zero =>
        rw [Nat.pow_zero, Nat.mul_one] at isStep
        subst isStep
        exact round_of_close_integer hasFewBits isBelow isNear negative
    | succ smaller =>
        have isLarge : 2 ^ 52 ≤ significand := isNormal.resolve_left (by omega)
        -- Only a power of two has numbers of a smaller scale so close below it.
        have isPower : significand = 2 ^ 52 := by
          by_contra notPower
          have above : (2 ^ 52 + 1) * step ≤ significand * step :=
            Nat.mul_le_mul_right step (by omega)
          omega
        subst isPower
        have half : step = 2 * (denominator * 2 ^ smaller) := by
          rw [isStep, Nat.pow_succ]
          ring
        have below : numerator + gap = 2 ^ 53 * (denominator * 2 ^ smaller) := by omega
        exact round_of_close_power (by omega) isPositive (by omega) below (by omega) negative

/-! ## Decimals as quotients -/

/-- A decimal of moderate size is rounded as the quotient that it stands for. -/
theorem ofDecimal_eq_round {coefficient : Nat} {exponent : Int} (isPositive : 0 < coefficient)
    (isShort : coefficient < 2 ^ 128) (lower : -360 ≤ exponent) (upper : exponent ≤ 360)
    (negative : Bool) :
    ofDecimal negative coefficient exponent =
      round negative (coefficient * unitsPerOne * 10 ^ exponent.toNat) (10 ^ (-exponent).toNat) := by
  have fewBits : coefficient.log2 < 128 := (Nat.log2_lt (by omega)).mpr isShort
  rw [ofDecimal, if_neg (by omega)]
  dsimp only
  rw [if_neg (by omega), if_neg (by omega)]
  split
  next isNegative =>
    have noFactor : exponent.toNat = 0 := by omega
    have sameSize : exponent.natAbs = (-exponent).toNat := by omega
    rw [noFactor, sameSize, Nat.pow_zero, Nat.mul_one]
    rfl
  next notNegative =>
    have noDivisor : (-exponent).toNat = 0 := by omega
    have sameSize : exponent.natAbs = exponent.toNat := by omega
    rw [noDivisor, sameSize, Nat.pow_zero]
    rfl

/-- Zeros at the end of a coefficient can be counted by the exponent instead. -/
theorem ofDecimal_mul_pow {coefficient zeros : Nat} {exponent : Int}
    (isShort : coefficient * 10 ^ zeros < 2 ^ 128) (lower : -360 ≤ exponent)
    (upper : exponent + zeros ≤ 360) (negative : Bool) :
    ofDecimal negative (coefficient * 10 ^ zeros) exponent =
      ofDecimal negative coefficient (exponent + zeros) := by
  rcases Nat.eq_zero_or_pos coefficient with rfl | isPositive
  · simp [ofDecimal]
  · have powerPositive (size : Nat) : 0 < 10 ^ size := Nat.pow_pos (by decide)
    have atMost : coefficient ≤ coefficient * 10 ^ zeros :=
      Nat.le_mul_of_pos_right _ (powerPositive zeros)
    rw [ofDecimal_eq_round (Nat.mul_pos isPositive (powerPositive zeros)) isShort lower (by omega),
      ofDecimal_eq_round isPositive (by omega) (by omega) upper]
    refine round_eq_round (powerPositive _) (powerPositive _) ?_ negative
    have powers : zeros + exponent.toNat + (-(exponent + zeros)).toNat =
        (exponent + zeros).toNat + (-exponent).toNat := by omega
    calc coefficient * 10 ^ zeros * unitsPerOne * 10 ^ exponent.toNat *
          10 ^ (-(exponent + zeros)).toNat
        = coefficient * unitsPerOne *
            10 ^ (zeros + exponent.toNat + (-(exponent + zeros)).toNat) := by
          rw [Nat.pow_add, Nat.pow_add]
          ring
      _ = coefficient * unitsPerOne * 10 ^ (exponent + zeros).toNat * 10 ^ (-exponent).toNat := by
          rw [powers, Nat.pow_add, ← Nat.mul_assoc]

/-- A number with a given sign. -/
def withSign (negative : Bool) : Binary64 → Binary64
  | .nan => .nan
  | .infinity _ => .infinity negative
  | .finite _ significand scale => .finite negative significand scale

theorem round_eq_withSign (negative : Bool) (numerator denominator : Nat) :
    round negative numerator denominator = (round false numerator denominator).withSign negative := by
  simp only [round, apply_ite (withSign negative)]
  rfl

theorem ofDecimal_eq_withSign (negative : Bool) (coefficient : Nat) (exponent : Int) :
    ofDecimal negative coefficient exponent =
      (ofDecimal false coefficient exponent).withSign negative := by
  simp only [ofDecimal, apply_ite (withSign negative), ← round_eq_withSign]
  rfl

/-! ## The place of the first digit -/

theorem unitsPerOne_pos : 0 < unitsPerOne := by
  decide +kernel

theorem unitsPerOne_le {places : Nat} (areMany : 324 ≤ places) : unitsPerOne ≤ 10 ^ places := by
  refine Nat.le_trans ?_ (Nat.pow_le_pow_right (by decide) areMany)
  decide +kernel

theorem two_pow_le {exponent : Nat} (isSmall : exponent ≤ 2098) :
    2 ^ exponent ≤ unitsPerOne * 10 ^ 309 := by
  refine Nat.le_trans (Nat.pow_le_pow_right (by decide) isSmall) ?_
  decide +kernel

/-- A magnitude lies between the power of ten at a place and the next one. -/
structure LeadsAt (magnitude : Nat) (place : Int) : Prop where
  lower : unitsPerOne * 10 ^ place.toNat ≤ magnitude * 10 ^ (-place).toNat
  upper : magnitude * 10 ^ (-place).toNat < unitsPerOne * 10 ^ place.toNat * 10

/-- In front of the point the first digit is told by how many digits there are. -/
theorem leadsAt_whole {magnitude : Nat} (hasWhole : unitsPerOne ≤ magnitude) :
    LeadsAt magnitude ((Nat.toDigits 10 (magnitude / unitsPerOne)).length - 1) := by
  have isWhole : 1 ≤ magnitude / unitsPerOne :=
    (Nat.le_div_iff_mul_le unitsPerOne_pos).mpr (by omega)
  have hasDigits : 0 < (Nat.toDigits 10 (magnitude / unitsPerOne)).length :=
    Nat.length_toDigits_pos
  have isShort {count : Nat} (isPositive : 0 < count) :
      (Nat.toDigits 10 (magnitude / unitsPerOne)).length ≤ count ↔
        magnitude / unitsPerOne < 10 ^ count :=
    Nat.length_toDigits_le_iff (by decide) isPositive
  generalize (Nat.toDigits 10 (magnitude / unitsPerOne)).length = length at hasDigits isShort ⊢
  obtain ⟨places, rfl⟩ : ∃ places, length = places + 1 := ⟨length - 1, by omega⟩
  have below : magnitude / unitsPerOne < 10 ^ (places + 1) := (isShort hasDigits).mp (Nat.le_refl _)
  have atLeast : 10 ^ places ≤ magnitude / unitsPerOne := by
    rcases Nat.eq_zero_or_pos places with rfl | isPositive
    · exact isWhole
    · exact Nat.le_of_not_lt fun isBelow => by
        have tooShort := (isShort isPositive).mpr isBelow
        omega
  have isPlace : ((places + 1 : Nat) : Int) - 1 = places := by omega
  have noDivisor : (-(places : Int)).toNat = 0 := by omega
  rw [isPlace]
  refine ⟨?_, ?_⟩
  · rw [Int.toNat_natCast, noDivisor, Nat.pow_zero, Nat.mul_one, Nat.mul_comm]
    exact (Nat.le_div_iff_mul_le unitsPerOne_pos).mp atLeast
  · rw [Int.toNat_natCast, noDivisor, Nat.pow_zero, Nat.mul_one, Nat.mul_assoc, ← Nat.pow_succ,
      Nat.mul_comm]
    exact (Nat.div_lt_iff_lt_mul unitsPerOne_pos).mp below

/-- Behind the point the first digit is at the first place that makes a whole. -/
theorem leadsAt_fraction {magnitude fewer : Nat}
    (isEnough : unitsPerOne ≤ magnitude * 10 ^ (fewer + 1))
    (notEnough : magnitude * 10 ^ fewer < unitsPerOne) :
    LeadsAt magnitude (-(fewer + 1 : Nat)) := by
  have noFactor : (-((fewer + 1 : Nat) : Int)).toNat = 0 := by omega
  have divisor : (- -((fewer + 1 : Nat) : Int)).toNat = fewer + 1 := by omega
  refine ⟨?_, ?_⟩
  · rw [noFactor, divisor, Nat.pow_zero, Nat.mul_one]
    exact isEnough
  · rw [noFactor, divisor, Nat.pow_zero, Nat.mul_one, Nat.pow_succ, ← Nat.mul_assoc]
    exact Nat.mul_lt_mul_of_pos_right notEnough (by decide)

theorem leadsAt_leadingPlace {magnitude : Nat} (isPositive : 0 < magnitude) :
    LeadsAt magnitude (leadingPlace magnitude) := by
  rw [leadingPlace]
  split
  next hasWhole => exact leadsAt_whole hasWhole
  next noWhole =>
    split
    next places found =>
      obtain ⟨isEnough, -, areFew⟩ := List.find?_range_eq_some.mp found
      have isEnough : unitsPerOne ≤ magnitude * 10 ^ places := of_decide_eq_true isEnough
      have notZero : places ≠ 0 := by
        rintro rfl
        omega
      obtain ⟨fewer, rfl⟩ : ∃ fewer, places = fewer + 1 := ⟨places - 1, by omega⟩
      have notEnough : ¬ unitsPerOne ≤ magnitude * 10 ^ fewer := by
        simpa using areFew fewer (by omega)
      exact leadsAt_fraction isEnough (Nat.lt_of_not_le notEnough)
    next noneFound =>
      have notEnough (places : Nat) (isTried : places < 330) :
          ¬ unitsPerOne ≤ magnitude * 10 ^ places := by
        simpa using List.find?_range_eq_none.mp noneFound places isTried
      refine absurd ?_ (notEnough 324 (by decide))
      exact Nat.le_trans (unitsPerOne_le (Nat.le_refl _)) (Nat.le_mul_of_pos_left _ isPositive)

/-! ## The decimals next to a number -/

theorem neighbours_eq (magnitude : Nat) (place : Int) :
    neighbours magnitude place =
      let numerator := magnitude * 10 ^ (-place).toNat
      let denominator := unitsPerOne * 10 ^ place.toNat
      ((numerator / denominator, numerator % denominator),
        (numerator / denominator + 1, denominator - numerator % denominator)) := by
  rw [neighbours]
  split
  next isNegative =>
    have noFactor : place.toNat = 0 := by omega
    have sameSize : place.natAbs = (-place).toNat := by omega
    simp only [noFactor, sameSize, Nat.pow_zero, Nat.mul_one]
    rfl
  next notNegative =>
    have noFactor : (-place).toNat = 0 := by omega
    have sameSize : place.natAbs = place.toNat := by omega
    simp only [noFactor, sameSize, Nat.pow_zero, Nat.mul_one]
    rfl

/-- The multiple of `10 ^ place` at or below a magnitude. -/
def floorAt (magnitude : Nat) (place : Int) : Nat :=
  magnitude * 10 ^ (-place).toNat / (unitsPerOne * 10 ^ place.toNat)

theorem exists_floorAt (magnitude : Nat) (place : Int) :
    ∃ rest < unitsPerOne * 10 ^ place.toNat,
      floorAt magnitude place * unitsPerOne * 10 ^ place.toNat + rest =
        magnitude * 10 ^ (-place).toNat := by
  have isPositive : 0 < unitsPerOne * 10 ^ place.toNat :=
    Nat.mul_pos unitsPerOne_pos (Nat.pow_pos (by decide))
  refine ⟨_, Nat.mod_lt (magnitude * 10 ^ (-place).toNat) isPositive, ?_⟩
  rw [floorAt, Nat.mul_assoc, Nat.div_add_mod']

/-- What the search for a coefficient finds reads back, and is a neighbour. -/
theorem of_coefficientAt? {x : Binary64} {magnitude coefficient : Nat} {place : Int}
    (found : coefficientAt? x magnitude place = some coefficient) :
    ofDecimal false coefficient place = x ∧ coefficient ≤ floorAt magnitude place + 1 := by
  rw [coefficientAt?, neighbours_eq] at found
  dsimp only at found
  rw [floorAt]
  generalize magnitude * 10 ^ (-place).toNat / (unitsPerOne * 10 ^ place.toNat) = below at found ⊢
  split at found
  next both =>
    obtain ⟨belowReads, aboveReads⟩ := Bool.and_eq_true_iff.mp both
    have isNeighbour : coefficient = below ∨ coefficient = below + 1 := by
      have same := Option.some.inj found
      split at same
      · exact .inl same.symm
      · split at same
        · exact .inr same.symm
        · split at same
          · exact .inl same.symm
          · exact .inr same.symm
    rcases isNeighbour with rfl | rfl
    · exact ⟨of_decide_eq_true belowReads, by omega⟩
    · exact ⟨of_decide_eq_true aboveReads, Nat.le_refl _⟩
  next =>
    split at found
    next belowReads =>
      obtain rfl := Option.some.inj found
      exact ⟨of_decide_eq_true belowReads, by omega⟩
    next =>
      split at found
      next aboveReads =>
        obtain rfl := Option.some.inj found
        exact ⟨of_decide_eq_true aboveReads, Nat.le_refl _⟩
      · contradiction

theorem isSome_coefficientAt? {x : Binary64} {magnitude : Nat} {place : Int}
    (belowReads : ofDecimal false (floorAt magnitude place) place = x) :
    (coefficientAt? x magnitude place).isSome = true := by
  rw [floorAt] at belowReads
  rw [coefficientAt?, neighbours_eq]
  dsimp only
  rw [decide_eq_true belowReads, Bool.true_and]
  split
  · rfl
  · rfl

variable {magnitude : Nat} {first : Int}

/-- The place of the first digit tells how many digits there are down to another
place. -/
theorem LeadsAt.floorAt_lt (leads : LeadsAt magnitude first) {place : Int} {digits : Nat}
    (isPlace : place + digits = first) : floorAt magnitude place < 10 ^ (digits + 1) := by
  rw [floorAt, Nat.div_lt_iff_lt_mul (Nat.mul_pos unitsPerOne_pos (Nat.pow_pos (by decide)))]
  have powers : (-first).toNat + (digits + place.toNat) = first.toNat + (-place).toNat := by omega
  refine Nat.lt_of_mul_lt_mul_right (a := 10 ^ (-first).toNat) ?_
  calc magnitude * 10 ^ (-place).toNat * 10 ^ (-first).toNat
      = magnitude * 10 ^ (-first).toNat * 10 ^ (-place).toNat := Nat.mul_right_comm ..
    _ < unitsPerOne * 10 ^ first.toNat * 10 * 10 ^ (-place).toNat :=
        Nat.mul_lt_mul_of_pos_right leads.upper (Nat.pow_pos (by decide))
    _ = unitsPerOne * 10 * 10 ^ (first.toNat + (-place).toNat) := by
        rw [Nat.pow_add]
        ring
    _ = 10 ^ (digits + 1) * (unitsPerOne * 10 ^ place.toNat) * 10 ^ (-first).toNat := by
        rw [← powers, Nat.pow_add, Nat.pow_add, Nat.pow_succ]
        ring

theorem LeadsAt.le_numerator (leads : LeadsAt magnitude first) {place : Int} {digits : Nat}
    (isPlace : place + digits = first) :
    unitsPerOne * 10 ^ place.toNat * 10 ^ digits ≤ magnitude * 10 ^ (-place).toNat := by
  have powers : (-first).toNat + (digits + place.toNat) = first.toNat + (-place).toNat := by omega
  refine Nat.le_of_mul_le_mul_right (c := 10 ^ (-first).toNat) ?_ (Nat.pow_pos (by decide))
  calc unitsPerOne * 10 ^ place.toNat * 10 ^ digits * 10 ^ (-first).toNat
      = unitsPerOne * 10 ^ (first.toNat + (-place).toNat) := by
        rw [← powers, Nat.pow_add, Nat.pow_add]
        ring
    _ = unitsPerOne * 10 ^ first.toNat * 10 ^ (-place).toNat := by rw [Nat.pow_add, Nat.mul_assoc]
    _ ≤ magnitude * 10 ^ (-first).toNat * 10 ^ (-place).toNat :=
        Nat.mul_le_mul_right _ leads.lower
    _ = magnitude * 10 ^ (-place).toNat * 10 ^ (-first).toNat := Nat.mul_right_comm ..

theorem LeadsAt.bounds (leads : LeadsAt magnitude first) (isPositive : 0 < magnitude)
    (isFinite : magnitude < unitsPerOne * 10 ^ 309) : -324 ≤ first ∧ first ≤ 308 := by
  refine ⟨?_, ?_⟩
  · by_contra tooSmall
    have isWhole : first.toNat = 0 := by omega
    obtain ⟨places, isPlaces⟩ : ∃ places, (-first).toNat = places + 1 :=
      ⟨(-first).toNat - 1, by omega⟩
    have areMany : 324 ≤ places := by
      clear isFinite
      omega
    have upper := leads.upper
    have isSmall := unitsPerOne_le areMany
    generalize unitsPerOne = unit at upper isSmall
    rw [isWhole, isPlaces, Nat.pow_zero, Nat.mul_one] at upper
    have isLarge : unit * 10 ≤ magnitude * 10 ^ (places + 1) :=
      calc unit * 10
          ≤ 10 ^ places * 10 := Nat.mul_le_mul_right 10 isSmall
        _ = 10 ^ (places + 1) := (Nat.pow_succ ..).symm
        _ ≤ magnitude * 10 ^ (places + 1) := Nat.le_mul_of_pos_left _ isPositive
    exact Nat.not_lt_of_le isLarge upper
  · by_contra tooLarge
    have noFraction : (-first).toNat = 0 := by omega
    have lower := leads.lower
    rw [noFraction, Nat.pow_zero, Nat.mul_one] at lower
    have isLarge {places : Nat} (areFewer : places ≤ first.toNat) :
        unitsPerOne * 10 ^ places ≤ magnitude :=
      (Nat.mul_le_mul_left _ (Nat.pow_le_pow_right (by decide) areFewer)).trans lower
    refine Nat.not_lt_of_le (isLarge ?_) isFinite
    clear isFinite
    omega

/-! ## The shortest decimal -/

/-- Eighteen digits of a number read back. -/
theorem ofDecimal_floorAt {significand scale : Nat}
    (isRounded : (Binary64.finite false significand scale).IsRounded)
    (leads : LeadsAt (significand * 2 ^ scale) first) (lower : -324 ≤ first) (upper : first ≤ 308) :
    ofDecimal false (floorAt (significand * 2 ^ scale) (first - 17)) (first - 17) =
      .finite false significand scale := by
  have isPlace : first - 17 + (17 : Nat) = first := by omega
  have isShort := leads.floorAt_lt isPlace
  have isLong := leads.le_numerator isPlace
  have unitPositive : 0 < unitsPerOne * 10 ^ (first - 17).toNat :=
    Nat.mul_pos unitsPerOne_pos (Nat.pow_pos (by decide))
  have atLeast : 10 ^ 17 ≤ floorAt (significand * 2 ^ scale) (first - 17) := by
    rw [floorAt, Nat.le_div_iff_mul_le unitPositive, Nat.mul_comm]
    exact isLong
  rw [ofDecimal_eq_round (by omega) (by omega) (by omega) (by omega)]
  obtain ⟨rest, restSmall, isSplit⟩ := exists_floorAt (significand * 2 ^ scale) (first - 17)
  refine round_of_close isRounded isSplit ?_ false
  calc rest * 2 ^ 54
      ≤ rest * 10 ^ 17 := Nat.mul_le_mul_left _ (by decide)
    _ < unitsPerOne * 10 ^ (first - 17).toNat * 10 ^ 17 :=
        Nat.mul_lt_mul_of_pos_right restSmall (by decide)
    _ ≤ significand * 2 ^ scale * 10 ^ (-(first - 17)).toNat := isLong

/-- The shortest decimal of a positive number reads back as the number.  It has at
most eighteen digits. -/
theorem shortest_spec {significand scale coefficient : Nat} {place : Int}
    (isRounded : (Binary64.finite false significand scale).IsRounded)
    (isPositive : 0 < significand)
    (isShortest : shortest (.finite false significand scale) (significand * 2 ^ scale) =
      (coefficient, place)) :
    ofDecimal false coefficient place = .finite false significand scale ∧ 0 < coefficient ∧
      coefficient ≤ 10 ^ 18 ∧ -341 ≤ place ∧ place ≤ 308 := by
  have hasMagnitude : 0 < significand * 2 ^ scale := Nat.mul_pos isPositive (Nat.two_pow_pos _)
  have isFinite : significand * 2 ^ scale < unitsPerOne * 10 ^ 309 := by
    refine Nat.lt_of_lt_of_le ?_ (two_pow_le (by have := isRounded.2.2; omega : 53 + scale ≤ 2098))
    rw [Nat.pow_add]
    exact Nat.mul_lt_mul_of_pos_right isRounded.1 (Nat.two_pow_pos _)
  have leads := leadsAt_leadingPlace hasMagnitude
  obtain ⟨lower, upper⟩ := leads.bounds hasMagnitude isFinite
  clear isFinite
  rw [shortest] at isShortest
  generalize leadingPlace (significand * 2 ^ scale) = first at leads lower upper isShortest
  have isFound : (((List.range 18).map fun digits : Nat => first - (digits : Int)).findSome?
      fun place => (coefficientAt? (.finite false significand scale) (significand * 2 ^ scale)
        place).map fun coefficient => (coefficient, place)).isSome = true := by
    refine List.findSome?_isSome_iff.mpr ⟨first - 17, List.mem_map.mpr ⟨17, by decide, rfl⟩, ?_⟩
    rw [Option.isSome_map]
    exact isSome_coefficientAt? (ofDecimal_floorAt isRounded leads lower upper)
  obtain ⟨found, isFound⟩ := Option.isSome_iff_exists.mp isFound
  rw [isFound, Option.getD_some] at isShortest
  subst isShortest
  obtain ⟨tried, isTried, isCoefficient⟩ := List.exists_of_findSome?_eq_some isFound
  obtain ⟨digits, areFew, rfl⟩ := List.mem_map.mp isTried
  obtain ⟨other, isOther, same⟩ := Option.map_eq_some_iff.mp isCoefficient
  obtain ⟨rfl, rfl⟩ := Prod.mk.inj same
  have areFew : digits < 18 := List.mem_range.mp areFew
  obtain ⟨reads, isNeighbour⟩ := of_coefficientAt? isOther
  have isBelow := leads.floorAt_lt (Int.sub_add_cancel first digits)
  have isShort : 10 ^ (digits + 1) ≤ 10 ^ 18 := Nat.pow_le_pow_right (by decide) (by omega)
  refine ⟨reads, Nat.pos_of_ne_zero ?_, by omega, by omega, by omega⟩
  rintro rfl
  obtain ⟨-, isZero, -⟩ := Binary64.finite.inj reads
  omega

end Binary64

end ApiWorkshop
