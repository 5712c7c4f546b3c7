import ApiWorkshop.Number.Binary64
import Mathlib.Algebra.Group.Nat.Defs

/-!
# Numbers as rounding gives them

Rounding gives a significand of 53 bits with the smallest possible scale: a
significand with fewer bits has scale zero.

The numbers with a positive sign, the infinity among them, are closed under addition and
under multiplication by a finite number that is not zero.  So no sum of products of them
is a NaN.
-/

namespace ApiWorkshop

namespace Binary64

/-- A number with a significand of 53 bits, or with fewer bits at scale zero. -/
def IsRounded : Binary64 → Prop
  | .finite _ significand scale =>
      significand < 2 ^ 53 ∧ (scale = 0 ∨ 2 ^ 52 ≤ significand) ∧ scale ≤ 2045
  | _ => True

theorem le_divRoundEven (numerator denominator : Nat) :
    numerator / denominator ≤ divRoundEven numerator denominator := by
  rw [divRoundEven]
  split
  · exact Nat.le_refl _
  · split <;> omega

theorem divRoundEven_le (numerator denominator : Nat) :
    divRoundEven numerator denominator ≤ numerator / denominator + 1 := by
  rw [divRoundEven]
  split
  · omega
  · split <;> omega

/-- The scale that rounding begins with makes the significand one of 53 bits. -/
theorem div_lt_of_scale (floor : Nat) :
    floor / 2 ^ (floor.log2 + 1 - 53) < 2 ^ 53 := by
  rw [Nat.div_lt_iff_lt_mul (Nat.two_pow_pos _), ← Nat.pow_add]
  exact Nat.lt_of_lt_of_le Nat.lt_log2_self (Nat.pow_le_pow_right (by decide) (by omega))

theorem le_div_of_scale {floor : Nat} (hasScale : floor.log2 + 1 - 53 ≠ 0) :
    2 ^ 52 ≤ floor / 2 ^ (floor.log2 + 1 - 53) := by
  have nonzero : floor ≠ 0 := by
    rintro rfl
    simp at hasScale
  rw [Nat.le_div_iff_mul_le (Nat.two_pow_pos _), ← Nat.pow_add]
  have exponent : 52 + (floor.log2 + 1 - 53) = floor.log2 := by omega
  rw [exponent]
  exact Nat.log2_self_le nonzero

theorem isRounded_round (negative : Bool) (numerator denominator : Nat) :
    (round negative numerator denominator).IsRounded := by
  have quotient (scale : Nat) : numerator / (denominator * Nat.pow 2 scale) =
      numerator / denominator / 2 ^ scale := by
    rw [Nat.div_div_eq_div_mul]
    rfl
  have upper := div_lt_of_scale (numerator / denominator)
  have lower : (numerator / denominator).log2 + 1 - 53 ≠ 0 → 2 ^ 52 ≤
      numerator / denominator / 2 ^ ((numerator / denominator).log2 + 1 - 53) := le_div_of_scale
  rw [← quotient] at upper lower
  rw [round]
  dsimp only
  generalize (numerator / denominator).log2 + 1 - 53 = scale at upper lower ⊢
  have atLeast := le_divRoundEven numerator (denominator * Nat.pow 2 scale)
  have atMost := divRoundEven_le numerator (denominator * Nat.pow 2 scale)
  generalize divRoundEven numerator (denominator * Nat.pow 2 scale) = significand at atLeast atMost ⊢
  by_cases carry : significand = Nat.pow 2 53
  · simp only [carry, if_true]
    split
    · trivial
    · exact ⟨by decide, .inr (Nat.le_refl _), by omega⟩
  · simp only [carry, if_false]
    split
    · trivial
    · have notFull : significand ≠ 2 ^ 53 := carry
      refine ⟨by omega, ?_, by omega⟩
      by_cases isZero : scale = 0
      · exact .inl isZero
      · exact .inr (Nat.le_trans (lower isZero) atLeast)

theorem isRounded_ofDecimal (negative : Bool) (coefficient : Nat) (exponent : Int) :
    (ofDecimal negative coefficient exponent).IsRounded := by
  rw [ofDecimal]
  dsimp only
  split
  · exact ⟨by decide, .inl rfl, by decide⟩
  · split
    · trivial
    · split
      · exact ⟨by decide, .inl rfl, by decide⟩
      · split <;> exact isRounded_round ..

/-! ## Numbers that are not negative -/

/-- A number with a positive sign that is not a NaN. -/
def IsAmount : Binary64 → Prop
  | .nan => False
  | .infinity negative => negative = false
  | .finite negative _ _ => negative = false

/-- A finite number above zero. -/
def isPositive : Binary64 → Bool
  | .finite false significand _ => significand != 0
  | _ => false

theorem IsAmount.ne_nan {x : Binary64} (isAmount : x.IsAmount) : x ≠ .nan := by
  rintro rfl
  exact isAmount

theorem isAmount_round (numerator denominator : Nat) :
    (round false numerator denominator).IsAmount := by
  unfold round
  lift_lets
  intro floor scale significand
  generalize (if significand = Nat.pow 2 53 then (Nat.pow 2 52, scale + 1)
    else (significand, scale)) = carried
  dsimp only
  split <;> exact rfl

theorem isAmount_ofDecimal (coefficient : Nat) (exponent : Int) :
    (ofDecimal false coefficient exponent).IsAmount := by
  unfold ofDecimal
  split
  next => exact rfl
  next =>
    dsimp only
    split
    next => exact rfl
    next =>
      split
      next => exact rfl
      next => split <;> apply isAmount_round

theorem isAmount_add {x y : Binary64} (first : x.IsAmount) (second : y.IsAmount) :
    (x.add y).IsAmount := by
  cases x with
  | nan => exact first.elim
  | infinity negative =>
      obtain rfl : negative = false := first
      cases y with
      | nan => exact second.elim
      | infinity negative' =>
          obtain rfl : negative' = false := second
          exact rfl
      | finite => exact rfl
  | finite negative m q =>
      obtain rfl : negative = false := first
      cases y with
      | nan => exact second.elim
      | infinity negative' => exact second
      | finite negative' m' q' =>
          obtain rfl : negative' = false := second
          rw [add]
          apply isAmount_round

/-- The second factor is not zero, so that an infinite first one gives no NaN. -/
theorem isAmount_mul {x y : Binary64} (first : x.IsAmount) (second : y.isPositive = true) :
    (x.mul y).IsAmount := by
  obtain ⟨significand, scale, rfl, positive⟩ :
      ∃ significand scale, y = .finite false significand scale ∧ significand ≠ 0 := by
    unfold isPositive at second
    split at second
    next significand scale => exact ⟨significand, scale, rfl, bne_iff_ne.mp second⟩
    next => exact absurd second nofun
  cases x with
  | nan => exact first.elim
  | infinity negative =>
      obtain rfl : negative = false := first
      rw [mul, if_neg positive]
      exact rfl
  | finite negative m q =>
      obtain rfl : negative = false := first
      rw [mul, bne_self_eq_false]
      generalize unitsPerOne = units
      exact isAmount_round _ _

end Binary64

end ApiWorkshop
