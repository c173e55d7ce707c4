import SceneBaker.Number.Layout
import Mathlib.Algebra.Order.Group.Nat
import Mathlib.Tactic.Linarith
import Mathlib.Tactic.Ring

/-! # Exact natural numbers

A natural number whose significant bits fit the significand of a format is stored without rounding,
and its integer part is the number itself. The integer part of any value is such a number.
-/

namespace SceneBaker.Number.Layout

variable {layout : Layout} {n : Nat}

/-- A natural number whose significant bits fit the significand of the format. -/
def Exact (layout : Layout) (n : Nat) : Prop := 2 ^ (n.log2 - layout.fractionBits) ∣ n

/-- The significand of an exact natural number, with its leading bit. -/
def significand (layout : Layout) (n : Nat) : Nat :=
  n * 2 ^ (layout.fractionBits - n.log2) / 2 ^ (n.log2 - layout.fractionBits)

theorem exact_of_lt (small : n < 2 ^ (layout.fractionBits + 1)) : layout.Exact n := by
  by_cases zero : n = 0
  · simp [Exact, zero]
  · have bound : n.log2 < layout.fractionBits + 1 := (Nat.log2_lt zero).mpr small
    simp [Exact, Nat.sub_eq_zero_of_le (Nat.lt_succ_iff.mp bound)]

theorem log2_mul_two_pow {significand : Nat} (positive : 0 < significand) (places : Nat) :
    (significand * 2 ^ places).log2 = significand.log2 + places := by
  have scaled : significand * 2 ^ places ≠ 0 := by positivity
  refine (Nat.log2_eq_iff scaled).mpr ⟨?_, ?_⟩
  · rw [Nat.pow_add]
    exact Nat.mul_le_mul_right _ (Nat.log2_self_le positive.ne')
  · rw [Nat.add_right_comm, Nat.pow_add]
    exact Nat.mul_lt_mul_of_pos_right Nat.lt_log2_self (by positivity)

/-- Scaling a significand keeps a number exact. -/
theorem exact_scaled {significand exponent : Nat}
    (small : significand < 2 ^ (layout.fractionBits + 1)) :
    layout.Exact (significand * 2 ^ exponent) := by
  rcases Nat.eq_zero_or_pos significand with rfl | positive
  · simp [Exact]
  · have bound : significand.log2 < layout.fractionBits + 1 := (Nat.log2_lt positive.ne').mpr small
    rw [Exact, log2_mul_two_pow positive]
    refine Dvd.dvd.mul_left (pow_dvd_pow 2 ?_) _
    omega

private theorem scaled_significand (exact : layout.Exact n) :
    layout.significand n * 2 ^ (n.log2 - layout.fractionBits) =
      n * 2 ^ (layout.fractionBits - n.log2) :=
  Nat.div_mul_cancel (exact.mul_right _)

/-- The leading bit of the significand is set, and there is no higher one. -/
theorem significand_bounds (positive : 0 < n) (exact : layout.Exact n) :
    2 ^ layout.fractionBits ≤ layout.significand n ∧
      layout.significand n < 2 ^ (layout.fractionBits + 1) := by
  have self := (Nat.log2_eq_iff positive.ne').mp rfl
  have scaled := scaled_significand exact
  rcases le_total n.log2 layout.fractionBits with below | above
  · rw [Nat.sub_eq_zero_of_le below, pow_zero, mul_one] at scaled
    rw [scaled]
    have split : layout.fractionBits = n.log2 + (layout.fractionBits - n.log2) := by omega
    constructor
    · calc 2 ^ layout.fractionBits = 2 ^ n.log2 * 2 ^ (layout.fractionBits - n.log2) := by
            rw [← pow_add, ← split]
        _ ≤ _ := Nat.mul_le_mul_right _ self.1
    · calc n * 2 ^ (layout.fractionBits - n.log2)
          < 2 ^ (n.log2 + 1) * 2 ^ (layout.fractionBits - n.log2) :=
            Nat.mul_lt_mul_of_pos_right self.2 (by positivity)
        _ = 2 ^ (layout.fractionBits + 1) := by rw [← pow_add]; congr 1; omega
  · rw [Nat.sub_eq_zero_of_le above, pow_zero, mul_one] at scaled
    have split : n.log2 = layout.fractionBits + (n.log2 - layout.fractionBits) := by omega
    constructor
    · refine Nat.le_of_mul_le_mul_right (c := 2 ^ (n.log2 - layout.fractionBits)) ?_ (by positivity)
      rw [scaled, ← pow_add, ← split]
      exact self.1
    · refine Nat.lt_of_mul_lt_mul_right (a := 2 ^ (n.log2 - layout.fractionBits)) ?_
      rw [scaled, ← pow_add]
      convert self.2 using 2
      omega

/-- Exponents that the format can hold above the weight of its leading bit. -/
def Reaches (layout : Layout) (n : Nat) : Prop := n.log2 + 1 < 2 ^ (layout.exponentBits - 1)

private theorem leadingExponent_one (positive : 0 < n) : leadingExponent n 1 = n.log2 := by
  have self := (Nat.log2_eq_iff positive.ne').mp rfl
  have notBelow : ¬ n < 2 ^ n.log2 := Nat.not_lt.mpr self.1
  have unit : Nat.log2 1 = 0 := by decide
  simp [leadingExponent, rescale, unit, notBelow]

theorem roundQuotient_of_dvd {numerator denominator : Nat} (positive : 0 < denominator)
    (whole : denominator ∣ numerator) :
    roundQuotient numerator denominator = numerator / denominator := by
  simp [roundQuotient, Nat.mod_eq_zero_of_dvd whole, positive]

private theorem minExponent_add (layout : Layout) :
    layout.minExponent + (2 ^ (layout.exponentBits - 1) : Nat) + layout.fractionBits = 2 := by
  simp only [minExponent]
  push_cast
  ring

/-- The exponent field of a natural number and its significand, rounded to the format. -/
theorem ofScaled_zero (positive : 0 < n) (reach : layout.Reaches n) :
    layout.ofScaled n 0 = min layout.infinity
      ((n.log2 + 2 ^ (layout.exponentBits - 1) - 2) * 2 ^ layout.fractionBits +
        roundQuotient (n * 2 ^ (layout.fractionBits - n.log2)) (2 ^ (n.log2 - layout.fractionBits))) := by
  have weight := minExponent_add layout
  have room : n.log2 + 1 < 2 ^ (layout.exponentBits - 1) := reach
  generalize 2 ^ (layout.exponentBits - 1) = bias at *
  have exponent : max ((n.log2 : Int) - layout.fractionBits) layout.minExponent =
      n.log2 - layout.fractionBits := by omega
  have field : (n.log2 - layout.fractionBits - layout.minExponent : Int).toNat =
      n.log2 + bias - 2 := by omega
  have up : (-(n.log2 - layout.fractionBits : Int)).toNat = layout.fractionBits - n.log2 := by omega
  have down : (n.log2 - layout.fractionBits : Int).toNat = n.log2 - layout.fractionBits := by omega
  simp only [ofScaled, ofRatio, Int.toNat_zero, Int.neg_zero, pow_zero, mul_one, positive.ne',
    if_false, leadingExponent_one positive, exponent, rescale, up, down, one_mul, field]

/-- An exact natural number is stored without rounding. -/
theorem ofScaled_zero_of_exact (positive : 0 < n) (exact : layout.Exact n)
    (reach : layout.Reaches n) :
    layout.ofScaled n 0 = (n.log2 + 2 ^ (layout.exponentBits - 1) - 2) * 2 ^ layout.fractionBits +
      layout.significand n := by
  have bounds := significand_bounds positive exact
  have room : n.log2 + 1 < 2 ^ (layout.exponentBits - 1) := reach
  have width : 2 ^ layout.exponentBits = 2 * 2 ^ (layout.exponentBits - 1) := by
    have bits : layout.exponentBits = layout.exponentBits - 1 + 1 := by
      rcases Nat.eq_zero_or_pos layout.exponentBits with none | some
      · simp [none] at room
      · omega
    conv_lhs => rw [bits, pow_succ, mul_comm]
  have whole : 2 ^ (n.log2 - layout.fractionBits) ∣ n * 2 ^ (layout.fractionBits - n.log2) :=
    exact.mul_right _
  rw [ofScaled_zero positive reach, roundQuotient_of_dvd (by positivity) whole]
  generalize 2 ^ (layout.exponentBits - 1) = bias at *
  have finite : (n.log2 + bias - 2) * 2 ^ layout.fractionBits + layout.significand n ≤
      layout.infinity := by
    calc (n.log2 + bias - 2) * 2 ^ layout.fractionBits + layout.significand n
        ≤ (n.log2 + bias - 2) * 2 ^ layout.fractionBits + 2 ^ (layout.fractionBits + 1) := by omega
      _ = (n.log2 + bias - 2 + 2) * 2 ^ layout.fractionBits := by ring
      _ ≤ (2 ^ layout.exponentBits - 1) * 2 ^ layout.fractionBits :=
          Nat.mul_le_mul_right _ (by omega)
  exact min_eq_right finite

/-- A natural number that the format reaches is stored as a finite value. -/
theorem ofScaled_zero_lt_infinity (exact : layout.Exact n) (reach : layout.Reaches n) :
    layout.ofScaled n 0 < layout.infinity := by
  have room : n.log2 + 1 < 2 ^ (layout.exponentBits - 1) := reach
  have bits : 0 < layout.exponentBits - 1 := by
    by_contra none
    simp [Nat.eq_zero_of_not_pos none] at room
  have width : 2 ^ layout.exponentBits = 2 ^ (layout.exponentBits - 1) * 2 := by
    rw [← pow_succ]
    congr 1
    omega
  have unit : 0 < 2 ^ layout.fractionBits := by positivity
  rcases Nat.eq_zero_or_pos n with rfl | positive
  · simp only [ofScaled, ofRatio, Nat.zero_mul, if_true, infinity]
    apply Nat.mul_pos ?_ unit
    omega
  · have bounds := significand_bounds positive exact
    rw [ofScaled_zero_of_exact positive exact reach, infinity, width]
    generalize 2 ^ (layout.exponentBits - 1) = bias at *
    calc (n.log2 + bias - 2) * 2 ^ layout.fractionBits + layout.significand n
        < (n.log2 + bias - 2) * 2 ^ layout.fractionBits + 2 ^ (layout.fractionBits + 1) := by omega
      _ = (n.log2 + bias - 2 + 2) * 2 ^ layout.fractionBits := by ring
      _ ≤ (bias * 2 - 1) * 2 ^ layout.fractionBits := Nat.mul_le_mul_right _ (by omega)

theorem ofScaled_zero_pos (positive : 0 < n) (exact : layout.Exact n) (reach : layout.Reaches n) :
    0 < layout.ofScaled n 0 := by
  have bounds := significand_bounds positive exact
  have unit : 0 < 2 ^ layout.fractionBits := by positivity
  rw [ofScaled_zero_of_exact positive exact reach]
  omega

/-- Reading back the stored form of an exact natural number. -/
theorem parts_ofScaled_zero (positive : 0 < n) (exact : layout.Exact n)
    (reach : layout.Reaches n) :
    layout.parts (layout.ofScaled n 0) =
      (layout.significand n, (n.log2 : Int) - layout.fractionBits) := by
  have weight := minExponent_add layout
  have bounds := significand_bounds positive exact
  have room : n.log2 + 1 < 2 ^ (layout.exponentBits - 1) := reach
  have unit : 0 < 2 ^ layout.fractionBits := by positivity
  obtain ⟨fraction, split⟩ := Nat.exists_eq_add_of_le bounds.1
  have small : fraction < 2 ^ layout.fractionBits := by
    rw [pow_succ] at bounds
    omega
  rw [ofScaled_zero_of_exact positive exact reach]
  generalize 2 ^ (layout.exponentBits - 1) = bias at *
  have stored : (n.log2 + bias - 2) * 2 ^ layout.fractionBits + layout.significand n =
      fraction + (n.log2 + bias - 1) * 2 ^ layout.fractionBits := by
    have step : n.log2 + bias - 1 = (n.log2 + bias - 2) + 1 := by omega
    rw [split, step, Nat.add_mul]
    ring
  rw [stored]
  simp only [parts, Nat.add_mul_div_right _ _ unit, Nat.add_mul_mod_self_right,
    Nat.div_eq_of_lt small, Nat.mod_eq_of_lt small, Nat.zero_add]
  rw [if_neg (by omega), split, Nat.add_comm]
  congr 1
  omega

theorem integerPart_ofScaled_zero (exact : layout.Exact n) (reach : layout.Reaches n) :
    layout.integerPart (layout.ofScaled n 0) = n := by
  rcases Nat.eq_zero_or_pos n with rfl | positive
  · simp [ofScaled, ofRatio, integerPart, parts]
  · have up : (-(n.log2 - layout.fractionBits : Int)).toNat = layout.fractionBits - n.log2 := by
      omega
    have down : (n.log2 - layout.fractionBits : Int).toNat = n.log2 - layout.fractionBits := by
      omega
    simp only [integerPart, parts_ofScaled_zero positive exact reach, up, down,
      scaled_significand exact]
    exact Nat.mul_div_cancel _ (by positivity)

theorem isWhole_ofScaled_zero (exact : layout.Exact n) (reach : layout.Reaches n) :
    layout.isWhole (layout.ofScaled n 0) = true := by
  rcases Nat.eq_zero_or_pos n with rfl | positive
  · simp [ofScaled, ofRatio, isWhole, parts]
  · have up : (-(n.log2 - layout.fractionBits : Int)).toNat = layout.fractionBits - n.log2 := by
      omega
    simp only [isWhole, parts_ofScaled_zero positive exact reach, up, beq_iff_eq]
    rcases le_total n.log2 layout.fractionBits with below | above
    · have scaled := scaled_significand exact
      rw [Nat.sub_eq_zero_of_le below, pow_zero, mul_one] at scaled
      rw [scaled]
      exact Nat.mul_mod_left ..
    · rw [Nat.sub_eq_zero_of_le above, pow_zero]
      exact Nat.mod_one _

/-- The integer part of any value is exact. -/
theorem exact_integerPart (magnitude : Nat) : layout.Exact (layout.integerPart magnitude) := by
  have fits : (layout.parts magnitude).1 < 2 ^ (layout.fractionBits + 1) := by
    have small : magnitude % 2 ^ layout.fractionBits < 2 ^ layout.fractionBits :=
      Nat.mod_lt _ (by positivity)
    simp only [parts]
    split <;> simp only [pow_succ] <;> omega
  simp only [integerPart]
  generalize (layout.parts magnitude).1 = significand at *
  generalize (layout.parts magnitude).2 = exponent at *
  rcases le_total 0 exponent with up | down
  · have none : (-exponent).toNat = 0 := by omega
    rw [none, pow_zero, Nat.div_one]
    exact exact_scaled fits
  · have none : exponent.toNat = 0 := by omega
    rw [none, pow_zero, mul_one]
    exact exact_of_lt (lt_of_le_of_lt (Nat.div_le_self ..) fits)

end SceneBaker.Number.Layout
