import SceneBaker.Number.Double
import SceneBaker.Proofs.Number.Exact

/-! # Whole doubles

A natural number with at most 53 significant bits is a double without rounding: it is finite, positive
unless the number is zero, and its integer part is the number.
-/

namespace SceneBaker.Number.Double

variable {x : Double} {n : Nat}

/-- Without its sign bit a number is its magnitude. -/
private theorem toNat_magnitude (x : Double) :
    (x.bits &&& 0x7fffffffffffffff).toNat = x.magnitude := by
  rw [UInt64.toNat_and]
  exact Nat.and_two_pow_sub_one_eq_mod x.bits.toNat 63

theorem isFinite_iff : x.isFinite = true ↔ x.magnitude < Layout.double.infinity := by
  simp only [isFinite, decide_eq_true_eq, UInt64.lt_iff_toNat_lt, toNat_magnitude]
  rfl

theorem isNaN_eq_false_iff : x.isNaN = false ↔ x.magnitude ≤ Layout.double.infinity := by
  simp only [isNaN, decide_eq_false_iff_not, UInt64.lt_iff_toNat_lt, toNat_magnitude, Nat.not_lt]
  rfl

theorem isNaN_eq_false_of_isFinite (finite : x.isFinite = true) : x.isNaN = false :=
  isNaN_eq_false_iff.mpr (isFinite_iff.mp finite).le

theorem magnitude_ofMagnitude {magnitude : Nat} (small : magnitude < Layout.double.signBit) :
    (ofMagnitude false magnitude).magnitude = magnitude := by
  have width : Layout.double.signBit = 2 ^ 63 := rfl
  simp only [Double.magnitude, ofMagnitude, Bool.false_eq_true, if_false, UInt64.toNat_ofNat']
  rw [width] at small ⊢
  omega

theorem negative_ofMagnitude {magnitude : Nat} (small : magnitude < Layout.double.signBit) :
    (ofMagnitude false magnitude).negative = false := by
  have width : Layout.double.signBit = 2 ^ 63 := rfl
  simp only [negative, ofMagnitude, Bool.false_eq_true, if_false, UInt64.toNat_ofNat',
    decide_eq_false_iff_not]
  omega

private theorem reaches_of_lt (small : n < 2 ^ 53) : Layout.double.Reaches n := by
  have log : n.log2 < 53 := by
    by_cases zero : n = 0
    · simp [zero]
    · exact (Nat.log2_lt zero).mpr small
  change n.log2 + 1 < 1024
  omega

private theorem ofScaled_lt_infinity (small : n < 2 ^ 53) :
    Layout.double.ofScaled n 0 < Layout.double.infinity :=
  Layout.ofScaled_zero_lt_infinity (Layout.exact_of_lt small) (reaches_of_lt small)

private theorem ofScaled_lt_signBit (small : n < 2 ^ 53) :
    Layout.double.ofScaled n 0 < Layout.double.signBit :=
  (ofScaled_lt_infinity small).trans (by decide)

theorem magnitude_ofNat (small : n < 2 ^ 53) :
    (ofNat n).magnitude = Layout.double.ofScaled n 0 :=
  magnitude_ofMagnitude (ofScaled_lt_signBit small)

theorem negative_ofNat (small : n < 2 ^ 53) : (ofNat n).negative = false :=
  negative_ofMagnitude (ofScaled_lt_signBit small)

theorem isFinite_ofNat (small : n < 2 ^ 53) : (ofNat n).isFinite = true := by
  rw [isFinite_iff, magnitude_ofNat small]
  exact ofScaled_lt_infinity small

theorem zero_lt_ofNat (positive : 0 < n) (small : n < 2 ^ 53) : (0 : Double) < ofNat n := by
  have value := Layout.ofScaled_zero_pos positive (Layout.exact_of_lt small) (reaches_of_lt small)
  have zero : (0 : Double).key = 0 := by decide
  refine ⟨by decide, isNaN_eq_false_of_isFinite (isFinite_ofNat small), ?_⟩
  rw [zero, key, negative_ofNat small, magnitude_ofNat small]
  simpa using value

theorem toNatClamped_ofNat (small : n < 2 ^ 53) (limit : Nat) :
    (ofNat n).toNatClamped limit = min n limit := by
  have finite := isFinite_ofNat small
  have whole := Layout.integerPart_ofScaled_zero (Layout.exact_of_lt small) (reaches_of_lt small)
  simp [toNatClamped, finite, isNaN_eq_false_of_isFinite finite, negative_ofNat small,
    magnitude_ofNat small, whole]

end SceneBaker.Number.Double
