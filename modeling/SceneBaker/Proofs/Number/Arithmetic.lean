import Mathlib.Order.Monotone.Basic
import SceneBaker.Proofs.Number.Form
import SceneBaker.Proofs.Number.Value

/-! # Arithmetic of doubles

Every result is rounded, so that few laws hold of all doubles. What is left: a finite number divided
by itself is one, and one times it is the number; a zero stays a zero under division and
multiplication; equal numbers leave nothing when one is taken from the other, and a greater number
leaves something.
-/

namespace SceneBaker.Number.Double

open Float.Model Float.Model.UnpackedFloat

variable {x y : Double}

/-! ## Order -/

theorem le_iff_key (finite : x.isFinite = true) (finite' : y.isFinite = true) :
    x ≤ y ↔ x.key ≤ y.key :=
  ⟨fun order => order.2.2, fun order =>
    ⟨isNaN_eq_false_of_isFinite finite, isNaN_eq_false_of_isFinite finite', order⟩⟩

theorem lt_iff_key (finite : x.isFinite = true) (finite' : y.isFinite = true) :
    x < y ↔ x.key < y.key :=
  ⟨fun order => order.2.2, fun order =>
    ⟨isNaN_eq_false_of_isFinite finite, isNaN_eq_false_of_isFinite finite', order⟩⟩

theorem numEq_iff : x.numEq y = true ↔ x.isNaN = false ∧ y.isNaN = false ∧ x.key = y.key := by
  simp [numEq, and_assoc]

theorem numEq_iff_key (finite : x.isFinite = true) (finite' : y.isFinite = true) :
    x.numEq y = true ↔ x.key = y.key := by
  simp [numEq_iff, isNaN_eq_false_of_isFinite finite, isNaN_eq_false_of_isFinite finite']

theorem natAbs_key (x : Double) : x.key.natAbs = x.magnitude := by
  rw [key]
  split <;> omega

theorem isFinite_iff_key : x.isFinite = true ↔ x.key.natAbs < Layout.double.infinity := by
  rw [isFinite_iff, natAbs_key]

/-- What lies between finite numbers is finite. -/
theorem isFinite_of_le_of_le {z : Double} (low : x ≤ y) (high : y ≤ z) (finite : x.isFinite = true)
    (finite' : z.isFinite = true) : y.isFinite = true := by
  have up := low.2.2
  have down := high.2.2
  rw [isFinite_iff_key] at finite finite' ⊢
  omega

theorem key_zero : (0 : Double).key = 0 := by decide

theorem key_of_magnitude_eq_zero (zero : x.magnitude = 0) : x.key = 0 := by
  rw [key, zero]
  split <;> rfl

theorem le_zero_of_magnitude_eq_zero (zero : x.magnitude = 0) : x ≤ 0 :=
  ⟨isNaN_eq_false_of_isFinite (isFinite_of_magnitude_eq_zero zero), by decide,
    (key_of_magnitude_eq_zero zero).le⟩

theorem numEq_zero_of_magnitude_eq_zero (zero : x.magnitude = 0) : x.numEq 0 = true := by
  rw [numEq_iff_key (isFinite_of_magnitude_eq_zero zero) (by decide),
    key_of_magnitude_eq_zero zero, key_zero]

/-- A number above zero has no sign. -/
theorem of_key_pos (positive : 0 < x.key) : x.negative = false ∧ 0 < x.magnitude := by
  rw [key] at positive
  split at positive
  case isTrue => omega
  case isFalse above => exact ⟨by simpa using above, by omega⟩

/-- A number below zero has a sign. -/
theorem of_key_neg (below : x.key < 0) : x.negative = true ∧ 0 < x.magnitude := by
  rw [key] at below
  split at below
  case isTrue negative => exact ⟨negative, by omega⟩
  case isFalse => omega

/-- Equal numbers are the same number, or zeros of whatever sign. -/
theorem eq_or_of_key_eq (same : x.key = y.key) : x = y ∨ x.magnitude = 0 ∧ y.magnitude = 0 := by
  by_cases signs : x.negative = y.negative
  · left
    rw [key, key, signs] at same
    rw [← ofMagnitude_magnitude x, ← ofMagnitude_magnitude y, signs]
    congr 1
    split at same <;> omega
  · right
    rw [key, key] at same
    cases one : x.negative <;> cases other : y.negative <;> simp [one, other] at same signs <;> omega

/-! ## Rounding of what is exact -/

theorem targetExponent_eq (total : Int) :
    Format.binary64.targetExponent total = Max.max (total - 53) (-1074) := rfl

/-- Zeros that are shifted out leave nothing behind. -/
theorem shiftRight_exact (significand places : Nat) :
    (⟨significand * 2 ^ places, false, false⟩ : ExtendedMantissa) >>> places =
      ⟨significand, false, false⟩ := by
  induction places generalizing significand with
  | zero => rw [Nat.pow_zero, Nat.mul_one]; rfl
  | succ places ih =>
    have step : significand * 2 ^ (places + 1) = significand * 2 * 2 ^ places := by ring
    change ExtendedMantissa.shiftRightOne
      ((⟨significand * 2 ^ (places + 1), false, false⟩ : ExtendedMantissa) >>> places) = _
    rw [step, ih, ExtendedMantissa.shiftRightOne]
    simp

/-- A significand that stands where the format has it is found again behind zeros. -/
theorem roundWithAccuracy_scaled (sign : Sign) {significand : Nat} {exponent : Int}
    (positive : 0 < significand)
    (placed : Format.binary64.targetExponent (totalExponent significand exponent) = exponent)
    (places : Nat) :
    roundWithAccuracy .binary64 sign (significand * 2 ^ places) (exponent - places) .exact =
      .finite sign significand exponent positive := by
  have total : totalExponent (significand * 2 ^ places) (exponent - places) =
      totalExponent significand exponent := by
    simp only [totalExponent, Layout.log2_mul_two_pow positive]
    omega
  have first : shiftToTargetExponent .binary64 (significand * 2 ^ places) (exponent - places) .exact =
      (⟨significand, false, false⟩, exponent) := by
    have shift : (exponent - (exponent - places)).toNat = places := by omega
    simp only [shiftToTargetExponent, shiftToExponent, total, placed, shift,
      ExtendedMantissa.ofMantissaAndAccuracy, shiftRight_exact, sub_add_cancel]
  have second : shiftToTargetExponent .binary64 significand exponent .exact =
      (⟨significand, false, false⟩, exponent) := by
    have shift : (exponent - exponent).toNat = 0 := by omega
    simp only [shiftToTargetExponent, shiftToExponent, placed, shift]
    simp only [Nat.cast_zero, add_zero]
    rfl
  have rounded : ExtendedMantissa.roundedMantissa ⟨significand, false, false⟩ = significand := rfl
  simp only [roundWithAccuracy, first, rounded, second, positive.ne', dif_neg, not_false_iff]

/-- The parts of a magnitude stand where the format has them. -/
theorem targetExponent_parts {magnitude : Nat} (positive : 0 < magnitude) :
    Format.binary64.targetExponent (totalExponent (Layout.double.parts magnitude).1
      (Layout.double.parts magnitude).2) = (Layout.double.parts magnitude).2 := by
  rw [targetExponent_eq, totalExponent]
  rcases Nat.lt_or_ge magnitude (2 ^ 52) with subnormal | normal
  · have log : magnitude.log2 < 52 := (Nat.log2_lt positive.ne').mpr subnormal
    simp only [parts_of_lt subnormal]
    omega
  · have biased : 0 < magnitude / 2 ^ 52 := Nat.div_pos normal (by decide)
    simp only [parts_of_le normal, log2_normal]
    omega

/-! ## Quotients and products -/

theorem form_one : (1 : Double).form = .finite .positive (2 ^ 52) (-52) (by decide) := rfl

private theorem div_form_self {sign : Sign} {significand : Nat} {exponent : Int}
    (positive : 0 < significand) :
    UnpackedFloat.div .binary64 (.finite sign significand exponent positive)
      (.finite sign significand exponent positive) = (1 : Double).form := by
  have whole : significand <<< 53 = 2 ^ 53 * significand := by
    rw [Nat.shiftLeft_eq, Nat.mul_comm]
  have core : divCore .binary64 significand exponent significand exponent = (2 ^ 53, -53, .exact) := by
    simp only [divCore, sub_self, targetExponent_eq]
    change ((significand <<< 53) / significand, (-53 : Int),
      accuracyOfFraction (significand <<< 53 % significand) significand) = _
    rw [whole, Nat.mul_div_cancel _ positive, Nat.mul_mod_left]
    rfl
  simp only [UnpackedFloat.div, core]
  cases sign <;> rfl

/-- A finite number other than zero goes into itself once. -/
theorem div_self_of_isFinite (finite : x.isFinite = true) (nonzero : 0 < x.magnitude) :
    x / x = 1 := by
  have number := isNaN_eq_false_of_isFinite finite
  rw [div_eq number number, form_eq finite, formOf_of_pos _ nonzero, div_form_self]
  rfl

/-- One times a finite number is the number. -/
theorem one_mul_of_isFinite (finite : x.isFinite = true) : 1 * x = x := by
  have number := isNaN_eq_false_of_isFinite finite
  have form : UnpackedFloat.mul .binary64 (1 : Double).form x.form = x.form := by
    rw [form_one, form_eq finite]
    by_cases zero : x.magnitude = 0
    · rw [zero, formOf_zero]
      cases x.negative <;> rfl
    · have positive := Nat.pos_of_ne_zero zero
      have plus : Sign.positive * sign x.negative = sign x.negative := by
        cases x.negative <;> rfl
      rw [formOf_of_pos _ positive, UnpackedFloat.mul, Nat.mul_comm (2 ^ 52), Int.add_comm, plus]
      exact roundWithAccuracy_scaled (sign x.negative) (parts_pos positive)
        (targetExponent_parts positive) 52
  rw [mul_eq (by decide) number, form, ofForm_form number]

/-- A zero divided by a number above zero is the same zero. -/
theorem div_of_magnitude_eq_zero (zero : x.magnitude = 0) (positive : 0 < y) : x / y = x := by
  obtain ⟨-, number, above⟩ := positive
  rw [key_zero] at above
  obtain ⟨sign, nonzero⟩ := of_key_pos above
  have number' := isNaN_eq_false_of_isFinite (isFinite_of_magnitude_eq_zero zero)
  have form : UnpackedFloat.div .binary64 x.form y.form = x.form := by
    rw [form_of_magnitude_eq_zero zero]
    rcases form_cases number with ⟨-, same⟩ | ⟨-, same⟩
    · rw [same, formOf_of_pos _ nonzero, sign]
      cases x.negative <;> rfl
    · rw [same, sign]
      cases x.negative <;> rfl
  rw [div_eq number' number, form, ofForm_form number']

theorem magnitude_ofForm_zero (sign : Sign) : (ofForm (.zero sign)).magnitude = 0 := by
  cases sign <;> decide

/-- Zero times a finite number is a zero. -/
theorem magnitude_zero_mul (finite : x.isFinite = true) : (0 * x).magnitude = 0 := by
  rw [mul_eq (by decide) (isNaN_eq_false_of_isFinite finite), form_of_magnitude_eq_zero (by decide),
    form_eq finite]
  by_cases zero : x.magnitude = 0
  · rw [zero, formOf_zero]
    exact magnitude_ofForm_zero _
  · rw [formOf_of_pos _ (Nat.pos_of_ne_zero zero)]
    exact magnitude_ofForm_zero _

/-! ## Values in units of the least magnitude -/

/-- A finite magnitude in units of the least one. -/
def units (magnitude : Nat) : Nat :=
  (Layout.double.parts magnitude).1 * 2 ^ ((Layout.double.parts magnitude).2 + 1074).toNat

theorem units_zero : units 0 = 0 := by decide

/-- The next magnitude stands for more, also where the exponent changes. -/
theorem units_lt_succ (magnitude : Nat) : units magnitude < units (magnitude + 1) := by
  rw [units, units]
  rcases Nat.lt_or_ge magnitude (2 ^ 52) with subnormal | normal
  · rw [parts_of_lt subnormal]
    rcases Nat.lt_or_ge (magnitude + 1) (2 ^ 52) with next | top
    · rw [parts_of_lt next]
      simp
    · obtain rfl : magnitude = 2 ^ 52 - 1 := by omega
      decide
  · rw [parts_of_le normal, parts_of_le (by omega : 2 ^ 52 ≤ magnitude + 1)]
    have biased : 0 < magnitude / 2 ^ 52 := Nat.div_pos normal (by decide)
    by_cases carry : (magnitude + 1) % 2 ^ 52 = 0
    · have field : (magnitude + 1) / 2 ^ 52 = magnitude / 2 ^ 52 + 1 := by omega
      have full : magnitude % 2 ^ 52 = 2 ^ 52 - 1 := by omega
      have up : (((magnitude / 2 ^ 52 + 1 : Nat) : Int) - 1075 + 1074).toNat =
          (((magnitude / 2 ^ 52 : Nat) : Int) - 1075 + 1074).toNat + 1 := by omega
      simp only [carry, field, full, up, Nat.pow_succ _ (Int.toNat _)]
      have unit : 0 < 2 ^ (((magnitude / 2 ^ 52 : Nat) : Int) - 1075 + 1074).toNat := by positivity
      generalize 2 ^ (((magnitude / 2 ^ 52 : Nat) : Int) - 1075 + 1074).toNat = scale at *
      omega
    · have field : (magnitude + 1) / 2 ^ 52 = magnitude / 2 ^ 52 := by omega
      have next : (magnitude + 1) % 2 ^ 52 = magnitude % 2 ^ 52 + 1 := by omega
      simp only [field, next]
      exact Nat.mul_lt_mul_of_pos_right (by omega) (by positivity)

theorem units_strictMono : StrictMono units := strictMono_nat_of_lt_succ units_lt_succ

/-- The value of a finite number in units of the least one. -/
def signedUnits (x : Double) : Int := if x.negative then -units x.magnitude else units x.magnitude

theorem signedUnits_lt (less : x.key < y.key) : x.signedUnits < y.signedUnits := by
  have some {magnitude : Nat} (positive : 0 < magnitude) : 0 < units magnitude := by
    simpa [units_zero] using units_strictMono positive
  rw [signedUnits, signedUnits]
  rw [key, key] at less
  cases one : x.negative <;> cases other : y.negative
    <;> simp only [one, other, if_true, if_false, Bool.false_eq_true] at less ⊢
  · exact_mod_cast units_strictMono (by omega)
  · omega
  · rcases Nat.eq_zero_or_pos x.magnitude with zero | positive
    · have above := some (by omega : 0 < y.magnitude)
      rw [zero, units_zero]
      omega
    · have below := some positive
      omega
  · exact neg_lt_neg (by exact_mod_cast units_strictMono (by omega))

/-! ## Differences -/

/-- A result above zero that a double holds without a shift. -/
def Held : UnpackedFloat → Prop
  | .finite .positive significand exponent _ => significand < 2 ^ 53 ∧ -1074 ≤ exponent
  | _ => False

theorem zero_lt_of_toNat {bits : UInt64} (positive : 0 < bits.toNat)
    (bound : bits.toNat ≤ Layout.double.infinity) : 0 < (⟨bits⟩ : Double) := by
  have limit : Layout.double.infinity = 0x7ff * 2 ^ 52 := rfl
  have width : Layout.double.signBit = 2 ^ 63 := rfl
  have small : bits.toNat < Layout.double.signBit := by omega
  have size : (⟨bits⟩ : Double).magnitude = bits.toNat := Nat.mod_eq_of_lt small
  have above : (⟨bits⟩ : Double).negative = false := decide_eq_false (Nat.not_le.mpr small)
  refine ⟨by decide, isNaN_eq_false_iff.mpr (size ▸ bound), ?_⟩
  rw [key_zero, key, above, size]
  simpa using positive

theorem zero_lt_ofForm {form : UnpackedFloat} (held : Held form) : 0 < ofForm form := by
  obtain ⟨positive, bound⟩ : 0 < (UnpackedFloat.pack .binary64 form).toNat ∧
      (UnpackedFloat.pack .binary64 form).toNat ≤ Layout.double.infinity := by
    match form, held with
    | .finite .positive significand exponent positive, ⟨fits, least⟩ =>
      have bias : Format.binary64.exponentBias = 1023 := by decide
      have precision : Format.binary64.mantissaBits = 53 := by decide
      have limit : Layout.double.infinity = 0x7ff * 2 ^ 52 := rfl
      have log : significand.log2 < 53 := (Nat.log2_lt positive.ne').mpr fits
      simp only [UnpackedFloat.pack, bias, precision]
      split_ifs with large normal
      · decide
      · have leading := Nat.log2_self_le positive.ne'
        rw [toNat_packComponents, BitVec.toNat_ofNat, BitVec.toNat_ofNat, limit]
        omega
      · have low : significand < 2 ^ 52 := (Nat.log2_lt positive.ne').mp (by omega)
        rw [toNat_packComponents, BitVec.toNat_ofNat, BitVec.toNat_ofNat, limit]
        omega
  have above : 0 < (⟨.ofBitVec (UnpackedFloat.pack .binary64 form)⟩ : Double) :=
    zero_lt_of_toNat positive bound
  rw [ofForm, if_neg (by simp [above.2.1])]
  exact above

theorem mantissa_shiftRight (extended : ExtendedMantissa) (places : Nat) :
    (extended >>> places).mantissa = extended.mantissa / 2 ^ places := by
  induction places with
  | zero => exact (Nat.div_one _).symm
  | succ places ih =>
    change (extended >>> places).mantissa / 2 = _
    rw [ih, Nat.div_div_eq_div_mul, Nat.pow_succ]

/-- A shift to where the format has a significand leaves its leading bit. -/
theorem shiftToTargetExponent_bounds {significand : Nat} {exponent : Int}
    (positive : 0 < significand) (least : -1074 ≤ exponent) (accuracy : Accuracy) :
    let shifted := shiftToTargetExponent .binary64 significand exponent accuracy
    0 < shifted.1.mantissa ∧ shifted.1.mantissa < 2 ^ 53 ∧ -1074 ≤ shifted.2 := by
  have start : (ExtendedMantissa.ofMantissaAndAccuracy significand accuracy).mantissa =
      significand := by
    fun_cases ExtendedMantissa.ofMantissaAndAccuracy <;> rfl
  have places : (Format.binary64.targetExponent (totalExponent significand exponent) -
      exponent).toNat = significand.log2 - 52 := by
    rw [targetExponent_eq, totalExponent]
    omega
  simp only [shiftToTargetExponent, shiftToExponent, places, mantissa_shiftRight, start]
  refine ⟨Nat.div_pos ?_ (by positivity), ?_, by omega⟩
  · exact (Nat.pow_le_pow_right two_pos (Nat.sub_le ..)).trans (Nat.log2_self_le positive.ne')
  · rw [Nat.div_lt_iff_lt_mul (by positivity), ← Nat.pow_add]
    exact Nat.lt_log2_self.trans_le (Nat.pow_le_pow_right two_pos (by omega))

theorem le_roundedMantissa (extended : ExtendedMantissa) :
    extended.mantissa ≤ extended.roundedMantissa := by
  obtain ⟨mantissa, roundBit, stickyBit⟩ := extended
  cases roundBit <;> cases stickyBit
  · exact le_rfl
  · exact le_rfl
  · exact Nat.le_add_right ..
  · exact Nat.le_add_right ..

theorem held_roundWithAccuracy {significand : Nat} {exponent : Int} (positive : 0 < significand)
    (least : -1074 ≤ exponent) (accuracy : Accuracy) :
    Held (roundWithAccuracy .binary64 .positive significand exponent accuracy) := by
  obtain ⟨some, -, placed⟩ := shiftToTargetExponent_bounds positive least accuracy
  -- Rounding up may need a second shift; it loses no more than the first.
  obtain ⟨nonzero, fits, final⟩ :=
    shiftToTargetExponent_bounds (some.trans_le (le_roundedMantissa _)) placed .exact
  simp only [roundWithAccuracy]
  rw [dif_neg nonzero.ne']
  exact ⟨fits, final⟩

theorem held_normalize {significand : Int} {exponent : Int} {zeroSign : Sign}
    (positive : 0 < significand) (least : -1074 ≤ exponent) :
    Held (UnpackedFloat.normalize .binary64 significand exponent zeroSign) := by
  have order : compare significand 0 = .gt := compare_gt_iff_gt.mpr positive
  rw [UnpackedFloat.normalize, order]
  simp only [UnpackedFloat.round, decreaseExponent]
  apply held_roundWithAccuracy
  · rw [Nat.shiftLeft_eq]
    exact Nat.mul_pos (by omega) (by positivity)
  · rw [targetExponent_eq]
    omega

/-- A part that is brought to a finer unit keeps its value. -/
theorem aligned_mul {magnitude : Nat} {exponent : Int} (least : -1074 ≤ exponent)
    (finer : exponent ≤ (Layout.double.parts magnitude).2) :
    (Layout.double.parts magnitude).1 <<< ((Layout.double.parts magnitude).2 - exponent).toNat *
      2 ^ (exponent + 1074).toNat = units magnitude := by
  rw [Nat.shiftLeft_eq, Nat.mul_assoc, ← Nat.pow_add, units]
  congr 2
  omega

theorem apply_sign_mul (negative : Bool) (significand unit : Nat) :
    (sign negative).apply significand * unit =
      if negative then -((significand * unit : Nat) : Int) else (significand * unit : Nat) := by
  cases negative <;> simp [sign, Sign.apply]

/-- Of two numbers other than zero the greater leaves something when the less is taken from it. -/
theorem held_sub_formOf (less : x.key < y.key) (nonzero : 0 < x.magnitude)
    (nonzero' : 0 < y.magnitude) :
    Held (UnpackedFloat.sub .binary64 (formOf y.negative y.magnitude)
      (formOf x.negative x.magnitude)) := by
  rw [formOf_of_pos _ nonzero, formOf_of_pos _ nonzero']
  simp only [UnpackedFloat.sub, decreaseExponent]
  generalize place : Min.min (Layout.double.parts y.magnitude).2
    (Layout.double.parts x.magnitude).2 = exponent
  have one := le_parts x.magnitude
  have other := le_parts y.magnitude
  have least : -1074 ≤ exponent := by omega
  refine held_normalize ?_ least
  -- In units of the least magnitude the difference is that of the two values.
  have gap := signedUnits_lt less
  have unit : (0 : Int) < (2 ^ (exponent + 1074).toNat : Nat) := by positivity
  apply pos_of_mul_pos_left _ unit.le
  rw [Int.sub_mul, apply_sign_mul, apply_sign_mul, aligned_mul least (by omega),
    aligned_mul least (by omega)]
  exact Int.sub_pos.mpr gap

/-- A finite number leaves something above zero when a lesser one is taken from it. -/
theorem zero_lt_sub (finite : x.isFinite = true) (finite' : y.isFinite = true) (less : x < y) :
    0 < y - x := by
  obtain ⟨number, number', order⟩ := less
  rw [sub_eq number' number, form_eq finite, form_eq finite']
  apply zero_lt_ofForm
  rcases Nat.eq_zero_or_pos x.magnitude with zero | positive
  · rw [key_of_magnitude_eq_zero zero] at order
    obtain ⟨above, positive⟩ := of_key_pos order
    rw [zero, formOf_zero, formOf_of_pos _ positive, above]
    exact ⟨parts_lt _, le_parts _⟩
  rcases Nat.eq_zero_or_pos y.magnitude with zero | positive'
  · rw [key_of_magnitude_eq_zero zero] at order
    rw [zero, formOf_zero, formOf_of_pos _ positive, (of_key_neg order).1]
    exact ⟨parts_lt _, le_parts _⟩
  · exact held_sub_formOf order positive positive'

/-- A finite number leaves a zero when an equal one is taken from it. -/
theorem magnitude_sub_of_key_eq (finite : x.isFinite = true) (finite' : y.isFinite = true)
    (same : x.key = y.key) : (x - y).magnitude = 0 := by
  rw [sub_eq (isNaN_eq_false_of_isFinite finite) (isNaN_eq_false_of_isFinite finite')]
  rcases eq_or_of_key_eq same with rfl | ⟨zero, zero'⟩
  · rw [form_eq finite]
    rcases Nat.eq_zero_or_pos x.magnitude with zero | positive
    · rw [zero, formOf_zero]
      cases x.negative <;> exact magnitude_ofForm_zero _
    · rw [formOf_of_pos _ positive]
      simp only [UnpackedFloat.sub, Int.sub_self, UnpackedFloat.normalize]
      exact magnitude_ofForm_zero _
  · rw [form_of_magnitude_eq_zero zero, form_of_magnitude_eq_zero zero']
    cases x.negative <;> cases y.negative <;> exact magnitude_ofForm_zero _

end SceneBaker.Number.Double
