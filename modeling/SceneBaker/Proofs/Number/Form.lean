import Mathlib
import SceneBaker.Proofs.Number.Whole

/-! # Doubles taken apart

Arithmetic takes a double apart into a sign, a significand and a power of two, works on these and
puts the result together again. A finite double is taken apart into the parts of its magnitude, and
a number that is put together again is the same number.
-/

namespace SceneBaker.Number.Double

open Float.Model Float.Model.UnpackedFloat

variable {x y : Double}

/-! ## Parts of a magnitude -/

/-- Below the least normal magnitude the bits are the significand. -/
theorem parts_of_lt {magnitude : Nat} (subnormal : magnitude < 2 ^ 52) :
    Layout.double.parts magnitude = (magnitude, -1074) := by
  have least : Layout.double.minExponent = -1074 := by decide
  rw [Layout.parts, least, Layout.double]
  dsimp only
  rw [if_pos (Nat.div_eq_of_lt subnormal), Nat.mod_eq_of_lt subnormal]

/-- From the least normal magnitude on the significand has a leading bit that is not stored. -/
theorem parts_of_le {magnitude : Nat} (normal : 2 ^ 52 ≤ magnitude) :
    Layout.double.parts magnitude =
      (magnitude % 2 ^ 52 + 2 ^ 52, ((magnitude / 2 ^ 52 : Nat) : Int) - 1075) := by
  have least : Layout.double.minExponent = -1074 := by decide
  have biased : 0 < magnitude / 2 ^ 52 := Nat.div_pos normal (by decide)
  rw [Layout.parts, least, Layout.double]
  dsimp only
  rw [if_neg biased.ne']
  congr 1
  omega

theorem parts_pos {magnitude : Nat} (positive : 0 < magnitude) :
    0 < (Layout.double.parts magnitude).1 := by
  rcases Nat.lt_or_ge magnitude (2 ^ 52) with subnormal | normal
  · rwa [parts_of_lt subnormal]
  · rw [parts_of_le normal]
    exact Nat.add_pos_right _ (by decide)

theorem parts_lt (magnitude : Nat) : (Layout.double.parts magnitude).1 < 2 ^ 53 := by
  rcases Nat.lt_or_ge magnitude (2 ^ 52) with subnormal | normal
  · rw [parts_of_lt subnormal]
    change magnitude < 2 ^ 53
    omega
  · rw [parts_of_le normal]
    change magnitude % 2 ^ 52 + 2 ^ 52 < 2 ^ 53
    omega

theorem le_parts (magnitude : Nat) : -1074 ≤ (Layout.double.parts magnitude).2 := by
  rcases Nat.lt_or_ge magnitude (2 ^ 52) with subnormal | normal
  · rw [parts_of_lt subnormal]
  · have biased : 0 < magnitude / 2 ^ 52 := Nat.div_pos normal (by decide)
    rw [parts_of_le normal]
    change -1074 ≤ ((magnitude / 2 ^ 52 : Nat) : Int) - 1075
    omega

/-- The leading bit of a normal significand. -/
theorem log2_normal (magnitude : Nat) : (magnitude % 2 ^ 52 + 2 ^ 52).log2 = 52 :=
  (Nat.log2_eq_iff (by omega)).mpr ⟨by omega, by omega⟩

theorem ofMagnitude_magnitude (x : Double) : ofMagnitude x.negative x.magnitude = x := by
  have width := x.bits.toNat_lt
  have limit : Layout.double.signBit = 2 ^ 63 := rfl
  rw [ofMagnitude, magnitude, negative, limit]
  congr 1
  apply UInt64.toNat_inj.mp
  rw [UInt64.toNat_ofNat']
  split
  case isTrue high => simp at high; omega
  case isFalse low => simp at low; omega

/-! ## Fields -/

/-- The sign as arithmetic has it. -/
def sign (negative : Bool) : Sign := if negative then .negative else .positive

theorem toNat_packComponents (exponent : BitVec 11) (fraction : BitVec 52) :
    (packComponents .binary64 .positive exponent fraction).toNat =
      exponent.toNat * 2 ^ 52 + fraction.toNat := by
  have top : Sign.positive.toBitVec.toNat = 0 := rfl
  rw [packComponents, BitVec.toNat_append, BitVec.toNat_append, top,
    ← Nat.shiftLeft_add_eq_or_of_lt exponent.isLt, ← Nat.shiftLeft_add_eq_or_of_lt fraction.isLt,
    Nat.shiftLeft_eq]
  simp

private theorem toNat_unpackMantissa (x : Double) :
    (@unpackMantissa .binary64 x.bits.toBitVec).toNat = x.magnitude % 2 ^ 52 := by
  have width : x.magnitude = x.bits.toBitVec.toNat % 2 ^ 63 := rfl
  have field : (@unpackMantissa .binary64 x.bits.toBitVec).toNat =
      x.bits.toBitVec.toNat % 2 ^ 52 := by simp [unpackMantissa]
  omega

private theorem toNat_unpackExponent (x : Double) :
    (@unpackExponent .binary64 x.bits.toBitVec).toNat = x.magnitude / 2 ^ 52 := by
  have width : x.magnitude = x.bits.toBitVec.toNat % 2 ^ 63 := rfl
  have field : (@unpackExponent .binary64 x.bits.toBitVec).toNat =
      x.bits.toBitVec.toNat / 2 ^ 52 % 2 ^ 11 := by
    simp [unpackExponent, Nat.shiftRight_eq_div_pow]
  omega

private theorem unpackMantissa_eq_iff {field : BitVec 52} :
    @unpackMantissa .binary64 x.bits.toBitVec = field ↔ x.magnitude % 2 ^ 52 = field.toNat := by
  rw [← BitVec.toNat_inj, toNat_unpackMantissa]

private theorem unpackExponent_eq_iff {field : BitVec 11} :
    @unpackExponent .binary64 x.bits.toBitVec = field ↔ x.magnitude / 2 ^ 52 = field.toNat := by
  rw [← BitVec.toNat_inj, toNat_unpackExponent]

private theorem toNat_unpackSign (bits : BitVec 64) :
    (@unpackSign .binary64 bits).toNat = bits.toNat / 2 ^ 63 := by
  have width := bits.isLt
  simp [unpackSign, Nat.shiftRight_eq_div_pow]
  omega

private theorem ofBitVec_unpackSign (x : Double) :
    Sign.ofBitVec (@unpackSign .binary64 x.bits.toBitVec) = sign x.negative := by
  have top := toNat_unpackSign x.bits.toBitVec
  have width := x.bits.toBitVec.isLt
  have bits : x.bits.toBitVec.toNat = x.bits.toNat := rfl
  have limit : Layout.double.signBit = 2 ^ 63 := rfl
  simp only [Sign.ofBitVec, sign, negative, ← BitVec.toNat_inj, top, bits, limit, decide_eq_true_eq]
  split
  case isTrue positive => rw [if_neg (by simpa using positive)]
  case isFalse negative => rw [if_pos (by simp at negative; omega)]

/-! ## Taking apart -/

/-- A finite magnitude with its sign, taken apart. -/
def formOf (negative : Bool) (magnitude : Nat) : UnpackedFloat :=
  if positive : 0 < (Layout.double.parts magnitude).1 then
    .finite (sign negative) (Layout.double.parts magnitude).1 (Layout.double.parts magnitude).2 positive
  else .zero (sign negative)

/-- A double taken apart. -/
def form (x : Double) : UnpackedFloat := unpack .binary64 x.bits.toBitVec

theorem formOf_zero (negative : Bool) : formOf negative 0 = .zero (sign negative) := rfl

theorem formOf_of_pos (negative : Bool) {magnitude : Nat} (positive : 0 < magnitude) :
    formOf negative magnitude = .finite (sign negative) (Layout.double.parts magnitude).1
      (Layout.double.parts magnitude).2 (parts_pos positive) := dif_pos (parts_pos positive)

private theorem finite_congr {sign : Sign} {significand other : Nat} {exponent power : Int}
    {positive : 0 < significand} {positive' : 0 < other} (same : significand = other)
    (scale : exponent = power) :
    UnpackedFloat.finite sign significand exponent positive = .finite sign other power positive' := by
  subst same scale
  rfl

/-- A finite double is taken apart into the parts of its magnitude. -/
theorem form_eq (finite : x.isFinite = true) : x.form = formOf x.negative x.magnitude := by
  have small : x.magnitude < 0x7ff * 2 ^ 52 := isFinite_iff.mp finite
  have bias : Format.binary64.exponentBias = 1023 := by decide
  have top : ¬@unpackExponent .binary64 x.bits.toBitVec = -1#11 := by
    rw [unpackExponent_eq_iff]
    change ¬_ = 2047
    omega
  rw [form]
  simp only [UnpackedFloat.unpack, ofBitVec_unpackSign, top, if_false]
  rcases Nat.lt_or_ge x.magnitude (2 ^ 52) with subnormal | normal
  · have low : @unpackExponent .binary64 x.bits.toBitVec = 0#11 :=
      unpackExponent_eq_iff.mpr (Nat.div_eq_of_lt subnormal)
    have fraction := toNat_unpackMantissa x
    rw [Nat.mod_eq_of_lt subnormal] at fraction
    simp only [low, if_true]
    rcases Nat.eq_zero_or_pos x.magnitude with zero | positive
    · have none : @unpackMantissa .binary64 x.bits.toBitVec = 0#52 :=
        unpackMantissa_eq_iff.mpr (by rw [zero]; rfl)
      rw [dif_pos none, zero, formOf_zero]
    · have some : ¬@unpackMantissa .binary64 x.bits.toBitVec = 0#52 := by
        rw [← BitVec.toNat_inj, fraction]
        exact positive.ne'
      rw [dif_neg some, formOf_of_pos _ positive]
      refine finite_congr ?_ ?_
      · rw [fraction, parts_of_lt subnormal]
      · rw [parts_of_lt subnormal, bias]
        rfl
  · have high : ¬@unpackExponent .binary64 x.bits.toBitVec = 0#11 :=
      mt unpackExponent_eq_iff.mp (Nat.div_pos normal (by decide)).ne'
    rw [if_neg high, formOf_of_pos _ (Nat.lt_of_lt_of_le (by decide) normal)]
    refine finite_congr ?_ ?_
    · rw [parts_of_le normal, BitVec.toNat_append, ← Nat.shiftLeft_add_eq_or_of_lt (BitVec.isLt _),
        toNat_unpackMantissa]
      exact Nat.add_comm ..
    · rw [parts_of_le normal, toNat_unpackExponent, bias]
      rfl

/-- A number is finite or one of the two infinities. -/
theorem form_cases (number : x.isNaN = false) :
    x.isFinite = true ∧ x.form = formOf x.negative x.magnitude ∨
      x.magnitude = Layout.double.infinity ∧ x.form = .infinity (sign x.negative) := by
  by_cases finite : x.isFinite = true
  · exact .inl ⟨finite, form_eq finite⟩
  · have top := (isNaN_eq_false_iff.mp number).antisymm
      (Nat.not_lt.mp (mt isFinite_iff.mpr finite))
    refine .inr ⟨top, ?_⟩
    rw [← ofMagnitude_magnitude x, top]
    cases x.negative <;> rfl

theorem isFinite_of_magnitude_eq_zero (zero : x.magnitude = 0) : x.isFinite = true := by
  rw [isFinite_iff, zero]
  decide

theorem form_of_magnitude_eq_zero (zero : x.magnitude = 0) : x.form = .zero (sign x.negative) := by
  rw [form_eq (isFinite_of_magnitude_eq_zero zero), zero, formOf_zero]

/-! ## Putting together -/

/-- The double that arithmetic makes of a result. -/
def ofForm (form : UnpackedFloat) : Double :=
  let result : Double := ⟨.ofBitVec (pack .binary64 form)⟩
  if result.isNaN then invalid else result

/-- With all bits of the exponent set, the magnitude of a number is that of an infinity. -/
theorem isNaNBits_eq_false (number : x.isNaN = false) :
    @isNaNBits .binary64 x.bits.toBitVec = false := by
  have bound : x.magnitude ≤ 0x7ff * 2 ^ 52 := isNaN_eq_false_iff.mp number
  refine decide_eq_false fun ⟨full, nonzero⟩ => nonzero (unpackMantissa_eq_iff.mpr ?_)
  have field : x.magnitude / 2 ^ 52 = 2047 := unpackExponent_eq_iff.mp full
  change _ = 0
  omega

theorem pack_form (number : x.isNaN = false) :
    UInt64.ofBitVec (UnpackedFloat.pack .binary64 x.form) = x.bits := by
  rw [form, pack_unpack _ (by decide), if_neg (by simp [isNaNBits_eq_false number])]

/-- A number that is taken apart and put together again is the same number. -/
theorem ofForm_form (number : x.isNaN = false) : ofForm x.form = x := by
  rw [ofForm, pack_form number]
  exact if_neg (by simp [number])

/-! ## Operations -/

private theorem unpack_ofBits (number : x.isNaN = false) :
    (Float.ofBits x.bits).toModel.unpack = x.form := by
  change UnpackedFloat.unpack .binary64
    (UInt64.ofBitVec (UnpackedFloat.pack .binary64 x.form)).toBitVec = _
  rw [pack_form number]
  rfl

/-- An operation on numbers is done on what they are taken apart into. -/
theorem lift₂_eq {operation : Float → Float → Float}
    {exact : UnpackedFloat → UnpackedFloat → UnpackedFloat}
    (does : ∀ a b, operation a b = .ofModel (.pack (exact a.toModel.unpack b.toModel.unpack)))
    (one : x.isNaN = false) (other : y.isNaN = false) :
    lift₂ operation x y = ofForm (exact x.form y.form) := by
  rw [lift₂, if_neg (by simp [one]), if_neg (by simp [other])]
  change (let result : Double := ⟨(operation (Float.ofBits x.bits) (Float.ofBits y.bits)).toBits⟩
    if result.isNaN then invalid else result) = _
  rw [does, unpack_ofBits one, unpack_ofBits other]
  rfl

theorem sub_eq (one : x.isNaN = false) (other : y.isNaN = false) :
    x - y = ofForm (UnpackedFloat.sub .binary64 x.form y.form) :=
  lift₂_eq (fun _ _ => rfl) one other

theorem mul_eq (one : x.isNaN = false) (other : y.isNaN = false) :
    x * y = ofForm (UnpackedFloat.mul .binary64 x.form y.form) :=
  lift₂_eq (fun _ _ => rfl) one other

theorem div_eq (one : x.isNaN = false) (other : y.isNaN = false) :
    x / y = ofForm (UnpackedFloat.div .binary64 x.form y.form) :=
  lift₂_eq (fun _ _ => rfl) one other

end SceneBaker.Number.Double
