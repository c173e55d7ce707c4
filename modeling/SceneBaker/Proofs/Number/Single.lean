import SceneBaker.Number.Single
import SceneBaker.Proofs.Number.Value

/-! # Singles as numbers

A finite single stands for a rational number. Comparison of finite singles is comparison of these
numbers, both zeros being zero, and a single is whole if its number is an integer.
-/

namespace SceneBaker.Number

namespace Layout

variable {layout : Layout}

/-- The number that a signed magnitude stands for. -/
def signedValue (layout : Layout) : Int → ℚ
  | .ofNat magnitude => layout.value magnitude
  | .negSucc less => -layout.value (less + 1)

theorem signedValue_neg (magnitude : Nat) :
    layout.signedValue (-magnitude) = -layout.value magnitude := by
  cases magnitude with
  | zero => simp [signedValue, value_zero]
  | succ less => rfl

theorem signedValue_le_iff {first second : Int} :
    layout.signedValue first ≤ layout.signedValue second ↔ first ≤ second := by
  have ascending : StrictMono layout.signedValue := by
    refine strictMono_int_of_lt_succ fun key => ?_
    cases key with
    | ofNat magnitude => exact value_strictMono magnitude.lt_succ_self
    | negSucc less =>
      have next : Int.negSucc less + 1 = -(less : Int) := by omega
      rw [next, signedValue_neg]
      exact neg_lt_neg (value_strictMono less.lt_succ_self)
  exact ascending.le_iff_le

end Layout

namespace Single

variable {x y : Single}

/-- Without its sign bit a number is its magnitude. -/
private theorem toNat_unsigned (x : Single) : (x.bits &&& 0x7fffffff).toNat = x.magnitude := by
  rw [UInt32.toNat_and]
  exact Nat.and_two_pow_sub_one_eq_mod x.bits.toNat 31

theorem isFinite_iff : x.isFinite = true ↔ x.magnitude < Layout.single.infinity := by
  simp only [isFinite, decide_eq_true_eq, UInt32.lt_iff_toNat_lt, toNat_unsigned]
  rfl

theorem isNaN_iff : x.isNaN = true ↔ Layout.single.infinity < x.magnitude := by
  simp only [isNaN, decide_eq_true_eq, UInt32.lt_iff_toNat_lt, toNat_unsigned]
  rfl

theorem isNaN_eq_false_of_isFinite (finite : x.isFinite = true) : x.isNaN = false := by
  rw [Bool.eq_false_iff, ne_eq, isNaN_iff, not_lt]
  exact (isFinite_iff.mp finite).le

theorem magnitude_ofMagnitude {magnitude : Nat} (small : magnitude < Layout.single.signBit) :
    (ofMagnitude false magnitude).magnitude = magnitude := by
  have width : Layout.single.signBit = 2 ^ 31 := rfl
  simp only [Single.magnitude, ofMagnitude, Bool.false_eq_true, if_false, UInt32.toNat_ofNat']
  rw [width] at small ⊢
  omega

theorem negative_ofMagnitude {magnitude : Nat} (small : magnitude < Layout.single.signBit) :
    (ofMagnitude false magnitude).negative = false := by
  have width : Layout.single.signBit = 2 ^ 31 := rfl
  simp only [negative, ofMagnitude, Bool.false_eq_true, if_false, UInt32.toNat_ofNat',
    decide_eq_false_iff_not]
  omega

theorem le_iff_key (finite : x.isFinite = true) (finite' : y.isFinite = true) :
    x ≤ y ↔ x.key ≤ y.key :=
  ⟨fun order => order.2.2, fun order =>
    ⟨isNaN_eq_false_of_isFinite finite, isNaN_eq_false_of_isFinite finite', order⟩⟩

theorem le_iff_of_not_negative (finite : x.isFinite = true) (finite' : y.isFinite = true)
    (plus : x.negative = false) (plus' : y.negative = false) :
    x ≤ y ↔ x.magnitude ≤ y.magnitude := by
  rw [le_iff_key finite finite', key, key, plus, plus']
  exact Int.ofNat_le

/-! ## Values -/

/-- The number that a finite single stands for. -/
def value (x : Single) : ℚ :=
  if x.negative then -Layout.single.value x.magnitude else Layout.single.value x.magnitude

theorem value_eq (x : Single) : x.value = Layout.single.signedValue x.key := by
  rw [value, key]
  split
  case isTrue => exact (Layout.signedValue_neg _).symm
  case isFalse => rfl

theorem le_iff_value (finite : x.isFinite = true) (finite' : y.isFinite = true) :
    x ≤ y ↔ x.value ≤ y.value := by
  rw [le_iff_key finite finite', value_eq, value_eq, Layout.signedValue_le_iff]

theorem isWhole_iff : x.isWhole = true ↔ x.isFinite = true ∧ ∃ whole : Int, x.value = whole := by
  rw [isWhole, Bool.and_eq_true, Layout.isWhole_iff]
  refine and_congr_right fun _ => ?_
  rw [value]
  constructor
  · intro whole
    rw [whole]
    split
    case isTrue => exact ⟨-(Layout.single.integerPart x.magnitude : Nat), by push_cast; rfl⟩
    case isFalse => exact ⟨(Layout.single.integerPart x.magnitude : Nat), by push_cast; rfl⟩
  · rintro ⟨whole, same⟩
    have natural : Layout.single.value x.magnitude = (whole.natAbs : Nat) := by
      rw [Nat.cast_natAbs, Int.cast_abs, ← same]
      split
      case isTrue => rw [abs_neg, abs_of_nonneg (Layout.value_nonneg _)]
      case isFalse => rw [abs_of_nonneg (Layout.value_nonneg _)]
    rw [← Layout.floor_value, natural, Nat.floor_natCast]

/-- A whole number that is not below zero is its own integer part, up to the largest of 32 bits. -/
theorem toNat_toUInt32 (whole : x.isWhole = true) (lower : 0 ≤ x.value) :
    (x.toUInt32.toNat : ℚ) = min x.value 0xffffffff := by
  rw [isWhole, Bool.and_eq_true, Layout.isWhole_iff] at whole
  obtain ⟨finite, natural⟩ := whole
  have number := isNaN_eq_false_of_isFinite finite
  rw [value] at lower ⊢
  rw [toUInt32, number, Bool.false_or, if_pos finite]
  split_ifs at lower ⊢ with minus
  · have zero : Layout.single.value x.magnitude = 0 :=
      le_antisymm (neg_nonneg.mp lower) (Layout.value_nonneg _)
    rw [zero]
    norm_num
  · have room : min (Layout.single.integerPart x.magnitude) 0xffffffff < 2 ^ 32 := by omega
    rw [UInt32.toNat_ofNat_of_lt' room, natural]
    push_cast
    rfl

end Single

end SceneBaker.Number
