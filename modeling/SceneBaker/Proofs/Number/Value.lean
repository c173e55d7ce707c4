import SceneBaker.Proofs.Number.Whole
import Mathlib.Algebra.Order.Field.Rat
import Mathlib.Algebra.Order.Floor.Semifield
import Mathlib.Data.Rat.Floor
import Mathlib.Tactic.Positivity

/-! # The value of a number

A finite magnitude stands for a rational number, and a greater one for a greater number. The integer
part of a double is the floor of its number, and comparison with one is comparison of numbers.
-/

namespace SceneBaker.Number

namespace Layout

variable {layout : Layout}

/-- The number that a finite magnitude stands for. -/
def value (layout : Layout) (magnitude : Nat) : ℚ :=
  (layout.parts magnitude).1 * 2 ^ (layout.parts magnitude).2

theorem value_nonneg (magnitude : Nat) : 0 ≤ layout.value magnitude := by
  exact mul_nonneg (Nat.cast_nonneg _) (zpow_nonneg zero_le_two _)

/-- The value is a quotient in which the numerator or the denominator is scaled, but not both. -/
theorem value_eq_div (magnitude : Nat) : layout.value magnitude =
    (((layout.parts magnitude).1 * 2 ^ (layout.parts magnitude).2.toNat : Nat) : ℚ) /
      (2 ^ (-(layout.parts magnitude).2).toNat : Nat) := by
  rw [value]
  generalize layout.parts magnitude = entry
  obtain ⟨significand, exponent⟩ := entry
  have split : (2 : ℚ) ^ exponent = 2 ^ exponent.toNat / 2 ^ (-exponent).toNat := by
    rw [← zpow_natCast, ← zpow_natCast, ← zpow_sub₀ two_ne_zero]
    congr 1
    omega
  dsimp only
  rw [split]
  push_cast
  ring

theorem floor_value (magnitude : Nat) :
    ⌊layout.value magnitude⌋₊ = layout.integerPart magnitude := by
  rw [value_eq_div, Nat.floor_div_eq_div, integerPart]

/-- A magnitude without a fractional part stands for its integer part. -/
theorem isWhole_iff {magnitude : Nat} :
    layout.isWhole magnitude = true ↔ layout.value magnitude = layout.integerPart magnitude := by
  rw [value_eq_div, isWhole, integerPart, beq_iff_eq]
  generalize layout.parts magnitude = entry
  obtain ⟨significand, exponent⟩ := entry
  dsimp only
  have unit : ((2 ^ (-exponent).toNat : Nat) : ℚ) ≠ 0 := by positivity
  rw [div_eq_iff unit, ← Nat.cast_mul, Nat.cast_inj, eq_comm (a := _ * 2 ^ exponent.toNat),
    ← Nat.dvd_iff_div_mul_eq, ← Nat.dvd_iff_mod_eq_zero]
  rcases le_total 0 exponent with up | down
  · have none : (-exponent).toNat = 0 := by omega
    simp [none]
  · have none : exponent.toNat = 0 := by omega
    rw [none, pow_zero, mul_one]

theorem value_zero : layout.value 0 = 0 := by
  simp [value, parts]

theorem parts_of_fields {fraction : Nat} (fits : fraction < 2 ^ layout.fractionBits) (biased : Nat) :
    layout.parts (fraction + biased * 2 ^ layout.fractionBits) =
      if biased = 0 then (fraction, layout.minExponent)
      else (fraction + 2 ^ layout.fractionBits, layout.minExponent + (biased - 1 : Nat)) := by
  have unit : 0 < 2 ^ layout.fractionBits := by positivity
  rw [parts, Nat.add_mul_div_right _ _ unit, Nat.add_mul_mod_self_right, Nat.div_eq_of_lt fits,
    Nat.mod_eq_of_lt fits, Nat.zero_add]

/-- From one magnitude to the next the value grows by the weight of the last bit, also where the
exponent changes. -/
theorem value_succ (magnitude : Nat) :
    layout.value (magnitude + 1) = layout.value magnitude + 2 ^ (layout.parts magnitude).2 := by
  have unit : 0 < 2 ^ layout.fractionBits := by positivity
  have fields := Nat.mod_add_div' magnitude (2 ^ layout.fractionBits)
  have fits := Nat.mod_lt magnitude unit
  generalize magnitude % 2 ^ layout.fractionBits = fraction at *
  generalize magnitude / 2 ^ layout.fractionBits = biased at *
  subst fields
  rw [value, value, parts_of_fields fits]
  rcases Nat.lt_or_eq_of_le (Nat.add_one_le_iff.mpr fits) with within | carried
  · rw [Nat.add_right_comm, parts_of_fields within]
    split_ifs
    all_goals push_cast; ring
  · have carry : fraction + biased * 2 ^ layout.fractionBits + 1 =
        0 + (biased + 1) * 2 ^ layout.fractionBits := by
      rw [Nat.zero_add, Nat.succ_mul, Nat.add_right_comm, carried, Nat.add_comm]
    have top : (fraction : ℚ) + 1 = 2 ^ layout.fractionBits := by exact_mod_cast carried
    rw [carry, parts_of_fields unit, if_neg (Nat.succ_ne_zero _), Nat.zero_add, Nat.add_sub_cancel]
    push_cast
    rw [← top]
    split_ifs with subnormal
    · rw [subnormal, Nat.cast_zero, add_zero]
      ring
    · obtain ⟨less, rfl⟩ := Nat.exists_eq_succ_of_ne_zero subnormal
      have double : (2 : ℚ) ^ (layout.minExponent + (less + 1 : Nat)) =
          2 * 2 ^ (layout.minExponent + (less : Nat)) := by
        rw [Nat.cast_succ, ← add_assoc, zpow_add_one₀ two_ne_zero, mul_comm]
      rw [double]
      push_cast
      rw [← top]
      ring

theorem value_strictMono : StrictMono layout.value := by
  refine strictMono_nat_of_lt_succ fun magnitude => ?_
  rw [value_succ]
  exact lt_add_of_pos_right _ (zpow_pos two_pos _)

end Layout

namespace Double

variable {x : Double}

/-- The number that a finite double stands for. -/
def value (x : Double) : ℚ :=
  if x.negative then -Layout.double.value x.magnitude else Layout.double.value x.magnitude

/-- Below the bits of one all bits of the significand lie behind the point; from there on the leading
one lies before it. -/
private theorem parts_double (magnitude : Nat) :
    if magnitude < 0x3ff0000000000000 then
      (Layout.double.parts magnitude).1 < 2 ^ 53 ∧ (Layout.double.parts magnitude).2 ≤ -53
    else 2 ^ 52 ≤ (Layout.double.parts magnitude).1 ∧ -52 ≤ (Layout.double.parts magnitude).2 := by
  have least : Layout.double.minExponent = -1074 := by decide
  have fraction : magnitude % 2 ^ 52 < 2 ^ 52 := Nat.mod_lt _ (by decide)
  rw [Layout.parts, least, Layout.double]
  dsimp only
  split_ifs
  all_goals dsimp only; omega

/-- The bits of one are the least whose value has an integer part. -/
private theorem one_le_integerPart {magnitude : Nat} :
    1 ≤ Layout.double.integerPart magnitude ↔ 0x3ff0000000000000 ≤ magnitude := by
  have place := parts_double magnitude
  rw [Layout.integerPart]
  generalize Layout.double.parts magnitude = entry at *
  obtain ⟨significand, exponent⟩ := entry
  split_ifs at place with low
  · obtain ⟨fits, far⟩ := place
    have up : exponent.toNat = 0 := by omega
    have none : significand / 2 ^ (-exponent).toNat = 0 := by
      apply Nat.div_eq_of_lt
      exact fits.trans_le (Nat.pow_le_pow_right two_pos (by omega))
    dsimp only
    rw [up, pow_zero, mul_one, none]
    exact iff_of_false (by decide) (by omega)
  · obtain ⟨leading, near⟩ := place
    refine iff_of_true ((Nat.one_le_div_iff (by positivity)).mpr ?_) (by omega)
    calc 2 ^ (-exponent).toNat ≤ 2 ^ 52 := Nat.pow_le_pow_right two_pos (by omega)
      _ ≤ significand := leading
      _ ≤ significand * 2 ^ exponent.toNat := Nat.le_mul_of_pos_right _ (by positivity)

theorem one_le_iff (finite : x.isFinite = true) : 1 ≤ x ↔ 1 ≤ x.value := by
  have key : (1 : Double).key = 0x3ff0000000000000 := by decide
  have number : (1 : Double).isNaN = false := by decide
  have order : 1 ≤ x ↔ (0x3ff0000000000000 : Int) ≤ x.key := by
    change _ ∧ _ ∧ _ ↔ _
    rw [number, isNaN_eq_false_of_isFinite finite, key]
    simp
  rw [order, Double.key, value]
  split
  case isTrue =>
    have positive : 0 ≤ Layout.double.value x.magnitude := Layout.value_nonneg _
    refine iff_of_false (by omega) (not_le.mpr ?_)
    exact (neg_nonpos.mpr positive).trans_lt one_pos
  case isFalse =>
    rw [← Nat.one_le_floor_iff, Layout.floor_value, one_le_integerPart]
    omega

theorem toNatClamped_eq (finite : x.isFinite = true) (limit : Nat) :
    x.toNatClamped limit = min ⌊x.value⌋₊ limit := by
  rw [toNatClamped, isNaN_eq_false_of_isFinite finite, Bool.false_or, if_pos finite, value]
  split
  case isTrue negative =>
    have below : -Layout.double.value x.magnitude ≤ 0 := neg_nonpos.mpr (Layout.value_nonneg _)
    rw [Nat.floor_of_nonpos below, Nat.zero_min]
  case isFalse => rw [Layout.floor_value]

end Double

end SceneBaker.Number
