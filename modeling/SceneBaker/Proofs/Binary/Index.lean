import SceneBaker.Binary.Reader
import SceneBaker.Proofs.Number.Rounding
import SceneBaker.Proofs.Number.Single

/-! # Indices stored as numbers

An index is stored as the nearest single. What is stored can always be read. The index comes back if
it has at most 24 significant bits, or if it was itself read from a number, so a file that was
accepted can be written again. The numbers that are read as indices are the whole ones from zero to
2³².
-/

namespace SceneBaker.Binary

open Number

/-- An index that is read back from the number that stands for it. -/
def Storable (index : UInt32) : Prop :=
  ∀ table, indexOf table (Single.ofNat index.toNat) = .ok index

private theorem log2_toNat_lt (index : UInt32) : index.toNat.log2 < 32 := by
  by_cases zero : index.toNat = 0
  · simp [zero]
  · exact (Nat.log2_lt zero).mpr index.toNat_lt

private theorem storedMagnitude_le {index : UInt32} (exact : Layout.single.Exact index.toNat) :
    Layout.single.ofScaled index.toNat 0 ≤ 0x4f800000 := by
  rcases Nat.eq_zero_or_pos index.toNat with zero | positive
  · simp [zero, Layout.ofScaled, Layout.ofRatio]
  · have log := log2_toNat_lt index
    have reach : Layout.single.Reaches index.toNat := by
      change _ < 128
      omega
    have bounds := Layout.significand_bounds positive exact
    rw [Layout.ofScaled_zero_of_exact positive exact reach]
    change (index.toNat.log2 + 128 - 2) * 2 ^ 23 + _ ≤ _
    change _ ∧ Layout.single.significand index.toNat < 2 ^ 24 at bounds
    omega

/-- An index with at most 24 significant bits is stored as itself. -/
theorem storable_of_exact {index : UInt32} (exact : Layout.single.Exact index.toNat) :
    Storable index := by
  intro table
  have bound := storedMagnitude_le exact
  have reach : Layout.single.Reaches index.toNat := by
    have log := log2_toNat_lt index
    change _ < 128
    omega
  have room : Layout.single.ofScaled index.toNat 0 < Layout.single.signBit :=
    lt_of_le_of_lt bound (by decide)
  have magnitude : (Single.ofNat index.toNat).magnitude = _ := Single.magnitude_ofMagnitude room
  have plus : (Single.ofNat index.toNat).negative = false := Single.negative_ofMagnitude room
  have finite : (Single.ofNat index.toNat).isFinite = true := by
    rw [Single.isFinite_iff, magnitude]
    exact lt_of_le_of_lt bound (by decide)
  have whole : (Single.ofNat index.toNat).isWhole = true := by
    rw [Single.isWhole, finite, magnitude, Layout.isWhole_ofScaled_zero exact reach, Bool.and_self]
  have lower : (0 : Single) ≤ Single.ofNat index.toNat := by
    rw [Single.le_iff_of_not_negative (by decide) finite (by decide) plus]
    exact Nat.zero_le _
  have upper : Single.ofNat index.toNat ≤ Single.ofNat 0xffffffff := by
    rw [Single.le_iff_of_not_negative finite (by decide +kernel) plus (by decide +kernel), magnitude]
    exact bound.trans (by decide +kernel)
  have value : (Single.ofNat index.toNat).toUInt32 = index := by
    have top : index.toNat ≤ 0xffffffff := Nat.lt_succ_iff.mp index.toNat_lt
    simp [Single.toUInt32, Single.isNaN_eq_false_of_isFinite finite, plus, finite, magnitude,
      Layout.integerPart_ofScaled_zero exact reach, Nat.min_eq_left top]
  simp [indexOf, whole, lower, upper, value]

theorem storable_of_le {index : UInt32} (small : index.toNat ≤ 2 ^ 24) : Storable index := by
  apply storable_of_exact
  rcases lt_or_eq_of_le small with below | top
  · exact Layout.exact_of_lt below
  · rw [top, ← Nat.one_mul (2 ^ 24)]
    exact Layout.exact_scaled (by decide)

/-- The largest index stands for 2³² and is read back from it. -/
private theorem storable_top : Storable 0xffffffff := by
  intro table
  cases table <;> decide +kernel

private theorem exact_toUInt32 {value : Single} (below : value.toUInt32 ≠ 0xffffffff) :
    Layout.single.Exact value.toUInt32.toNat := by
  revert below
  rw [Single.toUInt32]
  split_ifs with none finite <;> intro below
  · exact Layout.exact_of_lt (n := 0) (by decide)
  · rcases le_total (Layout.single.integerPart value.magnitude) 0xffffffff with fits | beyond
    · rw [Nat.min_eq_left fits, UInt32.toNat_ofNat_of_lt' (by change _ < 2 ^ 32; omega)]
      exact Layout.exact_integerPart _
    · rw [Nat.min_eq_right beyond] at below
      exact (below rfl).elim
  · exact (below rfl).elim

/-- Whatever number an index was read from, the number it is stored as gives it again. -/
theorem storable_of_indexOf {table : Table} {value : Single} {index : UInt32}
    (accepted : indexOf table value = .ok index) : Storable index := by
  simp only [indexOf] at accepted
  split at accepted
  case isFalse => cases accepted
  case isTrue =>
    obtain rfl : value.toUInt32 = index := Except.ok.inj accepted
    by_cases top : value.toUInt32 = 0xffffffff
    · rw [top]
      exact storable_top
    · exact storable_of_exact (exact_toUInt32 top)

/-! ## Every index -/

/-- Rounding stores every index as one that is read back. -/
theorem exists_storable (index : UInt32) : ∃ stored : UInt32,
    Single.ofNat index.toNat = Single.ofNat stored.toNat ∧ Storable stored := by
  have log := log2_toNat_lt index
  have reach : Layout.single.Reaches (2 * index.toNat) := by
    have double : (2 * index.toNat).log2 < 34 := by
      by_cases zero : 2 * index.toNat = 0
      · simp [zero]
      · exact (Nat.log2_lt zero).mpr (by have := index.toNat_lt; omega)
    change _ < 128
    omega
  obtain ⟨rounded, exact, small, same⟩ := Layout.exists_exact_of_reaches reach
  have bound : rounded ≤ 2 ^ 32 := small.trans (Nat.pow_le_pow_right two_pos log)
  rcases Nat.lt_or_eq_of_le bound with below | top
  · have size : (UInt32.ofNat rounded).toNat = rounded := UInt32.toNat_ofNat_of_lt' below
    refine ⟨UInt32.ofNat rounded, ?_, storable_of_exact (by rwa [size])⟩
    rw [size, Single.ofNat, Single.ofNat, same]
  · have highest : Layout.single.ofScaled (2 ^ 32) 0 =
        Layout.single.ofScaled (0xffffffff : UInt32).toNat 0 := by decide +kernel
    refine ⟨0xffffffff, ?_, storable_top⟩
    rw [Single.ofNat, Single.ofNat, same, top, highest]

/-! ## Numbers that stand for no index -/

/-- A number that is refused as an index. -/
inductive Refused (x : Single) : Prop
  | notANumber (none : x.isNaN = true)
  | infinite (top : x.magnitude = Layout.single.infinity)
  | fractional (finite : x.isFinite = true) (broken : ∀ whole : Int, x.value ≠ whole)
  | negative (finite : x.isFinite = true) (below : x.value < 0)
  | large (finite : x.isFinite = true) (above : 2 ^ 32 < x.value)

private theorem value_zero : (0 : Single).value = 0 := Layout.value_zero

/-- The largest index is rounded up. -/
private theorem value_top : (Single.ofNat 0xffffffff).value = 2 ^ 32 := by
  have plus : (Single.ofNat 0xffffffff).negative = false := by decide +kernel
  have parts : Layout.single.parts (Single.ofNat 0xffffffff).magnitude = (2 ^ 23, 9) := by
    decide +kernel
  rw [Single.value, plus, Layout.value, parts]
  norm_num

/-- The check on a stored number is that it is whole and in range. -/
private theorem fits_iff {x : Single} :
    (x.isWhole && 0 ≤ x && x ≤ Single.ofNat 0xffffffff) = true ↔ ¬Refused x := by
  rw [Bool.and_eq_true, Bool.and_eq_true, decide_eq_true_eq, decide_eq_true_eq, Single.isWhole_iff]
  have lower (finite : x.isFinite = true) : 0 ≤ x ↔ 0 ≤ x.value := by
    rw [Single.le_iff_value (by decide) finite, value_zero]
  have upper (finite : x.isFinite = true) : x ≤ Single.ofNat 0xffffffff ↔ x.value ≤ 2 ^ 32 := by
    rw [Single.le_iff_value finite (by decide +kernel), value_top]
  constructor
  · rintro ⟨⟨⟨finite, whole, same⟩, bottom⟩, top⟩ refused
    cases refused with
    | notANumber none => simp [Single.isNaN_eq_false_of_isFinite finite] at none
    | infinite infinite => exact (Single.isFinite_iff.mp finite).ne infinite
    | fractional _ broken => exact broken whole same
    | negative _ below => exact not_lt.mpr ((lower finite).mp bottom) below
    | large _ above => exact not_lt.mpr ((upper finite).mp top) above
  · intro accepted
    have finite : x.isFinite = true := by
      rw [Single.isFinite_iff]
      rcases lt_trichotomy x.magnitude Layout.single.infinity with finite | infinite | none
      · exact finite
      · exact absurd (.infinite infinite) accepted
      · exact absurd (.notANumber (Single.isNaN_iff.mpr none)) accepted
    refine ⟨⟨⟨finite, ?_⟩, (lower finite).mpr ?_⟩, (upper finite).mpr ?_⟩
    · by_contra broken
      exact accepted (.fractional finite (not_exists.mp broken))
    · exact not_lt.mp fun below => accepted (.negative finite below)
    · exact not_lt.mp fun above => accepted (.large finite above)

/-- How indices are stored as numbers and read back. -/
structure Coded (table : Table) : Prop where
  readable : ∀ index : UInt32, ∃ read, indexOf table (Single.ofNat index.toNat) = .ok read
  faithful : ∀ index : UInt32, index.toNat ≤ 2 ^ 24 →
    indexOf table (Single.ofNat index.toNat) = .ok index
  stable : ∀ x index, indexOf table x = .ok index →
    indexOf table (Single.ofNat index.toNat) = .ok index
  refused : ∀ x, indexOf table x = .error (.malformedIndex table x) ↔ Refused x
  accepted : ∀ x, ¬Refused x → ∃ index, indexOf table x = .ok index ∧
    (index.toNat : ℚ) = min x.value 0xffffffff
  zeros : indexOf table 0 = .ok 0 ∧ indexOf table (-0) = .ok 0

/-- Every index can be stored and read, what was read is read again, and nothing but a whole number
from zero to 2³² is read. -/
theorem coded_indexOf (table : Table) : Coded table := by
  constructor
  case readable =>
    intro index
    obtain ⟨stored, same, storable⟩ := exists_storable index
    exact ⟨stored, same ▸ storable table⟩
  case faithful => exact fun index small => storable_of_le small table
  case stable => exact fun x index accepted => storable_of_indexOf accepted table
  case refused =>
    intro x
    rw [← not_iff_not, ← fits_iff, indexOf]
    split
    case isTrue fits => exact iff_of_true nofun fits
    case isFalse broken => exact iff_of_false (fun accepted => accepted rfl) broken
  case accepted =>
    intro x accepted
    have fits := fits_iff.mpr accepted
    have whole : x.isWhole = true := by
      rw [Bool.and_eq_true, Bool.and_eq_true] at fits
      exact fits.1.1
    have lower : 0 ≤ x.value := not_lt.mp fun below =>
      accepted (.negative (Single.isWhole_iff.mp whole).1 below)
    exact ⟨x.toUInt32, by rw [indexOf, if_pos fits], Single.toNat_toUInt32 whole lower⟩
  case zeros => cases table <;> decide +kernel

end SceneBaker.Binary
