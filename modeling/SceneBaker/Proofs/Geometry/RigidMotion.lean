import SceneBaker.Geometry.DualQuat
import SceneBaker.Proofs.Geometry.Reflection
import Mathlib.Algebra.Group.Submonoid.BigOperators
import Mathlib.Algebra.Order.Ring.Rat
import Mathlib.Data.Rat.Sqrt
import Mathlib.Tactic.Ring

/-! # Rigid motions in exact arithmetic

Over a commutative ring quaternions form a semiring and dual quaternions a monoid. A quaternion
rotates a vector by standing on both sides of it, so that products of quaternions rotate one after
the other. Over a field, a translation after a rotation of unit length is a rigid motion; products of
rigid motions are rigid motions, and move points one after the other.
-/

namespace SceneBaker.Geometry

open Number

attribute [ext] DualQuat

section Ring

variable {R : Type} [CommRing R]

namespace Quat

/-! ## The semiring of quaternions -/

theorem mul_eq (a b : Quat R) : a * b =
    ⟨a.w * b.x + a.x * b.w + a.y * b.z - a.z * b.y, a.w * b.y - a.x * b.z + a.y * b.w + a.z * b.x,
      a.w * b.z + a.x * b.y - a.y * b.x + a.z * b.w,
      a.w * b.w - a.x * b.x - a.y * b.y - a.z * b.z⟩ := by
  change product a b = _
  rw [product]
  ext <;> ring

theorem add_eq (a b : Quat R) : a + b = ⟨a.x + b.x, a.y + b.y, a.z + b.z, a.w + b.w⟩ := rfl

theorem zero_eq : (0 : Quat R) = ⟨0, 0, 0, 0⟩ := rfl

theorem one_eq : (1 : Quat R) = ⟨0, 0, 0, 1⟩ := rfl

theorem scale_eq (a : Quat R) (s : R) : a * s = ⟨a.x * s, a.y * s, a.z * s, a.w * s⟩ := rfl

instance : Semiring (Quat R) where
  add_assoc a b c := by
    simp only [add_eq, add_assoc]
  zero_add a := by
    simp only [add_eq, zero_eq, zero_add]
  add_zero a := by
    simp only [add_eq, zero_eq, add_zero]
  add_comm a b := by
    simp only [add_eq, add_comm]
  mul_assoc a b c := by
    simp only [mul_eq]
    ext <;> ring
  one_mul a := by
    simp only [mul_eq, one_eq]
    ext <;> ring
  mul_one a := by
    simp only [mul_eq, one_eq]
    ext <;> ring
  left_distrib a b c := by
    simp only [mul_eq, add_eq]
    ext <;> ring
  right_distrib a b c := by
    simp only [mul_eq, add_eq]
    ext <;> ring
  zero_mul a := by
    simp only [mul_eq, zero_eq]
    ext <;> ring
  mul_zero a := by
    simp only [mul_eq, zero_eq]
    ext <;> ring
  nsmul := nsmulRec

/-! ## Scalars, conjugates and lengths -/

theorem mul_scale (a b : Quat R) (s : R) : a * (b * s) = a * b * s := by
  simp only [mul_eq, scale_eq]
  ext <;> ring

theorem scale_mul (a b : Quat R) (s : R) : a * s * b = a * b * s := by
  simp only [mul_eq, scale_eq]
  ext <;> ring

theorem add_scale (a b : Quat R) (s : R) : (a + b) * s = a * s + b * s := by
  simp only [add_eq, scale_eq, add_mul]

theorem scale_scale (a : Quat R) (s t : R) : a * s * t = a * (s * t) := by
  simp only [scale_eq, mul_assoc]

theorem scale_one (a : Quat R) : a * (1 : R) = a := by
  simp only [scale_eq, mul_one]

theorem conjugate_mul (a b : Quat R) : (a * b).conjugate = b.conjugate * a.conjugate := by
  simp only [conjugate, mul_eq]
  ext <;> ring

theorem mul_conjugate (q : Quat R) : q * q.conjugate = (1 : Quat R) * q.dot q := by
  simp only [conjugate, mul_eq, one_eq, scale_eq, dot]
  ext <;> ring

theorem conjugate_mul_self (q : Quat R) : q.conjugate * q = (1 : Quat R) * q.dot q := by
  simp only [conjugate, mul_eq, one_eq, scale_eq, dot]
  ext <;> ring

theorem dot_one : (1 : Quat R).dot 1 = 1 := by
  simp only [one_eq, dot, mul_zero, mul_one, add_zero, zero_add]

/-- Lengths are multiplied. -/
theorem dot_mul (a b : Quat R) : (a * b).dot (a * b) = a.dot a * b.dot b := by
  simp only [mul_eq, dot]
  ring

theorem unit_mul {a b : Quat R} (first : a.dot a = 1) (second : b.dot b = 1) :
    (a * b).dot (a * b) = 1 := by
  rw [dot_mul, first, second, mul_one]

/-! ## Rotations -/

/-- A quaternion rotates a vector by standing on both sides of it. -/
theorem ofVector_rotate (q : Quat R) (v : Vec3 R) :
    ofVector (q.rotate v) = q * ofVector v * q.conjugate := by
  -- The sums are written out, as vectors have no laws of their own here.
  have rotated : q.rotate v =
      ⟨v.x * (q.w * q.w - q.vector.dot q.vector) + q.x * (v.dot q.vector * two) +
          (q.y * v.z - v.y * q.z) * (q.w * two),
        v.y * (q.w * q.w - q.vector.dot q.vector) + q.y * (v.dot q.vector * two) +
          (q.z * v.x - v.z * q.x) * (q.w * two),
        v.z * (q.w * q.w - q.vector.dot q.vector) + q.z * (v.dot q.vector * two) +
          (q.x * v.y - v.x * q.y) * (q.w * two)⟩ := rfl
  rw [rotated]
  simp only [mul_eq, ofVector, conjugate, vector, Vec3.dot, two]
  ext <;> ring

theorem ofVector_injective {u v : Vec3 R} (same : ofVector u = ofVector v) : u = v :=
  congrArg vector same

theorem ofVector_add (u v : Vec3 R) : ofVector (u + v) = ofVector u + ofVector v := by
  rw [add_eq]
  simp only [ofVector, add_zero]
  rfl

theorem rotate_add (q : Quat R) (u v : Vec3 R) : q.rotate (u + v) = q.rotate u + q.rotate v := by
  apply ofVector_injective
  simp only [ofVector_rotate, ofVector_add, mul_add, add_mul]

/-- A product rotates by its second factor and then by its first one. -/
theorem rotate_mul (a b : Quat R) (v : Vec3 R) : (a * b).rotate v = a.rotate (b.rotate v) := by
  apply ofVector_injective
  simp only [ofVector_rotate, conjugate_mul, mul_assoc]

theorem one_rotate (v : Vec3 R) : (1 : Quat R).rotate v = v := by
  have self : (1 : Quat R).conjugate = 1 := by
    simp only [one_eq, conjugate, neg_zero]
  apply ofVector_injective
  rw [ofVector_rotate, self, one_mul, mul_one]

end Quat

namespace DualQuat

/-! ## The monoid of dual quaternions -/

theorem mul_eq (a b : DualQuat R) :
    a * b = ⟨a.real * b.real, a.real * b.dual + a.dual * b.real⟩ := rfl

theorem one_eq : (1 : DualQuat R) = ⟨1, 0⟩ := rfl

instance : Monoid (DualQuat R) where
  mul_assoc a b c := by
    simp only [mul_eq, mul_add, add_mul, mul_assoc, add_assoc]
  one_mul a := by
    simp only [mul_eq, one_eq, one_mul, zero_mul, add_zero]
  mul_one a := by
    simp only [mul_eq, one_eq, mul_one, mul_zero, zero_add]

end DualQuat

end Ring

/-! ## Motions -/

/-- What exact scalars have beyond the laws of a field: two is not zero, and one is positive and its
own root. -/
class Exact (K : Type) [Field K] [LE K] [SquareRoot K] : Prop where
  two_ne_zero : (two : K) ≠ 0
  positive : ¬(1 : K) ≤ 0
  root : sqrt (1 : K) = 1

/-- Fractions, with roots that are rounded where they are not exact. -/
instance : SquareRoot ℚ := ⟨Rat.sqrt⟩

instance : Exact ℚ where
  two_ne_zero := by decide +kernel
  positive := by decide +kernel
  root := by
    have square := Rat.sqrt_eq 1
    rwa [mul_one, abs_one] at square

variable {K : Type} [Field K] [LE K] [SquareRoot K]

theorem half_mul_two [Exact K] : (half : K) * two = 1 := by
  rw [half, one_div, inv_mul_cancel₀ Exact.two_ne_zero]

variable [DecidableLE K]

namespace DualQuat

/-- A rotation of unit length, then a translation. -/
def IsMotion (m : DualQuat K) : Prop :=
  ∃ (t : Vec3 K) (r : Quat K), r.dot r = 1 ∧ m = ofTranslationRotation t r

variable [Exact K] {a b m : DualQuat K} {t u : Vec3 K} {r s : Quat K}

/-- A rotation of unit length is kept as it is. -/
theorem ofTranslationRotation_eq (t : Vec3 K) (unit : r.dot r = 1) :
    ofTranslationRotation t r = ⟨r, Quat.ofVector t * r * (half : K)⟩ := by
  have normal : r.normalize = r := by
    rw [Quat.normalize, unit, if_neg Exact.positive, Exact.root, div_one, Quat.scale_one]
  rw [ofTranslationRotation, normal]

/-- The translation comes back. -/
theorem translation_ofTranslationRotation (t : Vec3 K) (unit : r.dot r = 1) :
    (ofTranslationRotation t r).translation = t := by
  have pure : Quat.ofVector t * r * (half : K) * (two : K) * r.conjugate = Quat.ofVector t := by
    rw [Quat.scale_scale, half_mul_two, Quat.scale_one, mul_assoc, Quat.mul_conjugate, unit,
      Quat.scale_one, mul_one]
  rw [ofTranslationRotation_eq t unit, translation, pure]
  rfl

theorem transformPoint_ofTranslationRotation (t p : Vec3 K) (unit : r.dot r = 1) :
    (ofTranslationRotation t r).transformPoint p = r.rotate p + t := by
  rw [transformPoint, translation_ofTranslationRotation t unit, ofTranslationRotation_eq t unit]

/-- The first motion is applied to the translation of the second one. -/
theorem ofTranslationRotation_mul (t u : Vec3 K) (first : r.dot r = 1) (second : s.dot s = 1) :
    ofTranslationRotation t r * ofTranslationRotation u s =
      ofTranslationRotation (r.rotate u + t) (r * s) := by
  -- The conjugate behind the rotated vector meets the rotation, and they cancel.
  have moved : Quat.ofVector (r.rotate u) * (r * s) = r * (Quat.ofVector u * s) := by
    rw [Quat.ofVector_rotate, mul_assoc, ← mul_assoc _ r s, Quat.conjugate_mul_self, first,
      Quat.scale_one, one_mul, mul_assoc]
  rw [ofTranslationRotation_eq t first, ofTranslationRotation_eq u second,
    ofTranslationRotation_eq _ (Quat.unit_mul first second), mul_eq, Quat.ofVector_add, add_mul, moved, Quat.mul_scale,
    Quat.scale_mul, ← Quat.add_scale, mul_assoc (Quat.ofVector t)]

theorem one_eq_ofTranslationRotation :
    (1 : DualQuat K) = ofTranslationRotation ⟨0, 0, 0⟩ 1 := by
  have still : Quat.ofVector (⟨0, 0, 0⟩ : Vec3 K) = 0 := rfl
  rw [ofTranslationRotation_eq _ Quat.dot_one, still, zero_mul, one_eq]
  simp only [Quat.scale_eq, Quat.zero_eq, zero_mul]

theorem one_transformPoint (p : Vec3 K) : (1 : DualQuat K).transformPoint p = p := by
  rw [one_eq_ofTranslationRotation, transformPoint_ofTranslationRotation _ _ Quat.dot_one,
    Quat.one_rotate]
  ext <;> exact add_zero _

namespace IsMotion

theorem unit (motion : IsMotion m) : m.real.dot m.real = 1 := by
  obtain ⟨t, r, unit, rfl⟩ := motion
  rwa [ofTranslationRotation_eq t unit]

theorem one : IsMotion (1 : DualQuat K) :=
  ⟨_, 1, Quat.dot_one, one_eq_ofTranslationRotation⟩

theorem mul (first : IsMotion a) (second : IsMotion b) : IsMotion (a * b) := by
  obtain ⟨t, r, unit, rfl⟩ := first
  obtain ⟨u, s, short, rfl⟩ := second
  exact ⟨_, r * s, Quat.unit_mul unit short, ofTranslationRotation_mul t u unit short⟩

/-- The motions among the dual quaternions. -/
def motions : Submonoid (DualQuat K) where
  carrier := {m | IsMotion m}
  one_mem' := one
  mul_mem' := mul

theorem prod {chain : List (DualQuat K)} (each : ∀ m ∈ chain, IsMotion m) : IsMotion chain.prod :=
  motions.list_prod_mem each

/-- A product moves a point by its second factor and then by its first one. -/
theorem transformPoint_mul (first : IsMotion a) (second : IsMotion b) (p : Vec3 K) :
    (a * b).transformPoint p = a.transformPoint (b.transformPoint p) := by
  obtain ⟨t, r, unit, rfl⟩ := first
  obtain ⟨u, s, short, rfl⟩ := second
  rw [ofTranslationRotation_mul t u unit short,
    transformPoint_ofTranslationRotation _ _ (Quat.unit_mul unit short),
    transformPoint_ofTranslationRotation _ _ unit, transformPoint_ofTranslationRotation _ _ short,
    Quat.rotate_mul, Quat.rotate_add]
  ext <;> exact (add_assoc ..).symm

/-- A chain of motions moves a point by its last one first. -/
theorem transformPoint_prod {chain : List (DualQuat K)} (each : ∀ m ∈ chain, IsMotion m)
    (p : Vec3 K) : chain.prod.transformPoint p = chain.foldr transformPoint p := by
  induction chain with
  | nil => exact one_transformPoint p
  | cons m chain ih =>
    obtain ⟨first, others⟩ := List.forall_mem_cons.mp each
    rw [List.prod_cons, first.transformPoint_mul (prod others), ih others, List.foldr_cons]

end IsMotion

/-- What rigid motions over exact scalars do, one by one and in chains. -/
structure Rigid (K : Type) [Field K] [LE K] [SquareRoot K] [DecidableLE K] : Prop where
  translation : ∀ (t : Vec3 K) (r : Quat K), r.dot r = 1 →
    (ofTranslationRotation t r).translation = t
  associative : ∀ a b c : DualQuat K, a * b * c = a * (b * c)
  unit : ∀ chain : List (DualQuat K), (∀ m ∈ chain, IsMotion m) →
    chain.prod.real.dot chain.prod.real = 1
  product : ∀ a b : DualQuat K, IsMotion a → IsMotion b → IsMotion (a * b) ∧
    ∀ p, (a * b).transformPoint p = a.transformPoint (b.transformPoint p)
  chain : ∀ chain : List (DualQuat K), (∀ m ∈ chain, IsMotion m) → IsMotion chain.prod ∧
    ∀ p, chain.prod.transformPoint p = chain.foldr transformPoint p

theorem rigid : Rigid K where
  translation t _ unit := translation_ofTranslationRotation t unit
  associative := mul_assoc
  unit _ each := (IsMotion.prod each).unit
  product _ _ first second := ⟨first.mul second, first.transformPoint_mul second⟩
  chain _ each := ⟨.prod each, IsMotion.transformPoint_prod each⟩

end DualQuat

end SceneBaker.Geometry
