import SceneBaker.Geometry.Matrix
import Mathlib.Tactic.Ring

/-! # Reflections in exact arithmetic

Over a commutative ring matrices form a monoid, and the reflection in the plane `z = 0` is its own
inverse, so that conjugation with it respects products. Points, translations and quaternions have
mirror images of their own, and these belong to the same reflection.
-/

namespace SceneBaker.Geometry

attribute [ext] Vec3 Vec4 Mat4 Quat

variable {R : Type} [CommRing R]

@[simp] theorem Vec3.mirrorZ_mirrorZ (v : Vec3 R) : v.mirrorZ.mirrorZ = v := by
  simp only [Vec3.mirrorZ, neg_neg]

namespace Mat4

/-! ## The monoid of matrices -/

theorem apply_eq (m : Mat4 R) (v : Vec4 R) : m.apply v =
    ⟨m.c0.x * v.x + m.c1.x * v.y + m.c2.x * v.z + m.c3.x * v.w,
      m.c0.y * v.x + m.c1.y * v.y + m.c2.y * v.z + m.c3.y * v.w,
      m.c0.z * v.x + m.c1.z * v.y + m.c2.z * v.z + m.c3.z * v.w,
      m.c0.w * v.x + m.c1.w * v.y + m.c2.w * v.z + m.c3.w * v.w⟩ := rfl

theorem mul_eq (a b : Mat4 R) :
    a * b = ⟨a.apply b.c0, a.apply b.c1, a.apply b.c2, a.apply b.c3⟩ := rfl

theorem one_eq : (1 : Mat4 R) = ⟨⟨1, 0, 0, 0⟩, ⟨0, 1, 0, 0⟩, ⟨0, 0, 1, 0⟩, ⟨0, 0, 0, 1⟩⟩ := rfl

/-- A product acts as its second factor and then its first one. -/
theorem apply_mul (a b : Mat4 R) (v : Vec4 R) : (a * b).apply v = a.apply (b.apply v) := by
  simp only [mul_eq, apply_eq]
  ext <;> ring

theorem one_apply (v : Vec4 R) : (1 : Mat4 R).apply v = v := by
  simp only [one_eq, apply_eq]
  ext <;> ring

instance : Monoid (Mat4 R) where
  mul_assoc a b c := by
    rw [mul_eq (a * b), mul_eq b]
    simp only [apply_mul]
    rfl
  one_mul a := by
    simp only [mul_eq, one_apply]
  mul_one a := by
    simp only [mul_eq, one_eq, apply_eq]
    ext <;> ring

/-! ## Conjugation with the reflection -/

theorem mirrorZ_apply (v : Vec4 R) : mirrorZ.apply v = ⟨v.x, v.y, -v.z, v.w⟩ := by
  simp only [mirrorZ, ofScale, apply_eq]
  ext <;> ring

theorem mirrorZ_mul_mirrorZ : (mirrorZ : Mat4 R) * mirrorZ = 1 := by
  simp only [mul_eq, mirrorZ_apply, one_eq]
  simp only [mirrorZ, ofScale, neg_neg, neg_zero]

theorem mirrorZ_mul_cancel (m : Mat4 R) : mirrorZ * (mirrorZ * m) = m := by
  rw [← mul_assoc, mirrorZ_mul_mirrorZ, one_mul]

theorem reflect_mul (a b : Mat4 R) : mirrorZ * (a * b) * mirrorZ =
    (mirrorZ * a * mirrorZ) * (mirrorZ * b * mirrorZ) := by
  simp only [mul_assoc, mirrorZ_mul_cancel]

theorem reflect_one : mirrorZ * (1 : Mat4 R) * mirrorZ = 1 := by
  rw [mul_one, mirrorZ_mul_mirrorZ]

theorem reflect_reflect (m : Mat4 R) : mirrorZ * (mirrorZ * m * mirrorZ) * mirrorZ = m := by
  simp only [mul_assoc, mirrorZ_mul_cancel, mirrorZ_mul_mirrorZ, mul_one]

/-- The entries that change their sign are those in one row or column with the third ones. -/
theorem reflect_eq (m : Mat4 R) : mirrorZ * m * mirrorZ =
    ⟨⟨m.c0.x, m.c0.y, -m.c0.z, m.c0.w⟩, ⟨m.c1.x, m.c1.y, -m.c1.z, m.c1.w⟩,
      ⟨-m.c2.x, -m.c2.y, m.c2.z, -m.c2.w⟩, ⟨m.c3.x, m.c3.y, -m.c3.z, m.c3.w⟩⟩ := by
  simp only [mul_eq, mirrorZ, ofScale, apply_eq]
  ext <;> ring

/-! ## Points and rigid motions -/

/-- A point moves as the vector with a one behind it. -/
theorem transformPoint_eq (m : Mat4 R) (p : Vec3 R) :
    m.transformPoint p = (m.apply ⟨p.x, p.y, p.z, 1⟩).xyz := by
  have sums : m.transformPoint p =
      ⟨m.c3.x + (m.c2.x * p.z + (m.c1.x * p.y + m.c0.x * p.x)),
        m.c3.y + (m.c2.y * p.z + (m.c1.y * p.y + m.c0.y * p.x)),
        m.c3.z + (m.c2.z * p.z + (m.c1.z * p.y + m.c0.z * p.x))⟩ := rfl
  rw [sums, apply_eq, Vec4.xyz]
  ext <;> ring

theorem mirrorZ_transformPoint : (mirrorZ : Mat4 R).transformPoint = Vec3.mirrorZ := by
  funext p
  rw [transformPoint_eq, mirrorZ_apply]
  rfl

/-- Seen through mirrored transforms, mirrored points are mirror images. -/
theorem reflect_transformPoint (m : Mat4 R) (p : Vec3 R) :
    (mirrorZ * m * mirrorZ).transformPoint p.mirrorZ = (m.transformPoint p).mirrorZ := by
  have back : mirrorZ.apply ⟨p.mirrorZ.x, p.mirrorZ.y, p.mirrorZ.z, 1⟩ =
      (⟨p.x, p.y, p.z, 1⟩ : Vec4 R) := by
    rw [mirrorZ_apply, Vec3.mirrorZ, neg_neg]
  rw [transformPoint_eq, transformPoint_eq, apply_mul, apply_mul, back, mirrorZ_apply]
  rfl

theorem reflect_ofTranslation (t : Vec3 R) :
    mirrorZ * ofTranslation t * mirrorZ = ofTranslation t.mirrorZ := by
  simp only [reflect_eq, ofTranslation, Vec3.mirrorZ, neg_zero]

/-- The quaternion with the other signs in `x` and `y` is the mirrored rotation. -/
theorem reflect_ofQuat (q : Quat R) : mirrorZ * ofLinear (Mat3.ofQuat q) * mirrorZ =
    ofLinear (Mat3.ofQuat ⟨-q.x, -q.y, q.z, q.w⟩) := by
  simp only [reflect_eq, ofLinear, Mat3.ofQuat, neg_zero]
  ext <;> ring

end Mat4

end SceneBaker.Geometry
