import SceneBaker.Geometry.Matrix

/-! # Dual quaternions

A rigid motion as a unit quaternion `real` and the product `dual` of half the translation with it.
The product `a * b` moves a point by `b` first. Every transform stored in a model or an animation
is one of these.
-/

namespace SceneBaker.Geometry

open Number

structure DualQuat (α : Type) where
  real : Quat α
  dual : Quat α
deriving DecidableEq, Inhabited

namespace DualQuat

variable {α : Type}

/-- The motion that moves nothing. -/
instance [Zero α] [One α] : One (DualQuat α) := ⟨⟨1, 0⟩⟩

instance [Add α] [Mul α] [Neg α] [One α] : Mul (DualQuat α) :=
  ⟨fun a b => ⟨a.real * b.real, a.real * b.dual + a.dual * b.real⟩⟩

def toList (m : DualQuat α) : List α := m.real.toList ++ m.dual.toList

/-- Rotate, then translate. The rotation need not be of unit length. -/
def ofTranslationRotation [Add α] [Mul α] [Div α] [Neg α] [Zero α] [One α] [LE α] [DecidableLE α]
    [SquareRoot α] (translation : Vec3 α) (rotation : Quat α) : DualQuat α :=
  let real := rotation.normalize
  ⟨real, Quat.ofVector translation * real * (half : α)⟩

/-- The rigid part of an affine matrix; its scale is dropped. -/
def ofMatrix (m : Mat4 Single) : DualQuat Single :=
  ofTranslationRotation m.translation m.rotation

def rotation (m : DualQuat α) : Quat α := m.real

/-- Twice the dual part times the conjugate of the real one. -/
def translation [Add α] [Mul α] [Neg α] [One α] (m : DualQuat α) : Vec3 α :=
  (m.dual * (two : α) * m.real.conjugate).vector

def transformPoint [Add α] [Sub α] [Mul α] [Neg α] [One α] (m : DualQuat α) (p : Vec3 α) :
    Vec3 α :=
  m.real.rotate p + m.translation

/-- Whether all eight components differ by at most `tolerance`. -/
def near (a b : DualQuat Single) (tolerance : Single) : Bool :=
  (a.toList.zip b.toList).all fun (x, y) => decide ((x - y).abs ≤ tolerance)

end DualQuat

end SceneBaker.Geometry
