import SceneBaker.Geometry.Vector

/-! # Quaternions

Rotations are quaternions with the real part last. A quaternion of length zero is its own
normalization. `slerp` blends along the shorter arc.
-/

namespace SceneBaker.Geometry

open Number

structure Quat (α : Type) where
  x : α
  y : α
  z : α
  w : α
deriving DecidableEq, Inhabited

namespace Quat

variable {α : Type}

instance [Zero α] : Zero (Quat α) := ⟨⟨0, 0, 0, 0⟩⟩

/-- The rotation that moves nothing. -/
instance [Zero α] [One α] : One (Quat α) := ⟨⟨0, 0, 0, 1⟩⟩

instance [Add α] : Add (Quat α) := ⟨fun a b => ⟨a.x + b.x, a.y + b.y, a.z + b.z, a.w + b.w⟩⟩

/-- Product of a quaternion and a scalar. -/
instance [Mul α] : HMul (Quat α) α (Quat α) :=
  ⟨fun a s => ⟨a.x * s, a.y * s, a.z * s, a.w * s⟩⟩

/-- Hamilton product, summed in the order of the four lanes of `a`, the real lane first. -/
def product [Add α] [Mul α] [Neg α] [One α] (a b : Quat α) : Quat α where
  x := (a.w * b.x + a.x * b.w) + (a.y * b.z + a.z * b.y * -1)
  y := (a.w * b.y + a.x * b.z * -1) + (a.y * b.w + a.z * b.x)
  z := (a.w * b.z + a.x * b.y) + (a.y * b.x * -1 + a.z * b.w)
  w := (a.w * b.w + a.x * b.x * -1) + (a.y * b.y * -1 + a.z * b.z * -1)

instance [Add α] [Mul α] [Neg α] [One α] : Mul (Quat α) := ⟨product⟩

def toList (q : Quat α) : List α := [q.x, q.y, q.z, q.w]

/-- The imaginary part. -/
def vector (q : Quat α) : Vec3 α := ⟨q.x, q.y, q.z⟩

def ofVector [Zero α] (v : Vec3 α) : Quat α := ⟨v.x, v.y, v.z, 0⟩

def dot [Add α] [Mul α] (a b : Quat α) : α := (a.x * b.x + a.z * b.z) + (a.y * b.y + a.w * b.w)

def conjugate [Neg α] (q : Quat α) : Quat α := ⟨-q.x, -q.y, -q.z, q.w⟩

/-- Scale to unit length; a quaternion whose squared length is not positive is left alone. -/
def normalize [Add α] [Mul α] [Div α] [Zero α] [One α] [LE α] [DecidableLE α] [SquareRoot α]
    (q : Quat α) : Quat α :=
  let squared := q.dot q
  if squared ≤ 0 then q else q * (1 / sqrt squared)

/-- Rotate a vector. -/
def rotate [Add α] [Sub α] [Mul α] [One α] (q : Quat α) (v : Vec3 α) : Vec3 α :=
  let axis := q.vector
  (v * (q.w * q.w - axis.dot axis) + axis * (v.dot axis * two)) + axis.cross v * (q.w * two)

/-- Cosine above which two rotations are blended linearly. -/
def parallelCosine : Single := ⟨0x3f7fdf3b⟩

/-- Spherical blend of two rotations along the shorter arc. Nearly parallel rotations are blended
linearly and scaled back to unit length. -/
def slerp (a b : Quat Single) (factor : Single) : Quat Single :=
  let a := a.normalize
  let b := b.normalize
  let cosine := a.dot b
  let (cosine, b) := if cosine < 0 then (-cosine, b * (-1 : Single)) else (cosine, b)
  if parallelCosine < cosine then (a * (1 - factor) + b * factor).normalize
  else
    let arc := cosine.arccos
    let angle := arc * factor
    let weight := angle.sine / arc.sine
    a * (angle.cosine - cosine * weight) + b * weight

end Quat

end SceneBaker.Geometry
