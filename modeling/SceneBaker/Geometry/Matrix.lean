import SceneBaker.Geometry.Quaternion

/-! # Matrices

Column-major affine matrices over any scalar type. Products are evaluated column by column. The
decomposition into scale, rotation and translation is stated for single precision.
-/

namespace SceneBaker.Geometry

open Number

structure Mat3 (α : Type) where
  c0 : Vec3 α
  c1 : Vec3 α
  c2 : Vec3 α
deriving DecidableEq, Inhabited

structure Mat4 (α : Type) where
  c0 : Vec4 α
  c1 : Vec4 α
  c2 : Vec4 α
  c3 : Vec4 α
deriving DecidableEq, Inhabited

variable {α : Type}

namespace Mat4

instance [Zero α] [One α] : One (Mat4 α) :=
  ⟨⟨⟨1, 0, 0, 0⟩, ⟨0, 1, 0, 0⟩, ⟨0, 0, 1, 0⟩, ⟨0, 0, 0, 1⟩⟩⟩

/-- Image of a vector, summed from the first column to the last. -/
def apply [Add α] [Mul α] (m : Mat4 α) (v : Vec4 α) : Vec4 α :=
  ((m.c0 * v.x + m.c1 * v.y) + m.c2 * v.z) + m.c3 * v.w

instance [Add α] [Mul α] : Mul (Mat4 α) :=
  ⟨fun a b => ⟨a.apply b.c0, a.apply b.c1, a.apply b.c2, a.apply b.c3⟩⟩

def toList (m : Mat4 α) : List α := m.c0.toList ++ m.c1.toList ++ m.c2.toList ++ m.c3.toList

def ofScale [Zero α] [One α] (x y z : α) : Mat4 α :=
  ⟨⟨x, 0, 0, 0⟩, ⟨0, y, 0, 0⟩, ⟨0, 0, z, 0⟩, ⟨0, 0, 0, 1⟩⟩

/-- The reflection in the plane `z = 0`. -/
def mirrorZ [Neg α] [Zero α] [One α] : Mat4 α := ofScale 1 1 (-1)

/-- Image of a point of the affine space. -/
def transformPoint [Add α] [Mul α] (m : Mat4 α) (p : Vec3 α) : Vec3 α :=
  (m.c3 + (m.c2 * p.z + (m.c1 * p.y + m.c0 * p.x))).xyz

def linear (m : Mat4 α) : Mat3 α := ⟨m.c0.xyz, m.c1.xyz, m.c2.xyz⟩

/-- Determinant by the two-row minors of the last two columns. -/
def determinant [Add α] [Sub α] [Mul α] [Neg α] (m : Mat4 α) : α :=
  let ⟨x, y, z, w⟩ := m
  let e0 := z.z * w.w - z.w * w.z
  let e1 := z.y * w.w - z.w * w.y
  let e2 := z.y * w.z - z.z * w.y
  let e3 := z.x * w.w - z.w * w.x
  let f0 := z.x * w.z - z.z * w.x
  let f1 := z.x * w.y - z.y * w.x
  x.dot
    ⟨(y.y * e0 - y.z * e1) + y.w * e2, -((y.x * e0 - y.z * e3) + y.w * f0),
      (y.x * e1 - y.y * e3) + y.w * f1, -((y.x * e2 - y.y * f0) + y.z * f1)⟩

end Mat4

namespace Mat3

def apply [Add α] [Mul α] (m : Mat3 α) (v : Vec3 α) : Vec3 α :=
  (m.c0 * v.x + m.c1 * v.y) + m.c2 * v.z

def determinant [Add α] [Sub α] [Mul α] (m : Mat3 α) : α := m.c2.dot (m.c0.cross m.c1)

/-- Transpose of the inverse, which carries normals. -/
def inverseTranspose [Add α] [Sub α] [Mul α] [Div α] [One α] (m : Mat3 α) : Mat3 α :=
  let t0 := m.c1.cross m.c2
  let t1 := m.c2.cross m.c0
  let t2 := m.c0.cross m.c1
  let inverse := 1 / m.c2.dot t2
  ⟨t0 * inverse, t1 * inverse, t2 * inverse⟩

/-- Quaternion of an orthonormal matrix, by the largest of its four components. -/
def toQuat (m : Mat3 Single) : Quat Single :=
  let ⟨⟨m00, m01, m02⟩, ⟨m10, m11, m12⟩, ⟨m20, m21, m22⟩⟩ := m
  if m22 ≤ 0 then
    let difference := m11 - m00
    let rest := 1 - m22
    if difference ≤ 0 then
      let four := rest - difference
      let scale := half / sqrt four
      ⟨four * scale, (m01 + m10) * scale, (m02 + m20) * scale, (m12 - m21) * scale⟩
    else
      let four := rest + difference
      let scale := half / sqrt four
      ⟨(m01 + m10) * scale, four * scale, (m12 + m21) * scale, (m20 - m02) * scale⟩
  else
    let sum := m11 + m00
    let rest := 1 + m22
    if sum ≤ 0 then
      let four := rest - sum
      let scale := half / sqrt four
      ⟨(m02 + m20) * scale, (m12 + m21) * scale, four * scale, (m01 - m10) * scale⟩
    else
      let four := rest + sum
      let scale := half / sqrt four
      ⟨(m12 - m21) * scale, (m20 - m02) * scale, (m01 - m10) * scale, four * scale⟩

/-- Rotation matrix of a unit quaternion. -/
def ofQuat [Add α] [Sub α] [Mul α] [One α] (q : Quat α) : Mat3 α :=
  let x2 := q.x + q.x
  let y2 := q.y + q.y
  let z2 := q.z + q.z
  let xx2 := x2 * q.x
  let xy2 := x2 * q.y
  let xz2 := x2 * q.z
  let yy2 := y2 * q.y
  let yz2 := y2 * q.z
  let zz2 := z2 * q.z
  let sx2 := x2 * q.w
  let sy2 := y2 * q.w
  let sz2 := z2 * q.w
  ⟨⟨(1 - yy2) - zz2, xy2 + sz2, xz2 - sy2⟩, ⟨xy2 - sz2, (1 - xx2) - zz2, yz2 + sx2⟩,
    ⟨xz2 + sy2, yz2 - sx2, (1 - xx2) - yy2⟩⟩

end Mat3

namespace Mat4

/-- The rotation that is left when the lengths of the columns are divided out; a mirrored matrix
has its first column turned around. -/
def rotation (m : Mat4 Single) : Quat Single :=
  let length (v : Vec4 Single) : Single := sqrt (v.dot v)
  let x := 1 / (length m.c0 * m.determinant.signum)
  let y := 1 / length m.c1
  let z := 1 / length m.c2
  Mat3.toQuat ⟨(m.c0 * x).xyz, (m.c1 * y).xyz, (m.c2 * z).xyz⟩

def translation (m : Mat4 α) : Vec3 α := m.c3.xyz

/-- Matrix of a translation. -/
def ofTranslation [Zero α] [One α] (t : Vec3 α) : Mat4 α :=
  ⟨⟨1, 0, 0, 0⟩, ⟨0, 1, 0, 0⟩, ⟨0, 0, 1, 0⟩, ⟨t.x, t.y, t.z, 1⟩⟩

/-- A linear map as an affine one. -/
def ofLinear [Zero α] [One α] (m : Mat3 α) : Mat4 α :=
  ⟨⟨m.c0.x, m.c0.y, m.c0.z, 0⟩, ⟨m.c1.x, m.c1.y, m.c1.z, 0⟩, ⟨m.c2.x, m.c2.y, m.c2.z, 0⟩,
    ⟨0, 0, 0, 1⟩⟩

/-- Scale, then rotate, then translate. -/
def compose [Add α] [Sub α] [Mul α] [Zero α] [One α] (translation : Vec3 α) (rotation : Quat α)
    (scale : Vec3 α) : Mat4 α :=
  ofTranslation translation * ofLinear (Mat3.ofQuat rotation) * ofScale scale.x scale.y scale.z

end Mat4

end SceneBaker.Geometry
