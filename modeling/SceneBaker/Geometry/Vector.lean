import SceneBaker.Number.Single

/-! # Vectors

Vectors over any scalar type. Sums are associated as written, which matters for rounded scalars
and for nothing else; the operations that need an order or a root are stated for single precision.
-/

namespace SceneBaker.Geometry

open Number

structure Vec2 (α : Type) where
  x : α
  y : α
deriving DecidableEq, Inhabited

structure Vec3 (α : Type) where
  x : α
  y : α
  z : α
deriving DecidableEq, Inhabited

structure Vec4 (α : Type) where
  x : α
  y : α
  z : α
  w : α
deriving DecidableEq, Inhabited

variable {α : Type}

def two [Add α] [One α] : α := 1 + 1

def half [Add α] [Div α] [One α] : α := 1 / two

namespace Vec2

instance [Zero α] : Zero (Vec2 α) := ⟨⟨0, 0⟩⟩
instance [Sub α] : Sub (Vec2 α) := ⟨fun a b => ⟨a.x - b.x, a.y - b.y⟩⟩

def toList (v : Vec2 α) : List α := [v.x, v.y]

end Vec2

namespace Vec3

instance [Zero α] : Zero (Vec3 α) := ⟨⟨0, 0, 0⟩⟩
instance [Add α] : Add (Vec3 α) := ⟨fun a b => ⟨a.x + b.x, a.y + b.y, a.z + b.z⟩⟩
instance [Sub α] : Sub (Vec3 α) := ⟨fun a b => ⟨a.x - b.x, a.y - b.y, a.z - b.z⟩⟩
instance [Neg α] : Neg (Vec3 α) := ⟨fun a => ⟨-a.x, -a.y, -a.z⟩⟩

/-- Product of a vector and a scalar. -/
instance [Mul α] : HMul (Vec3 α) α (Vec3 α) := ⟨fun a s => ⟨a.x * s, a.y * s, a.z * s⟩⟩

def toList (v : Vec3 α) : List α := [v.x, v.y, v.z]

def dot [Add α] [Mul α] (a b : Vec3 α) : α := (a.x * b.x + a.y * b.y) + a.z * b.z

def cross [Sub α] [Mul α] (a b : Vec3 α) : Vec3 α :=
  ⟨a.y * b.z - b.y * a.z, a.z * b.x - b.z * a.x, a.x * b.y - b.x * a.y⟩

/-- Reflection in the plane `z = 0`. -/
def mirrorZ [Neg α] (v : Vec3 α) : Vec3 α := ⟨v.x, v.y, -v.z⟩

/-- The blend `(1 - factor) a + factor b`, which is exact at both ends. -/
def lerp [Add α] [Sub α] [Mul α] [One α] (a b : Vec3 α) (factor : α) : Vec3 α :=
  a * (1 - factor) + b * factor

/-- Componentwise lower bound; a component that is not comparable gives way to the new one. -/
def lower [LT α] [DecidableLT α] (bound v : Vec3 α) : Vec3 α :=
  let least (a b : α) : α := if a < b then a else b
  ⟨least bound.x v.x, least bound.y v.y, least bound.z v.z⟩

/-- Componentwise upper bound; a component that is not comparable gives way to the new one. -/
def upper [LT α] [DecidableLT α] (bound v : Vec3 α) : Vec3 α :=
  let greatest (a b : α) : α := if b < a then a else b
  ⟨greatest bound.x v.x, greatest bound.y v.y, greatest bound.z v.z⟩

/-- Numeric equality of all components. -/
def numEq (a b : Vec3 Single) : Bool := a.x.numEq b.x && a.y.numEq b.y && a.z.numEq b.z

def length (v : Vec3 Single) : Single := sqrt (v.dot v)

/-- Unit vector of the same direction, or zero where the length has no usable inverse. -/
def normalizeOrZero (v : Vec3 Single) : Vec3 Single :=
  let inverse := 1 / v.length
  if inverse.isFinite && 0 < inverse then v * inverse else 0

/-- Some vector at a right angle to `v`. -/
def orthogonal (v : Vec3 Single) : Vec3 Single :=
  if v.y.abs < v.x.abs then ⟨-v.z, 0, v.x⟩ else ⟨0, v.z, -v.y⟩

end Vec3

namespace Vec4

instance [Add α] : Add (Vec4 α) := ⟨fun a b => ⟨a.x + b.x, a.y + b.y, a.z + b.z, a.w + b.w⟩⟩

/-- Product of a vector and a scalar. -/
instance [Mul α] : HMul (Vec4 α) α (Vec4 α) :=
  ⟨fun a s => ⟨a.x * s, a.y * s, a.z * s, a.w * s⟩⟩

def toList (v : Vec4 α) : List α := [v.x, v.y, v.z, v.w]

/-- The even and the odd products are summed in pairs. -/
def dot [Add α] [Mul α] (a b : Vec4 α) : α := (a.x * b.x + a.z * b.z) + (a.y * b.y + a.w * b.w)

def xyz (v : Vec4 α) : Vec3 α := ⟨v.x, v.y, v.z⟩

end Vec4

end SceneBaker.Geometry
