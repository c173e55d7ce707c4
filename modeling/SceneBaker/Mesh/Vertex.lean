import SceneBaker.Mesh.Format

/-! # Vertices and primitives

A vertex is one corner of one primitive. It is stored with the attributes of its format; those that
are not stored have their default value after reading.
-/

namespace SceneBaker.Mesh

open Number SceneBaker.Geometry Binary

/-- How many consecutive vertices form a primitive. -/
inductive Primitive where
  | points | lines | triangles
deriving DecidableEq, Inhabited

namespace Primitive

def corners : Primitive → Nat
  | points => 1
  | lines => 2
  | triangles => 3

def ofCorners? : Nat → Option Primitive
  | 1 => some points
  | 2 => some lines
  | 3 => some triangles
  | _ => none

/-- The stored code. -/
def code : Primitive → UInt8
  | points => 1
  | lines => 2
  | triangles => 4

def ofCode (code : UInt8) : Except CodecError Primitive :=
  if code = 1 then .ok points
  else if code = 2 then .ok lines
  else if code = 4 then .ok triangles
  else .error (.unknownPrimitive code)

end Primitive

/-- The number of bones that can move a vertex. -/
def maxInfluences : Nat := 4

structure Vertex where
  position : Vec3 Single := 0
  normal : Vec3 Single := 0
  uv0 : Vec2 Single := 0
  uv1 : Vec2 Single := 0
  /-- Packed color, see `packColor`. -/
  color : UInt32 := 0
  tangent : Vec3 Single := 0
  /-- `1` or `-1`. -/
  bitangentSign : Single := 1
  boneIndices : Vec4 UInt32 := ⟨0, 0, 0, 0⟩
  boneWeights : Vec4 Single := ⟨0, 0, 0, 0⟩
  id : Int32 := 0
deriving DecidableEq

namespace Vertex

instance : Inhabited Vertex := ⟨{}⟩

/-- Bone indices with their weights. -/
def influences (vertex : Vertex) : List (UInt32 × Single) :=
  vertex.boneIndices.toList.zip vertex.boneWeights.toList

/-- Write the attributes of a format. Bone indices are stored as numbers. -/
def encode (format : VertexFormat) (vertex : Vertex) : Output :=
  let given (stored : Bool) (output : Output) : Output := if stored then output else .empty
  given format.position (.vec3 vertex.position)
    ++ given format.normal (.vec3 vertex.normal)
    ++ given format.uv0 (.vec2 vertex.uv0)
    ++ given format.uv1 (.vec2 vertex.uv1)
    ++ given format.color (.u32 vertex.color)
    ++ given format.tangent (.vec3 vertex.tangent ++ .single vertex.bitangentSign)
    ++ given format.bones
      (.each vertex.boneIndices.toList Output.index ++ .each vertex.boneWeights.toList Output.single)
    ++ given format.ids (.i32 vertex.id)

/-- Read the attributes of a format. -/
def decode (format : VertexFormat) : Reader Vertex := do
  let given {α : Type} (stored : Bool) (reader : Reader α) (default : α) : Reader α :=
    if stored then reader else pure default
  let position ← given format.position .vec3 0
  let normal ← given format.normal .vec3 0
  let uv0 ← given format.uv0 .vec2 0
  let uv1 ← given format.uv1 .vec2 0
  let color ← given format.color .u32 0
  let tangent ← given format.tangent .vec3 0
  let bitangentSign ← given format.tangent .single 1
  let index := Reader.index .bone
  let boneIndices ←
    given format.bones (return ⟨← index, ← index, ← index, ← index⟩) ⟨0, 0, 0, 0⟩
  let boneWeights ← given format.bones .vec4 ⟨0, 0, 0, 0⟩
  let id ← given format.ids .i32 0
  return { position, normal, uv0, uv1, color, tangent, bitangentSign, boneIndices, boneWeights, id }

end Vertex

/-- A color channel as a byte: clamped to `[0, 1]`, scaled and cut to an integer. -/
def packChannel (value : Single) : UInt32 :=
  let clamped := if value < 0 then 0 else if 1 < value then 1 else value
  (clamped * Single.ofNat 255).toUInt32

/-- Alpha, blue, green and red from the highest byte to the lowest. -/
def packColor (color : Vec4 Single) : UInt32 :=
  packChannel color.w <<< 24 ||| packChannel color.z <<< 16 ||| packChannel color.y <<< 8
    ||| packChannel color.x

/-- The color whose channels are the bytes over 255. -/
def unpackColor (packed : UInt32) : Vec4 Single :=
  let channel (shift : UInt32) : Single :=
    Single.ofNat ((packed >>> shift) &&& 0xff).toNat / Single.ofNat 255
  ⟨channel 0, channel 8, channel 16, channel 24⟩

end SceneBaker.Mesh
