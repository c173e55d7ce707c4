import SceneBaker.Mesh.Vertex

/-! # Meshes

A mesh is a list of primitives with one material, each primitive written out as its corners in
order. Per-mesh bounds are stored since minor revision 1; per-mesh formats and primitive codes
since minor revision 2, before which all meshes of a model are triangles of one format.
-/

namespace SceneBaker.Mesh

open Number SceneBaker.Geometry Binary

/-- Axis-aligned box. -/
structure Bounds where
  min : Vec3 Single
  max : Vec3 Single
deriving DecidableEq

namespace Bounds

/-- The box that holds the old box and a point. -/
def extend (bounds : Bounds) (point : Vec3 Single) : Bounds :=
  ⟨bounds.min.lower point, bounds.max.upper point⟩

/-- The smallest box around some points; none without points. -/
def ofPoints? : List (Vec3 Single) → Option Bounds
  | [] => none
  | first :: rest => some (rest.foldl extend ⟨first, first⟩)

def encode (bounds : Bounds) : Output := .vec3 bounds.min ++ .vec3 bounds.max

def decode : Reader Bounds := return ⟨← Reader.vec3, ← Reader.vec3⟩

end Bounds

structure Mesh where
  /-- Index into the material names of the model. -/
  material : UInt32 := 0
  primitive : Primitive := .triangles
  /-- Absent in meshes of files without bounds. -/
  bounds : Option Bounds := none
  format : VertexFormat := .positionOnly
  vertices : List Vertex := []
deriving DecidableEq

namespace Mesh

instance : Inhabited Mesh := ⟨{}⟩

/-- Bounds of the vertex positions; none without vertices. -/
def computedBounds? (mesh : Mesh) : Option Bounds :=
  Bounds.ofPoints? (mesh.vertices.map (·.position))

/-- Number of complete primitives. -/
def primitiveCount (mesh : Mesh) : Nat := mesh.vertices.length / mesh.primitive.corners

/-- The bounds that are stored: the mesh's own, else the computed ones, else a box at the origin. -/
def storedBounds (mesh : Mesh) : Bounds :=
  (mesh.bounds.or mesh.computedBounds?).getD ⟨0, 0⟩

def encode (mesh : Mesh) : Output :=
  .u32 mesh.material ++ mesh.storedBounds.encode ++ mesh.format.encode ++ .u8 mesh.primitive.code
    ++ .count .vertex mesh.vertices.length ++ .each mesh.vertices (Vertex.encode mesh.format)

/-- First minor revision with bounds. -/
def boundsMinor : UInt8 := 1

/-- First minor revision with a format and a primitive code in each mesh. -/
def formatMinor : UInt8 := 2

/-- Read a mesh of some revision; `shared` is the format of a model that has one for all meshes. -/
def decode (version : Version) (shared : Option VertexFormat) : Reader Mesh := do
  let material ← Reader.u32
  let bounds ← if boundsMinor ≤ version.minor then some <$> Bounds.decode else pure none
  let (format, primitive) ←
    if formatMinor ≤ version.minor then
      let format ← VertexFormat.decode version
      let primitive ← Reader.ofExcept (Primitive.ofCode (← Reader.u8))
      pure (format, primitive)
    else pure (shared.getD .positionOnly, .triangles)
  let count ← Reader.u32
  let vertices ← Reader.times count.toNat (Vertex.decode format)
  return { material, primitive, bounds, format, vertices }

end Mesh

end SceneBaker.Mesh
