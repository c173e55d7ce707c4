import SceneBaker.Scene.Basic

/-! # Changes of space

`mirror` turns a right-handed scene into a left-handed one by reflecting everything in the plane
`z = 0`; transforms are conjugated with the reflection and faces turn around. `scale` scales
positions and translations. `flatten` moves world transforms into the vertices.
-/

namespace SceneBaker.Scene

open Number SceneBaker.Geometry

namespace Scene

variable {α : Type}

/-- A matrix between two others. -/
def conjugate [Add α] [Mul α] (left m right : Mat4 α) : Mat4 α := left * m * right

def mirrorMatrix [Add α] [Mul α] [Neg α] [Zero α] [One α] (m : Mat4 α) : Mat4 α :=
  conjugate .mirrorZ m .mirrorZ

/-- The rotation between mirrored spaces: its axis turns and its angle stays. -/
def mirrorRotation [Neg α] (q : Quat α) : Quat α := ⟨-q.x, -q.y, q.z, q.w⟩

/-- Reflect the scene and turn its faces around. -/
def mirror [Add α] [Mul α] [Neg α] [Zero α] [One α] (scene : Scene α) : Scene α :=
  { scene with
    meshes := scene.meshes.map fun mesh =>
      { mesh.reverseFaces with
        positions := mesh.positions.map Vec3.mirrorZ
        normals := mesh.normals.map (·.map Vec3.mirrorZ)
        tangents := mesh.tangents.map (·.map Vec3.mirrorZ)
        bitangents := mesh.bitangents.map (·.map Vec3.mirrorZ)
        bones := mesh.bones.map fun bone => { bone with offset := mirrorMatrix bone.offset } }
    nodes := scene.nodes.map fun node => { node with transform := mirrorMatrix node.transform }
    clips := scene.clips.map fun clip =>
      { clip with
        channels := clip.channels.map fun channel =>
          { channel with
            positions := channel.positions.map fun key => { key with value := key.value.mirrorZ }
            rotations := channel.rotations.map fun key =>
              { key with value := mirrorRotation key.value } } } }

/-- Scale positions and translations by a factor. -/
def scale [Add α] [Mul α] [Div α] [Zero α] [One α] (scene : Scene α) (factor : α) : Scene α :=
  let inverse := 1 / factor
  let scaled := conjugate (Mat4.ofScale factor factor factor)
  let matrix (m : Mat4 α) : Mat4 α := scaled m (Mat4.ofScale inverse inverse inverse)
  { scene with
    meshes := scene.meshes.map fun mesh =>
      { mesh with
        positions := mesh.positions.map (· * factor)
        bones := mesh.bones.map fun bone => { bone with offset := matrix bone.offset } }
    nodes := scene.nodes.map fun node => { node with transform := matrix node.transform }
    clips := scene.clips.map fun clip =>
      { clip with
        channels := clip.channels.map fun channel =>
          { channel with
            positions := channel.positions.map fun key =>
              { key with value := key.value * factor } } } }

/-- A mesh as it stands in the scene below a world transform. A mirroring transform turns the faces
around; bones are dropped. -/
def placeMesh (world : Mat4 Single) (mesh : SourceMesh Single) : SourceMesh Single :=
  let linear := world.linear
  let direction (m : Mat3 Single) (v : Vec3 Single) : Vec3 Single := (m.apply v).normalizeOrZero
  let turned := if linear.determinant < 0 then mesh.reverseFaces else mesh
  { turned with
    positions := mesh.positions.map world.transformPoint
    normals := mesh.normals.map (·.map (direction linear.inverseTranspose))
    tangents := mesh.tangents.map (·.map (direction linear))
    bitangents := mesh.bitangents.map (·.map (direction linear))
    bones := [] }

/-- The name of the root where a scene has none. -/
def defaultRootName : String := "RootNode"

/-- Meshes of all nodes in preorder, each moved by its node's world transform. -/
def placedMeshes (scene : Scene Single) : List (SourceMesh Single) :=
  let worlds := scene.worldTransforms
  scene.preorder.flatMap fun position =>
    match scene.nodes[position]?, worlds[position]? with
    | some node, some world =>
      node.meshes.filterMap fun index => scene.meshes[index]?.map (placeMesh world)
    | _, _ => []

/-- Replace the hierarchy by one root node with a mesh for every mention of a mesh. Animations
cannot survive that and are dropped. -/
def flatten (scene : Scene Single) : Scene Single :=
  let meshes := scene.placedMeshes
  { scene with
    meshes := meshes.toArray
    nodes := #[{
      name := (scene.root?.map (·.name)).getD defaultRootName
      transform := 1
      meshes := List.range meshes.length }]
    clips := [] }

end Scene

end SceneBaker.Scene
