import SceneBaker.Geometry.DualQuat
import SceneBaker.Hierarchy
import SceneBaker.Mesh.Vertex

/-! # Scenes

A scene is what a source file contributes to a conversion: meshes with attributes by vertex and
faces that index them, the node hierarchy, bone influences by mesh, animation clips and materials.
Its numbers are of any scalar type. Node 0 is the root.
-/

namespace SceneBaker.Scene

open Number SceneBaker.Geometry Mesh

structure VertexWeight (α : Type) where
  vertex : UInt32
  weight : α
deriving DecidableEq, Inhabited

/-- A bone that moves vertices of a mesh. -/
structure SourceBone (α : Type) where
  /-- Name of the node that drives the bone. -/
  name : String
  /-- From mesh space to bone space. -/
  offset : Mat4 α
  weights : List (VertexWeight α)
deriving DecidableEq, Inhabited

/-- A mesh; attributes are arrays by vertex and may be absent. -/
structure SourceMesh (α : Type) where
  name : String := ""
  material : UInt32 := 0
  primitive : Primitive := .triangles
  positions : Array (Vec3 α) := #[]
  normals : Option (Array (Vec3 α)) := none
  uv0 : Option (Array (Vec2 α)) := none
  uv1 : Option (Array (Vec2 α)) := none
  /-- Linear red, green, blue and alpha. -/
  colors : Option (Array (Vec4 α)) := none
  tangents : Option (Array (Vec3 α)) := none
  bitangents : Option (Array (Vec3 α)) := none
  /-- Vertices of each face. -/
  faces : List (List UInt32) := []
  bones : List (SourceBone α) := []
deriving DecidableEq, Inhabited

namespace SourceMesh

variable {α : Type}

def hasNormals (mesh : SourceMesh α) : Bool := mesh.normals.isSome

def hasTangents (mesh : SourceMesh α) : Bool := mesh.tangents.isSome && mesh.bitangents.isSome

def hasBones (mesh : SourceMesh α) : Bool := !mesh.bones.isEmpty

/-- The same mesh seen from the other side. -/
def reverseFaces (mesh : SourceMesh α) : SourceMesh α :=
  { mesh with faces := mesh.faces.map List.reverse }

end SourceMesh

structure SourceNode (α : Type) where
  name : String
  /-- Transform relative to the parent. -/
  transform : Mat4 α
  /-- Positions in the scene's meshes. -/
  meshes : List Nat := []
  /-- Positions in the scene's nodes. -/
  children : List Nat := []
deriving DecidableEq, Inhabited

/-- A value at a time, in ticks. -/
structure Key (β : Type) where
  time : Double
  value : β
deriving DecidableEq, Inhabited

/-- The keys that move one node. -/
structure Channel (α : Type) where
  node : String
  positions : List (Key (Vec3 α)) := []
  rotations : List (Key (Quat α)) := []
deriving DecidableEq, Inhabited

structure Clip (α : Type) where
  name : String
  /-- Length in ticks. -/
  duration : Double
  ticksPerSecond : Double
  channels : List (Channel α)
deriving DecidableEq, Inhabited

structure SourceMaterial (α : Type) where
  name : String
  /-- Linear red, green and blue. -/
  diffuse : Vec3 α
  opacity : α
deriving DecidableEq, Inhabited

/-- An opaque white material. -/
def SourceMaterial.plain {α : Type} [One α] (name : String) : SourceMaterial α :=
  ⟨name, ⟨1, 1, 1⟩, 1⟩

structure Scene (α : Type) where
  meshes : Array (SourceMesh α) := #[]
  materials : Array (SourceMaterial α) := #[]
  nodes : Array (SourceNode α) := #[]
  clips : List (Clip α) := []
deriving DecidableEq, Inhabited

namespace Scene

variable {α : Type}

def root? (scene : Scene α) : Option (SourceNode α) := scene.nodes[0]?

/-- Add a node, as the last child of `parent` if there is such a node. -/
def addNode (scene : Scene α) (parent : Option Nat) (node : SourceNode α) : Scene α :=
  let position := scene.nodes.size
  let nodes := scene.nodes.push node
  match parent with
  | none => { scene with nodes }
  | some parent =>
    { scene with
      nodes := nodes.modify parent fun above =>
        { above with children := above.children ++ [position] } }

/-- Position of the first node of a name, in the order of the array. -/
def find? (scene : Scene α) (name : String) : Option Nat :=
  scene.nodes.findIdx? (·.name == name)

def links (scene : Scene α) : Links := scene.nodes.map (·.children)

def parents (scene : Scene α) : Array (Option Nat) := scene.links.parents

/-- Positions of the nodes below the root, parents first. -/
def preorder (scene : Scene α) : List Nat := (scene.links.preorder .skip).map (·.1)

/-- Transform of every node relative to the scene; the identity for nodes that the root does not
reach. -/
def worldTransforms [Add α] [Mul α] [Zero α] [One α] (scene : Scene α) : Array (Mat4 α) :=
  let parents := scene.parents
  scene.preorder.foldl
    (fun worlds position =>
      match scene.nodes[position]? with
      | none => worlds
      | some node =>
        let world := match parents[position]?.join with
          | some parent => worlds[parent]?.getD 1 * node.transform
          | none => node.transform
        worlds.setIfInBounds position world)
    (Array.replicate scene.nodes.size 1)

end Scene

end SceneBaker.Scene
