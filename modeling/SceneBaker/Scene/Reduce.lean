import SceneBaker.Scene.Basic

/-! # Reducing scenes

`mergeMaterials` keeps the used materials, one of each name. `mergeMeshes` joins meshes of a node
that agree in everything but their data and that nothing else mentions. `pruneNodes` removes
branches without meshes, bones and animated nodes.
-/

namespace SceneBaker.Scene

open Number SceneBaker.Geometry Mesh

namespace Scene

variable {α : Type}

/-! ## Materials -/

/-- Whether some mesh has the material. -/
def usesMaterial (scene : Scene α) (material : Nat) : Bool :=
  scene.meshes.any (·.material.toNat == material)

/-- Add a material unless one of its name is there; with the position of the one of its name. -/
def keepMaterial (kept : Array (SourceMaterial α)) (material : SourceMaterial α) :
    Array (SourceMaterial α) × Nat :=
  match kept.findIdx? (·.name == material.name) with
  | some position => (kept, position)
  | none => (kept.push material, kept.size)

/-- The materials that are kept, and for every old material its new position. -/
def reducedMaterials (scene : Scene α) : Array (SourceMaterial α) × Array Nat :=
  scene.materials.toList.zipIdx.foldl
    (fun (kept, positions) (material, old) =>
      if scene.usesMaterial old then
        let (kept, position) := keepMaterial kept material
        (kept, positions.push position)
      else (kept, positions.push 0))
    (#[], #[])

/-- Drop unused materials and keep one of each name. -/
def mergeMaterials (scene : Scene α) : Scene α :=
  let (materials, positions) := scene.reducedMaterials
  { scene with
    materials
    meshes := scene.meshes.map fun mesh =>
      { mesh with material := UInt32.ofNat (positions[mesh.material.toNat]?.getD 0) } }

end Scene

/-! ## Meshes -/

/-- What meshes have to agree in. -/
structure MergeKey where
  material : UInt32
  primitive : Primitive
  attributes : List Bool
deriving DecidableEq

namespace SourceMesh

variable {α : Type}

def mergeKey (mesh : SourceMesh α) : MergeKey where
  material := mesh.material
  primitive := mesh.primitive
  attributes := [mesh.normals.isSome, mesh.uv0.isSome, mesh.uv1.isSome, mesh.colors.isSome,
    mesh.hasTangents, mesh.hasBones]

/-- Add the weights of a bone to the one of its name, or the bone itself. -/
def addBone (bones : List (SourceBone α)) (bone : SourceBone α) : List (SourceBone α) :=
  match bones with
  | [] => [bone]
  | first :: rest =>
    if first.name == bone.name then { first with weights := first.weights ++ bone.weights } :: rest
    else first :: addBone rest bone

/-- Both meshes in one, the vertices of `other` behind those of `mesh`. An attribute is extended
where both have it. -/
def append (mesh other : SourceMesh α) : SourceMesh α :=
  let offset := UInt32.ofNat mesh.positions.size
  let join {β : Type} (first second : Option (Array β)) : Option (Array β) :=
    match first, second with
    | some first, some second => some (first ++ second)
    | first, _ => first
  let moved := other.bones.map fun bone =>
    { bone with
      weights := bone.weights.map fun weight => { weight with vertex := weight.vertex + offset } }
  { mesh with
    positions := mesh.positions ++ other.positions
    normals := join mesh.normals other.normals
    uv0 := join mesh.uv0 other.uv0
    uv1 := join mesh.uv1 other.uv1
    colors := join mesh.colors other.colors
    tangents := join mesh.tangents other.tangents
    bitangents := join mesh.bitangents other.bitangents
    faces := mesh.faces ++ other.faces.map (·.map (· + offset))
    bones := moved.foldl addBone mesh.bones }

end SourceMesh

/-- A merge under way: the new meshes, and where each old mesh went. -/
structure Merge (α : Type) where
  meshes : Array (SourceMesh α) := #[]
  placed : Array (Option Nat)

namespace Merge

variable {α : Type}

/-- A node under way: what its meshes can still be merged into, and what it lists. -/
structure OfNode where
  groups : List (MergeKey × Nat) := []
  listed : List Nat := []

/-- Place one mesh of a node. A mesh that was placed before is listed once; one that only this node
mentions may join a group of its key. -/
def place (scene : Scene α) (mentions : Nat → Nat) (merge : Merge α) (node : OfNode)
    (index : Nat) : Merge α × OfNode :=
  match merge.placed[index]?.join, scene.meshes[index]? with
  | some position, _ =>
    (merge, if node.listed.contains position then node
      else { node with listed := node.listed ++ [position] })
  | none, none => (merge, node)
  | none, some mesh =>
    let single := mentions index == 1
    match if single then node.groups.lookup mesh.mergeKey else none with
    | some position =>
      ({ meshes := merge.meshes.modify position (·.append mesh)
         placed := merge.placed.setIfInBounds index (some position) }, node)
    | none =>
      let position := merge.meshes.size
      ({ meshes := merge.meshes.push mesh
         placed := merge.placed.setIfInBounds index (some position) },
        { groups :=
            if single then node.groups ++ [(mesh.mergeKey, position)] else node.groups
          listed := node.listed ++ [position] })

/-- Place the meshes of a node in order; with the meshes it lists then. -/
def placeAll (scene : Scene α) (mentions : Nat → Nat) (merge : Merge α) (indices : List Nat) :
    Merge α × List Nat :=
  let (merge, node) := indices.foldl
    (fun (merge, node) index => merge.place scene mentions node index) (merge, {})
  (merge, node.listed)

end Merge

namespace Scene

variable {α : Type}

/-- How often nodes mention each mesh. -/
def mentions (scene : Scene α) : Array Nat :=
  (scene.nodes.toList.flatMap (·.meshes)).foldl
    (fun counts index => counts.modify index (· + 1)) (Array.replicate scene.meshes.size 0)

/-- Merge compatible meshes of the same node. Meshes that several mentions share stay alone, and
meshes without a mention come last, unchanged. -/
def mergeMeshes (scene : Scene α) : Scene α :=
  let counts := scene.mentions
  let start : Merge α := { placed := Array.replicate scene.meshes.size none }
  let (merge, nodes) := scene.nodes.foldl
    (fun (merge, nodes) node =>
      let (merge, listed) := merge.placeAll scene (counts[·]?.getD 0) node.meshes
      (merge, nodes.push { node with meshes := listed }))
    (start, #[])
  let unmentioned := scene.meshes.toList.zipIdx.filterMap fun (mesh, index) =>
    if (merge.placed[index]?.join).isSome then none else some mesh
  { scene with meshes := merge.meshes ++ unmentioned.toArray, nodes }

/-! ## Nodes -/

/-- Names of bones and of animated nodes. -/
def protectedNames (scene : Scene α) : List String :=
  scene.meshes.toList.flatMap (fun mesh => mesh.bones.map (·.name))
    ++ scene.clips.flatMap fun clip => clip.channels.map (·.node)

/-- For every node whether it stays: the root, nodes with meshes, with protected names, and all
nodes above one of them. Children are decided before their parents. -/
def keptNodes (scene : Scene α) : Array Bool :=
  let names := scene.protectedNames
  scene.preorder.reverse.foldl
    (fun kept position =>
      match scene.nodes[position]? with
      | none => kept
      | some node =>
        kept.setIfInBounds position
          (position == 0 || node.children.any (kept[·]?.getD false) || !node.meshes.isEmpty
            || names.contains node.name))
    (Array.replicate scene.nodes.size false)

/-- New position of every kept node. -/
def keptPositions (kept : List Bool) : Array (Option Nat) :=
  (kept.foldl
    (fun (positions, next) stays =>
      if stays then (positions.push (some next), next + 1) else (positions.push none, next))
    ((#[] : Array (Option Nat)), 0)).1

/-- Keep some nodes; the others leave the child lists. -/
def retain (scene : Scene α) (kept : Array Bool) : Scene α :=
  let positions := keptPositions kept.toList
  { scene with
    nodes := (scene.nodes.toList.zipIdx.filterMap fun (node, position) =>
      if kept[position]?.getD false then
        some { node with children := node.children.filterMap (positions[·]?.join) }
      else none).toArray }

/-- Remove the branches that nothing needs. -/
def pruneNodes (scene : Scene α) : Scene α := scene.retain scene.keptNodes

end Scene

end SceneBaker.Scene
