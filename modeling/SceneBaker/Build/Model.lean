import SceneBaker.Build.Mesh

/-! # Building models

A model is built from a scene in one go: skeleton, node tree, meshes and material names. The log
shows its node tree.
-/

namespace SceneBaker.Build

open Number Mesh Model Scene

/-- Build the model of a scene that has a node or a mesh. -/
def buildModel (scene : Scene Single) (settings : Settings) : Except ConversionError Model := do
  if scene.nodes.isEmpty && scene.meshes.isEmpty then throw .emptyScene
  let skeleton := Skeleton.collect scene settings
  let nodes ← nodeTree scene skeleton
  let meshes ← scene.meshes.toList.mapM fun source =>
    buildMesh source (vertexFormat source settings) skeleton settings
  return {
    meshes
    nodes
    skeleton := skeleton.bones
    materials := (scene.materials.map (·.name)).toList }

/-- The number of bones that the default shaders can use. -/
def shaderBones : Nat := 128

def indent (columns : Nat) : String := String.ofList (List.replicate columns ' ')

/-- A node in a listing of the tree. -/
def nodeText (node : Node) (depth : Nat) : String :=
  indent (2 * depth) ++ s!"{node.index.toNat} {node.name}" ++ (if node.isBone then " [bone]" else "")

/-- A node and its meshes in the log. -/
def nodeLog (model : Model) (node : Node) (depth : Nat) : List LogLine :=
  let meshes := node.meshes.filterMap fun index => model.meshes[index.toNat]?
  ⟨.debug, nodeText node depth⟩ :: meshes.map fun mesh =>
    ⟨.debug, indent (2 * depth + 2) ++
      s!"mesh: {mesh.format.text} ({mesh.vertices.length} vertices)"⟩

/-- What the log says about a new model. -/
def modelLog (model : Model) : List LogLine :=
  let count := model.skeleton.length
  let warning : List LogLine :=
    if shaderBones < count then
      [⟨.warn, s!"Model has {count} bones, default shaders support at most {shaderBones}"⟩]
    else []
  warning ++ model.nodes.visits.flatMap fun (position, depth) =>
    match model.nodes.get? position with
    | some node => nodeLog model node depth
    | none => []

end SceneBaker.Build
