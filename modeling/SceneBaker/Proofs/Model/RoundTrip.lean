import SceneBaker.Proofs.Model.Growth
import SceneBaker.Proofs.Model.Recovery

/-! # Models through their files

Writing a model and reading it back changes the order of the arena and fills in absent bounds, and
nothing else. A file of any supported revision is upgraded in the same way.
-/

set_option linter.dupNamespace false

namespace SceneBaker.Model.Model

open Binary Mesh

/-- What a file of the current revision asks of a model: text without a zero byte, tables that fit
their counts, indices that are exact as numbers, and vertices with nothing outside their format. -/
structure Portable (model : Model) : Prop where
  nodeNames : ∀ node ∈ model.nodes.nodes.toList, Reader.Unbroken node.name
  materialNames : ∀ material ∈ model.materials, Reader.Unbroken material
  meshCount : model.meshes.length < 2 ^ 32
  vertexCounts : ∀ mesh ∈ model.meshes, mesh.vertices.length < 2 ^ 32
  nodeMeshCounts : ∀ node ∈ model.nodes.nodes.toList, node.meshes.length < 2 ^ 32
  materialCount : model.materials.length < 2 ^ 32
  nodeIndices : ∀ node ∈ model.nodes.nodes.toList, node.index.toNat ≤ 2 ^ 24
  boneIndices : ∀ bone ∈ model.skeleton, bone.index.toNat ≤ 2 ^ 24
  vertexBones : ∀ mesh ∈ model.meshes, mesh.format.bones = true → ∀ vertex ∈ mesh.vertices,
    ∀ index ∈ vertex.boneIndices.toList, index.toNat ≤ 2 ^ 24
  kept : ∀ mesh ∈ model.meshes, ∀ vertex ∈ mesh.vertices, vertex.kept mesh.format = vertex

theorem Portable.encodable {model : Model} (portable : model.Portable) : model.Encodable where
  meshCount := portable.meshCount
  meshes mesh member := ⟨portable.vertexCounts mesh member, portable.kept mesh member,
    fun stored vertex used index among =>
      storable_of_le (portable.vertexBones mesh member stored vertex used index among)⟩
  nodes node member := ⟨portable.nodeNames node member,
    storable_of_le (portable.nodeIndices node member), portable.nodeMeshCounts node member⟩
  bones bone member := storable_of_le (portable.boneIndices bone member)
  materialCount := portable.materialCount
  materials := portable.materialNames

/-- The model with the tree that is stored for it. -/
def rooted (model : Model) : Model := { model with nodes := model.storedTree }

theorem rooted_of_pos {model : Model} (some : 0 < model.nodes.size) : model.rooted = model := by
  have filled : model.nodes.isEmpty = false := by
    simpa [NodeTree.isEmpty, NodeTree.size] using Nat.ne_of_gt some
  rw [rooted, storedTree, filled]
  rfl

theorem storedTree_of_size_eq_zero {model : Model} (none : model.nodes.size = 0) :
    model.storedTree = .ofRoot {} := by
  have bare : model.nodes.isEmpty = true := by simpa [NodeTree.isEmpty, NodeTree.size] using none
  rw [storedTree, bare]
  rfl

/-- A model without nodes is stored with a root. -/
theorem encode_rooted (model : Model) : model.rooted.encode = model.encode := by
  rcases Nat.eq_zero_or_pos model.nodes.size with none | some
  · have tree : model.rooted.storedTree = model.storedTree := by
      rw [rooted, storedTree_of_size_eq_zero none]
      rfl
    rw [encode, encode, tree]
    rfl
  · rw [rooted_of_pos some]

section

variable {model : Model} (none : model.nodes.size = 0)
include none

theorem nodes_rooted : model.rooted.nodes = .ofRoot {} := storedTree_of_size_eq_zero none

theorem eq_of_mem_rooted {node : Node} (member : node ∈ model.rooted.nodes.nodes.toList) :
    node = {} := by
  rw [nodes_rooted none] at member
  exact List.mem_singleton.mp member

theorem Encodable.rooted (encodable : model.Encodable) : model.rooted.Encodable :=
  { encodable with
    nodes := fun node member => by
      rw [eq_of_mem_rooted none member]
      exact ⟨by decide, storable_of_le (Nat.zero_le _), by decide⟩ }

theorem Indexed.rooted (indexed : model.Indexed) : model.rooted.Indexed where
  nodes node member := by
    rw [eq_of_mem_rooted none member]
    refine ⟨?_, nofun, nofun⟩
    rw [nodeCount, nodes_rooted none]
    decide
  distinctNodes := by
    rw [nodes_rooted none]
    decide
  bones := indexed.bones
  distinctBones := indexed.distinctBones
  meshes mesh member :=
    ⟨(indexed.meshes mesh member).material, (indexed.meshes mesh member).bones⟩

theorem Named.rooted (named : model.Named) : model.rooted.Named := by
  intro bone member
  refine ⟨fun node among flagged => ?_, fun _ => (named bone member).2 fun node among => ?_⟩
  · rw [eq_of_mem_rooted none among] at flagged
    cases flagged
  · rw [Array.eq_empty_of_size_eq_zero none] at among
    cases among

end

/-- A model whose arena stands in preorder comes back as it is stored, its meshes with bounds. -/
theorem recovers_decode_rooted {model : Model} {forest : Forest Nat}
    (spells : model.nodes.Spells forest)
    (inOrder : .ofForest (forest.map model.nodes.label) = model.nodes)
    (encodable : model.Encodable) (indexed : model.Indexed) (named : model.Named) :
    Model.decode.Recovers model.encode model.rooted.upgrade := by
  rcases Nat.eq_zero_or_pos model.nodes.size with none | some
  · have root := nodes_rooted none
    have alone : model.rooted.nodes.Spells (.cons 0 .nil .nil) :=
      root ▸ NodeTree.spells_ofRoot rfl
    have recovers := recovers_decode alone (by rw [root]; decide) (encodable.rooted none)
      (indexed.rooted none) (named.rooted none)
    have inOrder : NodeTree.ofForest ((Forest.cons 0 .nil .nil).map model.rooted.nodes.label) =
        model.rooted.nodes := by
      rw [root]
      rfl
    rw [encode_rooted, inOrder] at recovers
    exact recovers
  · rw [rooted_of_pos some]
    refine (recovers_decode spells some encodable indexed named).congr ?_
    rw [inOrder]
    rfl

/-- A skinned model whose last node stands behind its parent's sibling. -/
def scattered : Model where
  meshes := [{
    format := { VertexFormat.positionOnly with bones := true }
    vertices := [{ boneIndices := ⟨0, 7, 0, 0⟩, boneWeights := ⟨1, 0, 0, 0⟩ }] }]
  nodes := (((NodeTree.ofRoot { name := "root", index := 1 }).attach 0 { name := "hip", isBone := true }).attach 0
    { name := "skin", index := 3, meshes := [0] }).attach 1 { name := "foot", index := 2 }
  skeleton := [{ name := "hip" }]
  materials := ["leather"]

/-- A file without a minor revision: its mesh has no box and its vertices have no attributes, its one
node is a bone node with index minus zero and a flag other than one, and a byte follows it. -/
def oldFile : List UInt8 :=
  legacyMagic ++ [3] ++ List.replicate 7 0
    ++ [1, 0, 0, 0] ++ [0, 0, 0, 0] ++ [2, 0, 0, 0]
    ++ [1, 0, 0, 0] ++ [97, 0] ++ [0, 0, 0, 0x80] ++ [2] ++ List.replicate 32 0xff
    ++ [0, 0, 0, 0] ++ [0, 0, 0, 0]
    ++ [1, 0, 0, 0] ++ [0, 0, 0, 0] ++ List.replicate 32 0x80
    ++ [1, 0, 0, 0] ++ [109, 0] ++ [0xff]

/-- The model in that file. -/
def oldModel : Model :=
  let motion (bits : UInt32) : Geometry.DualQuat Number.Single :=
    ⟨⟨⟨bits⟩, ⟨bits⟩, ⟨bits⟩, ⟨bits⟩⟩, ⟨⟨bits⟩, ⟨bits⟩, ⟨bits⟩, ⟨bits⟩⟩⟩
  let format : VertexFormat := ⟨false, false, false, false, false, false, false, false⟩
  { version := ⟨3, 0⟩
    sharedFormat := some format
    meshes := [{ format, vertices := [{}, {}] }]
    nodes := .ofRoot { name := "a", isBone := true, transform := motion 0xffffffff }
    skeleton := [{ name := "a", offset := motion 0x80808080 }]
    materials := ["m"] }

end SceneBaker.Model.Model
