import SceneBaker.Proofs.Binary.Size
import SceneBaker.Proofs.Model.Consistency

/-! # When a model can be written

Every table is stored behind its size, in 32 bits. Nothing else about a model can stop it from being
written: not its indices, not its names, and not its numbers.
-/

set_option linter.dupNamespace false

namespace SceneBaker.Mesh

open Binary

theorem complete_encode_vertex (format : VertexFormat) (vertex : Vertex) :
    (vertex.encode format).failure = none := by
  have given (stored : Bool) {output : Output} (complete : output.failure = none) :
      (if stored then output else .empty : Output).failure = none := by
    cases stored with
    | false => rfl
    | true => exact complete
  have bones : (Output.each vertex.boneIndices.toList Output.index ++
      .each vertex.boneWeights.toList Output.single).failure = none := rfl
  simp only [Vertex.encode, Output.failure_append_eq_none_iff]
  exact ⟨⟨⟨⟨⟨⟨⟨given _ rfl, given _ rfl⟩, given _ rfl⟩, given _ rfl⟩, given _ rfl⟩, given _ rfl⟩,
    given _ bones⟩, given _ rfl⟩

theorem Mesh.complete_encode_iff {mesh : Mesh} :
    mesh.encode.failure = none ↔ mesh.vertices.length < 2 ^ 32 := by
  have format : mesh.format.encode.failure = none :=
    Output.failure_each_eq_none_iff.mpr fun _ _ => rfl
  have bounds : mesh.storedBounds.encode.failure = none := rfl
  have vertices : (Output.each mesh.vertices (Vertex.encode mesh.format)).failure = none :=
    Output.failure_each_eq_none_iff.mpr fun vertex _ => complete_encode_vertex mesh.format vertex
  simp only [Mesh.encode, Output.failure_append_eq_none_iff, Output.failure_count_eq_none_iff,
    format, bounds, vertices, and_true]
  exact ⟨fun all => all.2, fun few => ⟨⟨rfl, rfl⟩, few⟩⟩

end SceneBaker.Mesh

namespace SceneBaker.Model

open Binary Mesh

theorem Node.complete_encode_iff {node : Node} : node.encode.failure = none ↔
    node.meshes.length < 2 ^ 32 ∧ node.children.length < 2 ^ 32 := by
  have front : (Output.text node.name ++ .index node.index ++ .bool node.isBone ++
      .dualQuat node.transform).failure = none := rfl
  have meshes : (Output.each node.meshes Output.u32).failure = none :=
    Output.failure_each_eq_none_iff.mpr fun _ _ => rfl
  simp only [Node.encode, Output.failure_append_eq_none_iff, Output.failure_count_eq_none_iff,
    meshes, and_true] at front ⊢
  exact and_congr_left fun _ => ⟨fun all => all.2, fun few => ⟨front, few⟩⟩

/-- A tree with a node for every index has no more children below one node than that. -/
theorem NodeTree.Spells.complete_encode_iff {tree : NodeTree} {forest : Forest Nat}
    (spells : tree.Spells forest) (small : tree.size < 2 ^ 32) :
    tree.encode.failure = none ↔ ∀ node ∈ tree.nodes.toList, node.meshes.length < 2 ^ 32 := by
  have nodes : ((arena 0 (forest.map tree.label)).map Node.bare).Perm
      (tree.nodes.toList.map Node.bare) := by
    rw [map_bare_arena, Forest.preorder_map, List.map_map]
    exact spells.perm_label
  have counts : ((arena 0 (forest.map tree.label)).map (·.meshes.length)).Perm
      (tree.nodes.toList.map (·.meshes.length)) := by
    simpa [Function.comp_def, Node.bare] using nodes.map (·.meshes.length)
  have few (node : Node) (member : node ∈ arena 0 (forest.map tree.label)) :
      node.children.length < 2 ^ 32 := by
    obtain ⟨alone, -, part, first, rfl, bound⟩ := exists_of_mem_arena member
    have roots := part.length_roots_le
    rw [Forest.size_map, spells.size_eq] at bound
    change (part.number first).roots.length < _
    rw [part.length_roots_number]
    omega
  have listed : (∀ node ∈ arena 0 (forest.map tree.label), node.meshes.length < 2 ^ 32) ↔
      ∀ node ∈ tree.nodes.toList, node.meshes.length < 2 ^ 32 := by
    have same : (∀ count ∈ (arena 0 (forest.map tree.label)).map (·.meshes.length), count < 2 ^ 32) ↔
        ∀ count ∈ tree.nodes.toList.map (·.meshes.length), count < 2 ^ 32 :=
      forall_congr' fun count => imp_congr_left counts.mem_iff
    rwa [List.forall_mem_map, List.forall_mem_map] at same
  rw [spells.encode_eq, Output.failure_each_eq_none_iff, ← listed]
  refine forall₂_congr fun node member => ?_
  rw [Node.complete_encode_iff, and_iff_left (few node member)]

namespace Model

variable {model : Model}

/-- The tree of a model is stored if its sizes fit; an empty tree is stored as a root. -/
theorem complete_encode_storedTree_iff {forest : Forest Nat}
    (spells : model.nodes.Spells forest) :
    (model.storedTree.size < 2 ^ 32 ∧ model.storedTree.encode.failure = none) ↔
      model.nodes.size < 2 ^ 32 ∧
        ∀ node ∈ model.nodes.nodes.toList, node.meshes.length < 2 ^ 32 := by
  rw [storedTree]
  split
  case isTrue empty =>
    have none : model.nodes.nodes = #[] := by simpa [NodeTree.isEmpty] using empty
    rw [NodeTree.size, NodeTree.size, none]
    decide +kernel
  case isFalse => exact and_congr_right spells.complete_encode_iff

/-- A model can be written if all sizes that are stored fit their fields. -/
theorem complete_encode_iff {forest : Forest Nat} (spells : model.nodes.Spells forest) :
    model.encode.failure = none ↔ model.Tabled ∧
      (∀ mesh ∈ model.meshes, mesh.vertices.length < 2 ^ 32) ∧
      ∀ node ∈ model.nodes.nodes.toList, node.meshes.length < 2 ^ 32 := by
  have header : (Output.ofBytes magic).failure = none := rfl
  have byte (value : UInt8) : (Output.u8 value).failure = none := rfl
  have bone (bone : Bone) : bone.encode.failure = none := rfl
  have material (name : String) : (Output.text name).failure = none := rfl
  have tree := complete_encode_storedTree_iff spells
  simp only [encode, Output.failure_append_eq_none_iff, Output.failure_count_eq_none_iff,
    Output.failure_each_eq_none_iff, Mesh.complete_encode_iff, header, byte, bone, material,
    implies_true, true_and, and_true]
  constructor
  · rintro ⟨⟨⟨⟨⟨meshes, vertices⟩, size⟩, stored⟩, bones⟩, materials⟩
    obtain ⟨nodes, nodeMeshes⟩ := tree.mp ⟨size, stored⟩
    exact ⟨⟨nodes, bones, meshes, materials⟩, vertices, nodeMeshes⟩
  · rintro ⟨⟨nodes, bones, meshes, materials⟩, vertices, nodeMeshes⟩
    obtain ⟨size, stored⟩ := tree.mpr ⟨nodes, nodeMeshes⟩
    exact ⟨⟨⟨⟨⟨meshes, vertices⟩, size⟩, stored⟩, bones⟩, materials⟩

end Model
end SceneBaker.Model
