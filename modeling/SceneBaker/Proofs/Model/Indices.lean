import SceneBaker.Model.Basic
import SceneBaker.Proofs.Mesh.Recovery
import SceneBaker.Proofs.Model.Arena
import SceneBaker.Proofs.Steps

/-! # Stored indices

`model.Indexed` is what validation checks: every stored index lies inside its table, and no two
nodes and no two bones share one. The nodes and the bones are then numbered without gaps, and bone
names can be recovered from the bone nodes in any order.
-/

set_option linter.dupNamespace false

namespace SceneBaker.Model

open Binary Mesh Steps

/-- Distinct indices below their own number are all numbers below it. -/
theorem perm_range_of_lt {indices : List UInt32} (distinct : indices.Nodup)
    (inside : ∀ index ∈ indices, index < UInt32.ofNat indices.length) :
    indices.length < 2 ^ 32 ∧
      (indices.map UInt32.toNat).Perm (List.range indices.length) := by
  have numbers : (indices.map UInt32.toNat).Nodup :=
    distinct.map fun _ _ => UInt32.toNat_inj.mp
  have below : indices.map UInt32.toNat ⊆ List.range (indices.length % 2 ^ 32) := by
    intro number member
    obtain ⟨index, listed, rfl⟩ := List.mem_map.mp member
    simpa using UInt32.lt_iff_toNat_lt.mp (inside index listed)
  have few := (numbers.subperm below).length_le
  simp only [List.length_map, List.length_range] at few
  have small : indices.length < 2 ^ 32 := by omega
  rw [Nat.mod_eq_of_lt small] at below
  refine ⟨small, (numbers.subperm below).perm_of_length_le ?_⟩
  simp

/-- A list has no repetition and nothing that is taken if its first entry is not taken and neither
holds of the rest, for which the first entry is taken too. -/
theorem nodup_and_forall_cons {taken after : UInt32 → Prop} {first : UInt32} {rest : List UInt32}
    (marks : ∀ other, after other ↔ other = first ∨ taken other) :
    ((first :: rest).Nodup ∧ ∀ other ∈ first :: rest, ¬taken other) ↔
      ¬taken first ∧ rest.Nodup ∧ ∀ other ∈ rest, ¬after other := by
  simp only [List.nodup_cons, List.forall_mem_cons, marks, not_or]
  constructor
  · rintro ⟨⟨new, distinct⟩, own, others⟩
    refine ⟨own, distinct, fun other member => ⟨?_, others other member⟩⟩
    rintro rfl
    exact new member
  · rintro ⟨own, distinct, others⟩
    exact ⟨⟨fun member => (others _ member).1 rfl, distinct⟩, own, fun other member =>
      (others other member).2⟩

namespace Model

variable {model : Model}

/-! ## Marks -/

/-- The indices are distinct and none of them is marked. -/
def Fresh (seen : Array Bool) (indices : List UInt32) : Prop :=
  indices.Nodup ∧ ∀ index ∈ indices, seen[index.toNat]? ≠ some true

theorem fresh_cons {seen : Array Bool} {index : UInt32} {indices : List UInt32}
    (inside : index.toNat < seen.size) :
    Fresh seen (index :: indices) ↔ seen[index.toNat]? ≠ some true ∧
      Fresh (seen.setIfInBounds index.toNat true) indices := by
  refine nodup_and_forall_cons fun other => ?_
  rw [Array.getElem?_setIfInBounds]
  by_cases same : index = other
  · simp [same, same ▸ inside]
  · simp [same, Ne.symm same, UInt32.toNat_inj]

theorem fresh_replicate (size : Nat) (indices : List UInt32) :
    Fresh (Array.replicate size false) indices ↔ indices.Nodup := by
  simp [Fresh, Array.getElem?_replicate]

theorem checkIndex_eq_ok_iff {table : Table} {index count : UInt32} :
    checkIndex table index count = .ok () ↔ index < count := by
  rw [checkIndex]
  split <;> simp_all

theorem checkNew_eq_ok_iff {table : Table} {seen marked : Array Bool} {index count : UInt32} :
    checkNew table seen index count = .ok marked ↔ index < count ∧
      seen[index.toNat]? ≠ some true ∧ seen.setIfInBounds index.toNat true = marked := by
  rw [checkNew, then_eq_ok_iff, checkIndex_eq_ok_iff]
  refine and_congr_right fun _ => ?_
  split
  case isTrue marked => simp [marked, bind, Except.bind]
  case isFalse new => simp [new, pure, Except.pure]

/-! ## Validation -/

/-- The indices of a node lie in their tables. -/
structure NodeFits (model : Model) (node : Node) : Prop where
  inside : node.index < model.nodeCount
  bone : node.isBone = true → node.index < model.boneCount
  meshes : ∀ mesh ∈ node.meshes, mesh < UInt32.ofNat model.meshes.length

/-- The indices of a mesh lie in their tables, where it uses them. -/
structure MeshFits (model : Model) (mesh : Mesh) : Prop where
  material : mesh.material < UInt32.ofNat model.materials.length
  bones : mesh.format.bones = true → ∀ vertex ∈ mesh.vertices,
    ∀ influence ∈ vertex.influences, influence.2.numEq 0 = false → influence.1 < model.boneCount

/-- Every index lies in its table, and neither nodes nor bones share one. -/
structure Indexed (model : Model) : Prop where
  nodes : ∀ node ∈ model.nodes.nodes.toList, model.NodeFits node
  distinctNodes : (model.nodes.nodes.toList.map (·.index)).Nodup
  bones : ∀ bone ∈ model.skeleton, bone.index < model.boneCount
  distinctBones : (model.skeleton.map (·.index)).Nodup
  meshes : ∀ mesh ∈ model.meshes, model.MeshFits mesh

theorem nodeCount_le (model : Model) : model.nodeCount.toNat ≤ model.nodes.size :=
  UInt32.toNat_ofNat' ▸ Nat.mod_le ..

theorem boneCount_le (model : Model) : model.boneCount.toNat ≤ model.skeleton.length :=
  UInt32.toNat_ofNat' ▸ Nat.mod_le ..

theorem checkNodes_eq_ok_iff {seen : Array Bool} (large : model.nodeCount.toNat ≤ seen.size)
    {nodes : List Node} : model.checkNodes seen nodes = .ok () ↔
      (∀ node ∈ nodes, model.NodeFits node) ∧ Fresh seen (nodes.map (·.index)) := by
  induction nodes generalizing seen with
  | nil => simp [checkNodes, Fresh]
  | cons node nodes ih =>
    have inside (fits : node.index < model.nodeCount) : node.index.toNat < seen.size :=
      (UInt32.lt_iff_toNat_lt.mp fits).trans_le large
    have bone : (if node.isBone = true then checkIndex .bone node.index model.boneCount
        else pure ()) = .ok () ↔ (node.isBone = true → node.index < model.boneCount) := by
      split
      case isTrue flagged => simp [flagged, checkIndex_eq_ok_iff]
      case isFalse plain => simp [plain, pure, Except.pure]
    have meshes : node.meshes.forM (checkIndex .mesh · (UInt32.ofNat model.meshes.length)) =
        .ok () ↔ ∀ mesh ∈ node.meshes, mesh < UInt32.ofNat model.meshes.length := by
      simp only [forM_eq_ok_iff, checkIndex_eq_ok_iff]
    have step : model.checkNodes seen (node :: nodes) =
        checkNew .node seen node.index model.nodeCount >>= fun marked =>
          (if node.isBone = true then checkIndex .bone node.index model.boneCount else pure ()) >>=
          fun _ => node.meshes.forM (checkIndex .mesh · (UInt32.ofNat model.meshes.length)) >>=
          fun _ => model.checkNodes marked nodes := by
      rw [checkNodes]
      split <;> rfl
    rw [step, bind_eq_ok_iff]
    simp only [then_eq_ok_iff]
    constructor
    · rintro ⟨marked, first, flag, listed, rest⟩
      obtain ⟨fits, new, rfl⟩ := checkNew_eq_ok_iff.mp first
      obtain ⟨others, fresh⟩ := (ih (by simpa using large)).mp rest
      exact ⟨List.forall_mem_cons.mpr ⟨⟨fits, bone.mp flag, meshes.mp listed⟩, others⟩,
        (fresh_cons (inside fits)).mpr ⟨new, fresh⟩⟩
    · rintro ⟨fits, fresh⟩
      obtain ⟨own, others⟩ := List.forall_mem_cons.mp fits
      obtain ⟨new, fresh⟩ := (fresh_cons (inside own.inside)).mp fresh
      exact ⟨_, checkNew_eq_ok_iff.mpr ⟨own.inside, new, rfl⟩, bone.mpr own.bone,
        meshes.mpr own.meshes, (ih (by simpa using large)).mpr ⟨others, fresh⟩⟩

theorem checkBones_eq_ok_iff {seen : Array Bool} (large : model.boneCount.toNat ≤ seen.size)
    {bones : List Bone} : model.checkBones seen bones = .ok () ↔
      (∀ bone ∈ bones, bone.index < model.boneCount) ∧ Fresh seen (bones.map (·.index)) := by
  induction bones generalizing seen with
  | nil => simp [checkBones, Fresh]
  | cons bone bones ih =>
    have inside (fits : bone.index < model.boneCount) : bone.index.toNat < seen.size :=
      (UInt32.lt_iff_toNat_lt.mp fits).trans_le large
    rw [checkBones, bind_eq_ok_iff]
    constructor
    · rintro ⟨marked, first, rest⟩
      obtain ⟨fits, new, rfl⟩ := checkNew_eq_ok_iff.mp first
      obtain ⟨others, fresh⟩ := (ih (by simpa using large)).mp rest
      exact ⟨List.forall_mem_cons.mpr ⟨fits, others⟩, (fresh_cons (inside fits)).mpr ⟨new, fresh⟩⟩
    · rintro ⟨fits, fresh⟩
      obtain ⟨own, others⟩ := List.forall_mem_cons.mp fits
      obtain ⟨new, fresh⟩ := (fresh_cons (inside own)).mp fresh
      exact ⟨_, checkNew_eq_ok_iff.mpr ⟨own, new, rfl⟩,
        (ih (by simpa using large)).mpr ⟨others, fresh⟩⟩

theorem checkMesh_eq_ok_iff {mesh : Mesh} : model.checkMesh mesh = .ok () ↔ model.MeshFits mesh := by
  have influence (bone : UInt32) (weight : Number.Single) :
      (if weight.numEq 0 = true then .ok () else checkIndex .bone bone model.boneCount) = .ok () ↔
        (weight.numEq 0 = false → bone < model.boneCount) := by
    split
    case isTrue zero => simp [zero]
    case isFalse weighted => simp [weighted, checkIndex_eq_ok_iff]
  rw [checkMesh, then_eq_ok_iff, checkIndex_eq_ok_iff]
  split
  case isTrue stored =>
    simp only [forM_eq_ok_iff, influence]
    exact ⟨fun ⟨material, bones⟩ => ⟨material, fun _ => bones⟩,
      fun fits => ⟨fits.material, fits.bones stored⟩⟩
  case isFalse absent =>
    exact ⟨fun ⟨material, _⟩ => ⟨material, fun stored => absurd stored absent⟩,
      fun fits => ⟨fits.material, rfl⟩⟩

/-- Validation accepts a model if every index lies in its table and none is used twice. -/
theorem validate_eq_ok_iff : model.validate = .ok () ↔ model.Indexed := by
  rw [validate, then_eq_ok_iff, then_eq_ok_iff, checkNodes_eq_ok_iff (by simpa using nodeCount_le _),
    checkBones_eq_ok_iff (by simpa using boneCount_le _), fresh_replicate, fresh_replicate,
    forM_eq_ok_iff]
  simp only [checkMesh_eq_ok_iff]
  exact ⟨fun ⟨⟨nodes, distinctNodes⟩, ⟨bones, distinctBones⟩, meshes⟩ =>
    ⟨nodes, distinctNodes, bones, distinctBones, meshes⟩, fun indexed =>
    ⟨⟨indexed.nodes, indexed.distinctNodes⟩, ⟨indexed.bones, indexed.distinctBones⟩,
      indexed.meshes⟩⟩

namespace Indexed

/-- The nodes are numbered without gaps. -/
theorem perm_nodes (indexed : model.Indexed) : model.nodes.size < 2 ^ 32 ∧
    (model.nodes.nodes.toList.map (·.index.toNat)).Perm (List.range model.nodes.size) := by
  have number := perm_range_of_lt indexed.distinctNodes fun index member => by
    obtain ⟨node, among, rfl⟩ := List.mem_map.mp member
    simpa [NodeTree.size, nodeCount] using (indexed.nodes node among).inside
  simpa [NodeTree.size, Function.comp_def] using number

/-- The bones are numbered without gaps. -/
theorem perm_bones (indexed : model.Indexed) : model.skeleton.length < 2 ^ 32 ∧
    (model.skeleton.map (·.index.toNat)).Perm (List.range model.skeleton.length) := by
  have number := perm_range_of_lt indexed.distinctBones fun index member => by
    obtain ⟨bone, among, rfl⟩ := List.mem_map.mp member
    simpa [boneCount] using indexed.bones bone among
  simpa [Function.comp_def] using number

theorem index_lt_size (indexed : model.Indexed) {node : Node}
    (member : node ∈ model.nodes.nodes.toList) : node.index.toNat < model.nodes.size :=
  (UInt32.lt_iff_toNat_lt.mp (indexed.nodes node member).inside).trans_le model.nodeCount_le

/-- Every index below the number of bones is that of a bone. -/
theorem exists_bone (indexed : model.Indexed) {index : UInt32} (inside : index < model.boneCount) :
    ∃ bone ∈ model.skeleton, model.bone? index = some bone ∧ bone.index = index := by
  have below := (UInt32.lt_iff_toNat_lt.mp inside).trans_le model.boneCount_le
  obtain ⟨bone, member, same⟩ :=
    List.mem_map.mp (indexed.perm_bones.2.mem_iff.mpr (List.mem_range.mpr below))
  have present : (model.bone? index).isSome :=
    List.find?_isSome.mpr ⟨bone, member, by simpa using UInt32.toNat_inj.mp same⟩
  obtain ⟨found, lookup⟩ := Option.isSome_iff_exists.mp present
  exact ⟨found, List.mem_of_find?_eq_some lookup, lookup, by simpa using List.find?_some lookup⟩

end Indexed

end Model
end SceneBaker.Model
