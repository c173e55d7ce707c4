import SceneBaker.Proofs.Build.Contract
import SceneBaker.Scene.Reduce
import Mathlib.Data.List.Perm.Basic

/-! # Joined meshes

A mesh that was appended to another keeps its faces and its weights, both moved behind the vertices
that were there. What every mesh of a group needs so that it can be built is then true of the group
joined into one, and bones of one name have become one bone.
-/

namespace SceneBaker.Scene

open Number Mesh

variable {α : Type}

/-! ## Bones by name -/

/-- All weights with the names of their bones. -/
def weightsOf (bones : List (SourceBone α)) : List (String × VertexWeight α) :=
  bones.flatMap fun bone => bone.weights.map (bone.name, ·)

theorem influencesAt_eq (bones : List (SourceBone α)) (vertex : Nat) :
    influencesAt bones vertex =
      ((weightsOf bones).filter (·.2.vertex.toNat = vertex)).map fun entry =>
        (entry.1, entry.2.weight) := by
  induction bones with
  | nil => rfl
  | cons bone bones ih =>
    simp only [influencesAt, weightsOf, List.flatMap_cons, List.filter_append, List.map_append,
      List.filter_map, List.map_map] at ih ⊢
    rw [ih]
    rfl

/-- A bone's weights are all kept, wherever its name puts them. -/
theorem perm_weightsOf_addBone (bones : List (SourceBone α)) (bone : SourceBone α) :
    (weightsOf (SourceMesh.addBone bones bone)).Perm (weightsOf bones ++ weightsOf [bone]) := by
  induction bones with
  | nil => exact .refl _
  | cons first rest ih =>
    rw [SourceMesh.addBone]
    split
    case isTrue same =>
      have name : first.name = bone.name := by simpa using same
      simp only [weightsOf, List.flatMap_cons, List.flatMap_nil, List.append_nil, List.map_append,
        name, List.append_assoc]
      exact List.perm_append_comm.append_left _
    case isFalse =>
      simp only [weightsOf, List.flatMap_cons, List.append_assoc] at ih ⊢
      exact ih.append_left _

theorem perm_weightsOf_foldl_addBone (bones more : List (SourceBone α)) :
    (weightsOf (more.foldl SourceMesh.addBone bones)).Perm (weightsOf bones ++ weightsOf more) := by
  induction more generalizing bones with
  | nil => simp [weightsOf]
  | cons bone more ih =>
    have split : weightsOf (bone :: more) = weightsOf [bone] ++ weightsOf more := by
      simp [weightsOf]
    rw [List.foldl_cons, split, ← List.append_assoc]
    exact (ih _).trans ((perm_weightsOf_addBone bones bone).append_right _)

theorem mem_names_addBone (bones : List (SourceBone α)) (bone : SourceBone α) (name : String) :
    name ∈ (SourceMesh.addBone bones bone).map (·.name) ↔
      name ∈ bones.map (·.name) ∨ name = bone.name := by
  induction bones with
  | nil => simp [SourceMesh.addBone]
  | cons first rest ih =>
    rw [SourceMesh.addBone]
    split
    case isTrue same =>
      have name : first.name = bone.name := by simpa using same
      simp only [List.map_cons, List.mem_cons, name]
      tauto
    case isFalse =>
      simp only [List.map_cons, List.mem_cons, ih, or_assoc]

theorem mem_names_foldl_addBone (bones more : List (SourceBone α)) (name : String) :
    name ∈ (more.foldl SourceMesh.addBone bones).map (·.name) ↔
      name ∈ bones.map (·.name) ∨ name ∈ more.map (·.name) := by
  induction more generalizing bones with
  | nil => simp
  | cons bone more ih =>
    rw [List.foldl_cons, ih, mem_names_addBone, List.map_cons, List.mem_cons, or_assoc]

namespace SourceMesh

/-- Bones whose weights stand behind some vertices. -/
def movedBones (bones : List (SourceBone α)) (offset : UInt32) : List (SourceBone α) :=
  bones.map fun bone =>
    { bone with
      weights := bone.weights.map fun weight => { weight with vertex := weight.vertex + offset } }

variable {mesh other : SourceMesh α}

theorem bones_append (mesh other : SourceMesh α) : (mesh.append other).bones =
    (movedBones other.bones (UInt32.ofNat mesh.positions.size)).foldl addBone mesh.bones := rfl

theorem faces_append (mesh other : SourceMesh α) : (mesh.append other).faces =
    mesh.faces ++ other.faces.map (·.map (· + UInt32.ofNat mesh.positions.size)) := rfl

theorem positions_append (mesh other : SourceMesh α) :
    (mesh.append other).positions = mesh.positions ++ other.positions := rfl

/-- An attribute of two meshes together. -/
def extended {β : Type} (first second : Option (Array β)) : Option (Array β) :=
  match first, second with
  | some first, some second => some (first ++ second)
  | first, _ => first

theorem isSome_extended {β : Type} (first second : Option (Array β)) :
    (extended first second).isSome = first.isSome := by
  cases first <;> cases second <;> rfl

section

variable (mesh other : SourceMesh α)

theorem normals_append : (mesh.append other).normals = extended mesh.normals other.normals := rfl

theorem uv0_append : (mesh.append other).uv0 = extended mesh.uv0 other.uv0 := rfl

theorem uv1_append : (mesh.append other).uv1 = extended mesh.uv1 other.uv1 := rfl

theorem colors_append : (mesh.append other).colors = extended mesh.colors other.colors := rfl

theorem tangents_append :
    (mesh.append other).tangents = extended mesh.tangents other.tangents := rfl

theorem bitangents_append :
    (mesh.append other).bitangents = extended mesh.bitangents other.bitangents := rfl

end

theorem names_movedBones (bones : List (SourceBone α)) (offset : UInt32) :
    (movedBones bones offset).map (·.name) = bones.map (·.name) := by
  rw [movedBones, List.map_map]
  rfl

theorem weightsOf_movedBones (bones : List (SourceBone α)) (offset : UInt32) :
    weightsOf (movedBones bones offset) = (weightsOf bones).map fun entry =>
      (entry.1, { entry.2 with vertex := entry.2.vertex + offset }) := by
  simp [weightsOf, movedBones, List.flatMap_map, List.map_flatMap, Function.comp_def]

theorem mem_names_append (mesh other : SourceMesh α) (name : String) :
    name ∈ (mesh.append other).bones.map (·.name) ↔
      name ∈ mesh.bones.map (·.name) ∨ name ∈ other.bones.map (·.name) := by
  rw [bones_append, mem_names_foldl_addBone, names_movedBones]

theorem weighted_iff : mesh.Weighted ↔
    ∀ entry ∈ weightsOf mesh.bones, entry.2.vertex.toNat < mesh.positions.size := by
  simp only [Weighted, weightsOf, List.mem_flatMap, List.mem_map]
  constructor
  · rintro weighted entry ⟨bone, member, weight, among, rfl⟩
    exact weighted bone member weight among
  · intro weighted bone member weight among
    exact weighted (bone.name, weight) ⟨bone, member, weight, among, rfl⟩

/-! ## What appending keeps -/

/-- A vertex that moves behind others is one of all of them, even where 32 bits wrap around. -/
theorem toNat_add_ofNat_lt {vertex : UInt32} {first second : Nat} (inside : vertex.toNat < second) :
    (vertex + UInt32.ofNat first).toNat < first + second := by
  have sum : (vertex + UInt32.ofNat first).toNat ≤ vertex.toNat + first := by
    rw [UInt32.toNat_add, UInt32.toNat_ofNat']
    exact (Nat.mod_le ..).trans (Nat.add_le_add_left (Nat.mod_le ..) _)
  omega

theorem faced_append (same : mesh.primitive = other.primitive) :
    (mesh.append other).Faced ↔ mesh.Faced ∧ other.Faced := by
  have primitive : (mesh.append other).primitive = mesh.primitive := rfl
  simp only [Faced, faces_append, primitive, List.forall_mem_append, List.forall_mem_map,
    List.length_map, same]

theorem Cornered.append (first : mesh.Cornered) (second : other.Cornered) :
    (mesh.append other).Cornered := by
  simp only [Cornered, faces_append, positions_append, Array.size_append, List.forall_mem_append,
    List.forall_mem_map]
  constructor
  · intro face member corner among
    exact (first face member corner among).trans_le (Nat.le_add_right ..)
  · intro face member corner among
    exact toNat_add_ofNat_lt (second face member corner among)

theorem Weighted.append (first : mesh.Weighted) (second : other.Weighted) :
    (mesh.append other).Weighted := by
  rw [weighted_iff] at first second ⊢
  intro entry member
  rw [bones_append] at member
  rw [positions_append, Array.size_append]
  rcases List.mem_append.mp ((perm_weightsOf_foldl_addBone _ _).subset member) with own | moved
  · exact (first entry own).trans_le (Nat.le_add_right ..)
  · rw [weightsOf_movedBones] at moved
    obtain ⟨old, listed, rfl⟩ := List.mem_map.mp moved
    exact toNat_add_ofNat_lt (second old listed)

theorem hasBones_eq_true_iff : mesh.hasBones = true ↔ ∃ name, name ∈ mesh.bones.map (·.name) := by
  rw [hasBones, Bool.not_eq_true', List.isEmpty_eq_false_iff_exists_mem]
  simp

/-- The attributes of a mesh stay those it has when a mesh that agrees is appended. -/
theorem mergeKey_append (same : mesh.mergeKey = other.mergeKey) :
    (mesh.append other).mergeKey = mesh.mergeKey := by
  have bones : (mesh.append other).hasBones = mesh.hasBones := by
    have agree : mesh.hasBones = other.hasBones := by
      simp only [mergeKey, MergeKey.mk.injEq, List.cons.injEq] at same
      exact same.2.2.2.2.2.2.2.1
    rw [Bool.eq_iff_iff] at agree ⊢
    rw [hasBones_eq_true_iff] at agree ⊢
    simp only [hasBones_eq_true_iff, mem_names_append, exists_or] at agree ⊢
    rw [← agree, or_self]
  rw [mergeKey, bones]
  simp only [hasTangents, normals_append, uv0_append, uv1_append, colors_append, tangents_append,
    bitangents_append, isSome_extended]
  rfl

end SourceMesh

end SceneBaker.Scene
