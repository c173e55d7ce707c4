import SceneBaker.Build.Model
import SceneBaker.Proofs.Build.Mesh
import SceneBaker.Proofs.Build.NodeTree
import SceneBaker.Proofs.Model.Consistency
import SceneBaker.Proofs.Model.Recovery

/-! # Built models through their files

A built model is never checked before it is written. It is valid all the same, and its file gives it
back: its arena stands in preorder, its bones have the names of their nodes, and its vertices hold
nothing outside their formats.
-/

set_option linter.dupNamespace false

namespace SceneBaker.Build

open Number SceneBaker.Geometry Binary Mesh Model Scene Steps

/-- A scene whose indices lead somewhere, whose names can be stored as text, and whose nodes have
indices that are exact as numbers. -/
structure Sound (scene : Scene Single) : Prop where
  nodeMeshes : ∀ node ∈ scene.nodes, ∀ mesh ∈ node.meshes, mesh < scene.meshes.size
  materials : ∀ mesh ∈ scene.meshes, mesh.material.toNat < scene.materials.size
  nodeNames : ∀ node ∈ scene.nodes, Reader.Unbroken node.name
  materialNames : ∀ material ∈ scene.materials, Reader.Unbroken material.name
  nodeCount : scene.nodes.size ≤ 2 ^ 24

/-- A scene whose indices lead somewhere and are exact as numbers, whatever its names are. -/
structure Resolved (scene : Scene Single) : Prop where
  nodeMeshes : ∀ node ∈ scene.nodes, ∀ mesh ∈ node.meshes, mesh < scene.meshes.size
  materials : ∀ mesh ∈ scene.meshes, mesh.material.toNat < scene.materials.size
  nodeCount : scene.nodes.size ≤ 2 ^ 24

theorem Sound.resolved {scene : Scene Single} (sound : Sound scene) : Resolved scene :=
  ⟨sound.nodeMeshes, sound.materials, sound.nodeCount⟩

/-- A model with no table of 2³² entries or more. -/
structure Small (model : Model) : Prop where
  tables : model.Tabled
  vertices : ∀ mesh ∈ model.meshes, mesh.vertices.length < 2 ^ 32
  nodeMeshes : ∀ node ∈ model.nodes.nodes.toList, node.meshes.length < 2 ^ 32

instance (model : Model) : Decidable (Small model) :=
  decidable_of_iff (model.Tabled ∧ (∀ mesh ∈ model.meshes, mesh.vertices.length < 2 ^ 32) ∧
      ∀ node ∈ model.nodes.nodes.toList, node.meshes.length < 2 ^ 32)
    ⟨fun ⟨tables, vertices, nodeMeshes⟩ => ⟨tables, vertices, nodeMeshes⟩,
      fun small => ⟨small.tables, small.vertices, small.nodeMeshes⟩⟩

/-- A model as it is built from a scene: the tree is numbered and its arena is in preorder, and the
meshes and materials are those of the scene in order. -/
structure BuiltModel (scene : Scene Single) (skeleton : Skeleton) (forest : Forest Nat)
    (model : Model) : Prop where
  current : model.version = .current
  unshared : model.sharedFormat = none
  few : model.nodes.size ≤ scene.nodes.size
  collects : ∃ sources, skeleton.Collects sources
  bones : model.skeleton = skeleton.bones
  materials : model.materials = scene.materials.toList.map (·.name)
  meshes : List.Forall₂ (Built · skeleton ·) scene.meshes.toList model.meshes
  spells : model.nodes.Spells (forest.number 0)
  inOrder : .ofForest ((forest.number 0).map model.nodes.label) = model.nodes
  numbered : Numbered skeleton (reached scene forest) model.nodes

variable {scene : Scene Single} {settings : Settings} {forest : Forest Nat} {model : Model}

theorem built_of_buildModel (unfolds : scene.links.Unfolds [0] forest)
    (distinct : forest.preorder.Nodup) (success : buildModel scene settings = .ok model)
    (small : model.skeleton.length < 2 ^ 32) :
    BuiltModel scene (Skeleton.collect scene settings) forest model := by
  rw [buildModel] at success
  split at success
  case isTrue => cases success
  case isFalse =>
    obtain ⟨tree, planted, rest⟩ := bind_eq_ok_iff.mp success
    obtain ⟨meshes, traversed, made⟩ := bind_eq_ok_iff.mp rest
    obtain rfl := Except.ok.inj made
    have collects := Skeleton.collects_collect scene settings
    rw [nodeTree_eq unfolds distinct] at planted
    obtain ⟨nodes, counted, assembled⟩ := map_eq_ok_iff.mp planted
    obtain ⟨apart, all, rfl⟩ := numberNodes_eq_ok_iff.mp counted
    have length := (length_numbered (Skeleton.collect scene settings)
      (UInt32.ofNat (Skeleton.collect scene settings).size) _).trans (length_reached unfolds)
    have childless (node : Node) (member : node ∈ numbered (Skeleton.collect scene settings)
        (UInt32.ofNat (Skeleton.collect scene settings).size) (reached scene forest)) :
        node.children = [] := (of_mem_numbered _ _ _ member).1
    obtain ⟨shape, nodes⟩ := spells_assemble unfolds length childless assembled
    constructor
    case current => rfl
    case unshared => rfl
    case few =>
      rw [← shape.size_eq, Forest.size_number]
      simpa [Scene.links] using unfolds.size_le distinct
    case collects => exact ⟨_, collects⟩
    case bones => rfl
    case materials => exact Array.toList_map ..
    case meshes =>
      refine (mapM_eq_ok_iff.mp traversed).imp ?_
      intro source mesh built
      exact built_of_buildMesh rfl built
    case spells => exact shape
    case inOrder =>
      exact ofForest_assemble unfolds length childless assembled
    case numbered =>
      simp only [covers_nil, false_or, collects.covers_all_iff small.le] at all
      exact collects.numbered_tree small.le apart all shape nodes

/-- Stored numbers from zero on are the numbers themselves. -/
theorem perm_range_of_perm_ofNat {indices : List UInt32} {count : Nat} (small : count < 2 ^ 32)
    (perm : indices.Perm ((List.range count).map UInt32.ofNat)) :
    (indices.map UInt32.toNat).Perm (List.range count) := by
  have numbers : ((List.range count).map UInt32.ofNat).map UInt32.toNat = List.range count := by
    rw [List.map_map]
    conv_rhs => rw [← List.map_id (List.range count)]
    apply List.map_congr_left
    intro number member
    have inside := List.mem_range.mp member
    exact UInt32.toNat_ofNat_of_lt' (by change _ < 2 ^ 32; omega)
  exact numbers ▸ perm.map UInt32.toNat

namespace BuiltModel

variable {skeleton : Skeleton}

/-- Every node is that of a source. -/
theorem exists_source (built : BuiltModel scene skeleton forest model) {node : Node}
    (member : node ∈ model.nodes.nodes.toList) : ∃ source ∈ reached scene forest,
      source.name = node.name ∧ source.meshes.map UInt32.ofNat = node.meshes := by
  have entry := List.mem_map_of_mem
    (f := fun node : Node => (node.name, node.transform, node.meshes)) member
  rw [built.numbered.sources_eq] at entry
  obtain ⟨source, listed, same⟩ := List.mem_map.mp entry
  simp only [Prod.mk.injEq] at same
  exact ⟨source, listed, same.1, same.2.2⟩

theorem exists_built (built : BuiltModel scene skeleton forest model) {mesh : Mesh}
    (member : mesh ∈ model.meshes) : ∃ source ∈ scene.meshes, Built source skeleton mesh := by
  obtain ⟨source, listed, made⟩ := exists_of_mem_forall₂ built.meshes member
  exact ⟨source, Array.mem_toList_iff.mp listed, made⟩

theorem perm_bones (built : BuiltModel scene skeleton forest model) (tables : model.Tabled) :
    (model.skeleton.map (·.index.toNat)).Perm (List.range model.skeleton.length) := by
  obtain ⟨sources, collects⟩ := built.collects
  have small := tables.bones
  rw [built.bones] at small ⊢
  have perm := perm_range_of_perm_ofNat small (.of_eq collects.indices_eq)
  rwa [List.map_map] at perm

/-- The bone nodes have the indices of the bones. -/
theorem perm_boneNodes (built : BuiltModel scene skeleton forest model) (tables : model.Tabled) :
    ((model.nodes.nodes.toList.filter (·.isBone)).map (·.index.toNat)).Perm
      (List.range model.skeleton.length) := by
  have small := tables.bones
  rw [built.bones] at small ⊢
  have perm := perm_range_of_perm_ofNat small built.numbered.boneIndices
  rwa [List.map_map] at perm

theorem consistent_of_resolved (built : BuiltModel scene skeleton forest model)
    (resolved : Resolved scene) (tables : model.Tabled) : model.Consistent := by
  have meshCount : model.meshes.length = scene.meshes.size := by
    rw [← built.meshes.length_eq, Array.length_toList]
  have materialCount : model.materials.length = scene.materials.size := by
    rw [built.materials, List.length_map, Array.length_toList]
  have bones := built.perm_bones tables
  constructor
  case nodes =>
    have perm := perm_range_of_perm_ofNat tables.nodes built.numbered.nodeIndices
    rwa [List.map_map] at perm
  case boneNodes =>
    intro node member flagged
    apply List.mem_range.mp
    apply (built.perm_boneNodes tables).subset
    exact List.mem_map_of_mem (List.mem_filter.mpr ⟨member, flagged⟩)
  case bones => exact bones
  case nodeMeshes =>
    intro node member mesh used
    obtain ⟨source, listed, -, meshes⟩ := built.exists_source member
    obtain ⟨number, named, rfl⟩ := List.mem_map.mp (meshes ▸ used)
    have inside := resolved.nodeMeshes source (mem_nodes_of_mem_reached listed) number named
    rw [UInt32.toNat_ofNat', meshCount]
    exact (Nat.mod_le ..).trans_lt inside
  case materials =>
    intro mesh member
    obtain ⟨source, listed, made⟩ := built.exists_built member
    rw [made.material, materialCount]
    exact resolved.materials source listed
  case influences =>
    intro mesh member _ vertex used influence held weighted
    obtain ⟨source, -, made⟩ := built.exists_built member
    rcases made.influences vertex used influence held with rfl | ⟨bone, listed, same⟩
    · -- The weight of a slot that no bone fills compares equal to zero.
      exact absurd weighted (by decide)
    · rw [← same]
      apply List.mem_range.mp
      rw [← built.bones] at listed
      exact bones.subset (List.mem_map_of_mem listed)

theorem consistent (built : BuiltModel scene skeleton forest model) (sound : Sound scene)
    (tables : model.Tabled) : model.Consistent :=
  built.consistent_of_resolved sound.resolved tables

/-- Every bone has the name of the one node with its index. -/
theorem named (built : BuiltModel scene skeleton forest model) (tables : model.Tabled) :
    model.Named := by
  obtain ⟨sources, collects⟩ := built.collects
  intro bone member
  have listed := built.bones ▸ member
  constructor
  · intro node among flagged same
    have carries := (built.numbered.isBone_iff node among).mp flagged
    obtain ⟨index, lookup⟩ := Skeleton.Collects.exists_lookup skeleton carries
    have own := built.numbered.bone node among index lookup
    rw [← own, same] at lookup
    have few : skeleton.size ≤ 2 ^ 32 := by
      have small := tables.bones
      rw [built.bones] at small
      exact small.le
    exact collects.lookup_inj few lookup (collects.lookup_of_mem listed)
  · intro absent
    have index : bone.index.toNat ∈ List.range model.skeleton.length :=
      (built.perm_bones tables).subset (List.mem_map_of_mem member)
    obtain ⟨node, among, same⟩ :=
      List.mem_map.mp ((built.perm_boneNodes tables).symm.subset index)
    obtain ⟨among, flagged⟩ := List.mem_filter.mp among
    exact absurd (UInt32.toNat_inj.mp same) (absent node among flagged)

/-- There are no more bones than nodes. -/
theorem bones_le (built : BuiltModel scene skeleton forest model) (tables : model.Tabled) :
    model.skeleton.length ≤ model.nodes.size := by
  have length := (built.perm_boneNodes tables).length_eq
  rw [List.length_map, List.length_range] at length
  rw [← length]
  exact List.length_filter_le ..

/-- A file can hold the model of a scene if it can hold the names. -/
theorem portable_of_unbroken (built : BuiltModel scene skeleton forest model)
    (resolved : Resolved scene) (small : Small model)
    (nodeNames : ∀ source ∈ reached scene forest, Reader.Unbroken source.name)
    (materialNames : ∀ material ∈ scene.materials, Reader.Unbroken material.name) :
    model.Portable := by
  have consistent := built.consistent_of_resolved resolved small.tables
  have nodeCount : model.nodes.size ≤ 2 ^ 24 := built.few.trans resolved.nodeCount
  have boneCount : model.skeleton.length ≤ 2 ^ 24 :=
    (built.bones_le small.tables).trans nodeCount
  have nodeIndex := (Model.numbered_of_perm consistent.nodes).2
  have boneIndex := (Model.numbered_of_perm consistent.bones).2
  constructor
  case nodeNames =>
    intro node member
    obtain ⟨source, listed, name, -⟩ := built.exists_source member
    exact name ▸ nodeNames source listed
  case materialNames =>
    intro name member
    rw [built.materials] at member
    obtain ⟨material, listed, rfl⟩ := List.mem_map.mp member
    exact materialNames material (Array.mem_toList_iff.mp listed)
  case meshCount => exact small.tables.meshes
  case vertexCounts => exact small.vertices
  case nodeMeshCounts => exact small.nodeMeshes
  case materialCount => exact small.tables.materials
  case nodeIndices =>
    intro node member
    exact (nodeIndex node member).le.trans nodeCount
  case boneIndices =>
    intro bone member
    exact (boneIndex bone member).le.trans boneCount
  case vertexBones =>
    intro mesh member _ vertex used index held
    obtain ⟨source, -, made⟩ := built.exists_built member
    have indices : vertex.influences.map (·.1) = vertex.boneIndices.toList := rfl
    rw [← indices] at held
    obtain ⟨influence, slot, rfl⟩ := List.mem_map.mp held
    rcases made.influences vertex used influence slot with rfl | ⟨bone, listed, same⟩
    · exact Nat.zero_le _
    · rw [← built.bones] at listed
      rw [← same]
      exact (boneIndex bone listed).le.trans boneCount
  case kept =>
    intro mesh member
    obtain ⟨source, -, made⟩ := built.exists_built member
    exact made.kept

theorem portable (built : BuiltModel scene skeleton forest model) (sound : Sound scene)
    (small : Small model) : model.Portable :=
  built.portable_of_unbroken sound.resolved small
    (fun source listed => sound.nodeNames source (mem_nodes_of_mem_reached listed))
    sound.materialNames

/-- Built meshes are stored with their own boxes, or at the origin without faces. -/
theorem boxed_meshes (built : BuiltModel scene skeleton forest model) :
    model.meshes.map Mesh.boxed = List.zipWith reread scene.meshes.toList model.meshes := by
  have meshes := built.meshes
  generalize scene.meshes.toList = sources at meshes ⊢
  generalize model.meshes = results at meshes ⊢
  induction meshes with
  | nil => rfl
  | cons made _ ih => rw [List.map_cons, List.zipWith_cons_cons, made.boxed_eq, ih]

end BuiltModel

/-- A model that was built from a sound scene in the form of a tree is valid and comes back from its
own bytes, except that a mesh without faces, which has no box, then has one at the origin. -/
theorem ofBytes_toBytes_of_buildModel (unfolds : scene.links.Unfolds [0] forest)
    (distinct : forest.preorder.Nodup) (rooted : 0 < scene.nodes.size) (sound : Sound scene)
    (success : buildModel scene settings = .ok model) (small : Small model) :
    model.validate = .ok () ∧
    model.meshes.length = scene.meshes.size ∧
    (∀ source mesh, (source, mesh) ∈ scene.meshes.toList.zip model.meshes →
      (mesh.bounds = none ↔ source.faces = [])) ∧
    ∃ bytes, model.toBytes = .ok bytes ∧ Model.ofBytes bytes = .ok { model with
      meshes := List.zipWith reread scene.meshes.toList model.meshes } := by
  have built := built_of_buildModel unfolds distinct success small.tables.bones
  have indexed := (built.consistent sound small.tables).indexed small.tables
  have planted : 0 < model.nodes.size := by
    obtain ⟨below, rfl⟩ := unfolds.exists_root (by simpa [Scene.links] using rooted)
    rw [← built.spells.size_eq, Forest.size_number, Forest.size]
    omega
  have recovers := Model.recovers_decode built.spells planted
    (built.portable sound small).encodable indexed (built.named small.tables)
  refine ⟨Model.validate_eq_ok_iff.mpr indexed, ?_, ?_, _, Output.result_eq_ok recovers.complete, ?_⟩
  · rw [← built.meshes.length_eq, Array.length_toList]
  · intro source mesh paired
    exact (List.forall₂_zip built.meshes paired).bounds_eq_none_iff
  · apply Reader.run_eq_ok_iff.mpr
    refine ⟨[], ?_⟩
    rw [recovers.run_bytes, Model.upgrade, built.inOrder, built.boxed_meshes, ← built.current,
      ← built.unshared]

/-- A foot that moves one corner of a triangle, beside a mesh without faces. -/
def posed : Scene Single where
  meshes := #[{ positions := #[0, 0, 0], faces := [[0, 1, 2]], bones := [⟨"foot", 1, [⟨2, 1⟩]⟩] },
    { material := 1, positions := #[0] }]
  materials := #[.plain "skin", .plain "nail"]
  nodes := #[⟨"root", 1, [1, 0], [2, 1]⟩, ⟨"floor", 1, [], []⟩, ⟨"foot", 1, [0], []⟩]

theorem ofBytes_toBytes_of_buildModel_posed :
    posed.links.Unfolds [0] (.cons 0 (.cons 2 .nil (.cons 1 .nil .nil)) .nil) ∧ Sound posed ∧
    ∃ model bytes, buildModel posed {} = .ok model ∧ Small model ∧ model.validate = .ok () ∧
      model.toBytes = .ok bytes ∧ Model.ofBytes bytes = .ok { model with
        meshes := List.zipWith reread posed.meshes.toList model.meshes } := by
  have unfolds : posed.links.Unfolds [0] (.cons 0 (.cons 2 .nil (.cons 1 .nil .nil)) .nil) := by
    have links : posed.links = #[[2, 1], [], []] := by decide +kernel
    rw [links]
    exact .inside rfl (.inside rfl .nil (.inside rfl .nil .nil)) .nil
  have sound : Sound posed := by
    constructor <;> decide
  have result : ((buildModel posed {}).toOption.map fun model => decide (Small model)) = some true := by
    decide +kernel
  obtain ⟨model, success, small⟩ : ∃ model, buildModel posed {} = .ok model ∧ Small model := by
    cases built : buildModel posed {} with
    | error cause => simp [built, Except.toOption] at result
    | ok model => exact ⟨model, rfl, by simpa [built, Except.toOption] using result⟩
  obtain ⟨valid, -, -, bytes, written, read⟩ := ofBytes_toBytes_of_buildModel unfolds (by decide)
    (by decide) sound success small
  exact ⟨unfolds, sound, model, bytes, success, small, valid, written, read⟩

end SceneBaker.Build
