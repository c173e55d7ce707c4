import SceneBaker.Proofs.Model.BoneNames
import SceneBaker.Proofs.Model.TreeRecovery

/-! # Recovery of models

A model that can be stored is read back with its arena in preorder and with the bounds that were
stored for its meshes. Everything that was read can be stored.
-/

set_option linter.dupNamespace false

namespace SceneBaker.Model

open Binary Mesh

@[simp] theorem Bone.index_unnamed (bone : Bone) : bone.unnamed.index = bone.index := rfl

theorem Bone.recovers_decode {bone : Bone} (storable : Storable bone.index) :
    Bone.decode.Recovers bone.encode bone.unnamed :=
  (Reader.recovers_index storable .bone).bind ((Reader.recovers_dualQuat _).bind_pure _)

theorem Bone.ensures_decode :
    Bone.decode.Ensures fun bone => Storable bone.index ∧ bone.name = "" :=
  (Reader.ensures_index .bone).bind fun _ storable => .skip fun _ => .pure ⟨storable, rfl⟩

namespace NodeTree.Spells

variable {tree : NodeTree} {forest : Forest Nat}

theorem exists_root (spells : tree.Spells forest) (rooted : 0 < tree.size) :
    ∃ below, forest = .cons 0 below .nil :=
  spells.unfolds.exists_root (by simpa using rooted)

theorem size_ofForest (spells : tree.Spells forest) :
    (ofForest (forest.map tree.label)).size = tree.size := by
  rw [← spells.size_eq, ← forest.size_map tree.label, size, ofForest, List.size_toArray, length_arena]

/-- The nodes of the tree in preorder are its nodes in some order. -/
theorem perm_ofForest (spells : tree.Spells forest) :
    ((ofForest (forest.map tree.label)).nodes.toList.map Node.bare).Perm
      (tree.nodes.toList.map Node.bare) := by
  refine List.Perm.trans (.of_eq ?_) spells.perm_label
  rw [ofForest, List.toList_toArray, map_bare_arena, Forest.preorder_map, List.map_map]
  rfl

theorem recovers_decode_of_few (spells : tree.Spells forest) (rooted : 0 < tree.size)
    (few : ∀ node ∈ (ofForest (forest.map tree.label)).nodes, node.children.length < 2 ^ 32)
    (encodable : ∀ node ∈ tree.nodes.toList, node.Encodable) :
    NodeTree.decode.Recovers tree.encode (ofForest (forest.map tree.label)) := by
  have good : ∀ node ∈ (forest.map tree.label).preorder, node.bare = node ∧ node.Encodable := by
    intro node member
    rw [Forest.preorder_map] at member
    obtain ⟨own, among, rfl⟩ := List.mem_map.mp (spells.perm_label.subset member)
    exact ⟨rfl, (encodable own among).withChildren []⟩
  simp only [ofForest, List.mem_toArray] at few
  rw [spells.encode_eq]
  obtain ⟨below, rfl⟩ := spells.exists_root rooted
  exact recovers_ofForest good few

/-- No node of a tree has more children than the tree has nodes. -/
theorem recovers_decode (spells : tree.Spells forest) (rooted : 0 < tree.size)
    (small : tree.size < 2 ^ 32) (encodable : ∀ node ∈ tree.nodes.toList, node.Encodable) :
    NodeTree.decode.Recovers tree.encode (ofForest (forest.map tree.label)) := by
  refine spells.recovers_decode_of_few rooted (fun node member => ?_) encodable
  obtain ⟨alone, -, part, first, rfl, bound⟩ := exists_of_mem_arena (List.mem_toArray.mp member)
  have size : part.size ≤ tree.size := by
    rw [Forest.size_map, spells.size_eq] at bound
    omega
  change (part.number first).roots.length < 2 ^ 32
  rw [part.length_roots_number]
  exact (part.length_roots_le.trans size).trans_lt small

theorem spells_ofForest (spells : tree.Spells forest) (rooted : 0 < tree.size) :
    (ofForest (forest.map tree.label)).Spells (forest.number 0) ∧
      (forest.number 0).map (ofForest (forest.map tree.label)).label = forest.map tree.label := by
  have bare : ∀ node ∈ (forest.map tree.label).preorder, node.bare = node := by
    intro node member
    rw [Forest.preorder_map] at member
    obtain ⟨position, -, rfl⟩ := List.mem_map.mp member
    rfl
  rw [← forest.number_map tree.label]
  obtain ⟨below, rfl⟩ := spells.exists_root rooted
  exact NodeTree.spells_ofForest bare

/-- The arena of a recovered tree stands in preorder, which lists the same nodes at the same depths. -/
theorem ofForest_inOrder (spells : tree.Spells forest) (rooted : 0 < tree.size) :
    (ofForest (forest.map tree.label)).listing = tree.listing ∧
      (ofForest (forest.map tree.label)).visits.map (·.1) = List.range tree.size := by
  obtain ⟨again, labels⟩ := spells.spells_ofForest rooted
  rw [again.listing_eq, labels, spells.listing_eq, again.visits_eq, Forest.map_fst_outline,
    Forest.preorder_number, spells.size_eq, List.range_eq_range']
  exact ⟨rfl, rfl⟩

end NodeTree.Spells

namespace Model

/-- The model of the current revision: no shared format, and every mesh has bounds. -/
def upgrade (model : Model) : Model :=
  { model with version := .current, sharedFormat := none, meshes := model.meshes.map Mesh.boxed }

/-- A model whose tables and values a file can hold. The nodes and bones of an indexed model are few
enough already. -/
structure Encodable (model : Model) : Prop where
  meshCount : model.meshes.length < 2 ^ 32
  meshes : ∀ mesh ∈ model.meshes, mesh.Encodable
  nodes : ∀ node ∈ model.nodes.nodes.toList, node.Encodable
  bones : ∀ bone ∈ model.skeleton, Storable bone.index
  materialCount : model.materials.length < 2 ^ 32
  materials : ∀ material ∈ model.materials, Reader.Unbroken material

/-- Neither the order of the nodes nor bounds and names matter to the indices. -/
theorem Indexed.transfer {model stored : Model} (indexed : model.Indexed)
    (nodes : (stored.nodes.nodes.toList.map Node.bare).Perm
      (model.nodes.nodes.toList.map Node.bare))
    (bones : stored.skeleton.map (·.index) = model.skeleton.map (·.index))
    (meshes : stored.meshes.map Mesh.unboxed = model.meshes.map Mesh.unboxed)
    (materials : stored.materials.length = model.materials.length) : stored.Indexed := by
  have nodeCount : stored.nodeCount = model.nodeCount := by
    have length := nodes.length_eq
    simp only [List.length_map, Array.length_toList] at length
    rw [Model.nodeCount, Model.nodeCount, NodeTree.size, NodeTree.size, length]
  have boneCount : stored.boneCount = model.boneCount := by
    have length := congrArg List.length bones
    simp only [List.length_map] at length
    rw [Model.boneCount, Model.boneCount, length]
  have meshCount : stored.meshes.length = model.meshes.length := by
    simpa using congrArg List.length meshes
  have distinct : (stored.nodes.nodes.toList.map (·.index)).Perm
      (model.nodes.nodes.toList.map (·.index)) := by
    simpa [Function.comp_def, Node.bare] using nodes.map (·.index)
  refine ⟨fun node member => ?_, distinct.nodup_iff.mpr indexed.distinctNodes, fun bone member => ?_,
    bones ▸ indexed.distinctBones, fun mesh member => ?_⟩
  · obtain ⟨other, listed, same⟩ := List.mem_map.mp (nodes.subset (List.mem_map_of_mem member))
    have fits := indexed.nodes other listed
    simp only [Node.bare, Node.mk.injEq] at same
    obtain ⟨-, index, flag, -, listing, -⟩ := same
    refine ⟨?_, fun flagged => ?_, fun mesh used => ?_⟩
    · rw [nodeCount, ← index]
      exact fits.inside
    · rw [boneCount, ← index]
      exact fits.bone (flag.trans flagged)
    · rw [meshCount]
      exact fits.meshes mesh (listing ▸ used)
  · obtain ⟨other, listed, same⟩ := List.mem_map.mp (bones ▸ List.mem_map_of_mem member)
    rw [boneCount, ← same]
    exact indexed.bones other listed
  · obtain ⟨other, listed, same⟩ := List.mem_map.mp (meshes ▸ List.mem_map_of_mem member)
    have fits := indexed.meshes other listed
    simp only [Mesh.unboxed, Mesh.mk.injEq] at same
    obtain ⟨material, -, -, format, vertices⟩ := same
    refine ⟨?_, fun stored vertex used influence held weighted => ?_⟩
    · rw [materials, ← material]
      exact fits.material
    · rw [boneCount]
      exact fits.bones (format ▸ stored) vertex (vertices ▸ used) influence held weighted

/-! ## Tables -/

/-- Everything behind the version and the shared format. -/
def decodeTables (version : Version) (shared : Option VertexFormat) : Reader Model := do
  let meshCount ← Reader.u32
  let meshes ← Reader.times meshCount.toNat (Mesh.decode version shared)
  let nodeCount ← Reader.u32
  let nodes ← NodeTree.decode
  if nodes.size ≠ nodeCount.toNat then
    Reader.fail (.countMismatch .node nodeCount nodes.size)
  let boneCount ← Reader.u32
  let skeleton ← Reader.times boneCount.toNat Bone.decode
  let materialCount ← Reader.u32
  let materials ← Reader.times materialCount.toNat Reader.text
  let model : Model := { version, sharedFormat := shared, meshes, nodes, skeleton, materials }
  Reader.ofExcept model.validate
  return model.nameBones

theorem decode_eq : decode = decodeVersion >>= fun version =>
    (if version.minor < Mesh.formatMinor then some <$> VertexFormat.decode version else pure none) >>=
      decodeTables version := by
  have sink (version : Version) (shared none : Reader (Option VertexFormat)) :
      (if version.minor < Mesh.formatMinor then shared >>= decodeTables version
        else none >>= decodeTables version) =
      (if version.minor < Mesh.formatMinor then shared else none) >>= decodeTables version := by
    split <;> rfl
  exact congrArg _ (funext fun version => sink version _ _)

/-- The tables with the meshes in some layout. -/
def encodeTables (encodeMesh : Mesh → Output) (model : Model) : Output :=
  .count .mesh model.meshes.length ++ .each model.meshes encodeMesh
    ++ .count .node model.nodes.size ++ model.nodes.encode
    ++ .count .bone model.skeleton.length ++ .each model.skeleton Bone.encode
    ++ .count .material model.materials.length ++ .each model.materials Output.text

/-- The tables of a model that can be stored are read back, with the arena in preorder and the meshes
as they are read from their layout. -/
theorem recovers_decodeTables {model : Model} {forest : Forest Nat}
    (spells : model.nodes.Spells forest) (rooted : 0 < model.nodes.size)
    (encodable : model.Encodable) (indexed : model.Indexed) (named : model.Named)
    {version : Version} {shared : Option VertexFormat} {encodeMesh : Mesh → Output}
    {readMesh : Mesh → Mesh} (kept : ∀ mesh, (readMesh mesh).unboxed = mesh.unboxed)
    (recovers : ∀ mesh ∈ model.meshes,
      (Mesh.decode version shared).Recovers (encodeMesh mesh) (readMesh mesh)) :
    (decodeTables version shared).Recovers (model.encodeTables encodeMesh)
      { model with
        version
        sharedFormat := shared
        meshes := model.meshes.map readMesh
        nodes := .ofForest (forest.map model.nodes.label) } := by
  obtain ⟨nodeCount, -⟩ := indexed.perm_nodes
  obtain ⟨boneCount, -⟩ := indexed.perm_bones
  have meshes : (Reader.times (UInt32.ofNat model.meshes.length).toNat
      (Mesh.decode version shared)).Recovers (.each model.meshes encodeMesh)
      (model.meshes.map readMesh) := by
    rw [UInt32.toNat_ofNat_of_lt' encodable.meshCount]
    exact .times recovers
  have length : (NodeTree.ofForest (forest.map model.nodes.label)).size =
      (UInt32.ofNat model.nodes.size).toNat := by
    rw [UInt32.toNat_ofNat_of_lt' nodeCount, spells.size_ofForest]
  have skeleton : (Reader.times (UInt32.ofNat model.skeleton.length).toNat Bone.decode).Recovers
      (.each model.skeleton Bone.encode) (model.skeleton.map Bone.unnamed) := by
    rw [UInt32.toNat_ofNat_of_lt' boneCount]
    exact .times fun bone member => Bone.recovers_decode (encodable.bones bone member)
  have materials : (Reader.times (UInt32.ofNat model.materials.length).toNat Reader.text).Recovers
      (.each model.materials Output.text) model.materials := by
    rw [UInt32.toNat_ofNat_of_lt' encodable.materialCount]
    refine (Reader.Recovers.times fun material member =>
      Reader.recovers_text (encodable.materials material member)).congr (List.map_id' _)
  have layout : model.encodeTables encodeMesh =
      .count .mesh model.meshes.length ++ (.each model.meshes encodeMesh ++
      (.count .node model.nodes.size ++ (model.nodes.encode ++
      (.count .bone model.skeleton.length ++ (.each model.skeleton Bone.encode ++
      (.count .material model.materials.length ++
        (.each model.materials Output.text ++ .empty))))))) := by
    simp only [encodeTables, Output.append_assoc, Output.append_empty]
  obtain ⟨read, same⟩ : ∃ read : Model, read =
      { model with
        version
        sharedFormat := shared
        meshes := model.meshes.map readMesh
        nodes := .ofForest (forest.map model.nodes.label) } := ⟨_, rfl⟩
  obtain ⟨stored, fields⟩ : ∃ stored : Model, stored =
      { read with skeleton := model.skeleton.map Bone.unnamed } := ⟨_, rfl⟩
  have valid : stored.validate = .ok () := by
    subst fields same
    exact validate_eq_ok_iff.mpr <| indexed.transfer spells.perm_ofForest (by simp)
      (by simp [kept]) rfl
  have renamed : stored.nameBones = read := by
    subst fields same
    exact named.nameBones_eq indexed rfl spells.perm_ofForest
  rw [layout, ← same, ← renamed]
  refine (Reader.recovers_count encodable.meshCount .mesh).bind <| meshes.bind <|
    (Reader.recovers_count nodeCount .node).bind <|
    (spells.recovers_decode rooted nodeCount encodable.nodes).bind <|
    .otherwise (not_not.mpr length) <|
    (Reader.recovers_count boneCount .bone).bind <| skeleton.bind <|
    (Reader.recovers_count encodable.materialCount .material).bind <| materials.bind <| ?_
  subst fields same
  exact (Reader.Recovers.ofExcept valid).skip_bind (.pure _)

theorem recovers_decodeVersion : decodeVersion.Recovers
    (.ofBytes magic ++ .u8 Version.current.major ++ .u8 Version.current.minor) .current := by
  refine ⟨rfl, fun rest => rfl⟩

/-- A model that can be stored is read back, its arena in preorder and its meshes with bounds. -/
theorem recovers_decode {model : Model} {forest : Forest Nat} (spells : model.nodes.Spells forest)
    (rooted : 0 < model.nodes.size) (encodable : model.Encodable) (indexed : model.Indexed)
    (named : model.Named) : Model.decode.Recovers model.encode
      { model.upgrade with nodes := .ofForest (forest.map model.nodes.label) } := by
  have kept : model.storedTree = model.nodes := by
    have some : model.nodes.isEmpty = false := by
      simpa [NodeTree.isEmpty, NodeTree.size] using Nat.ne_of_gt rooted
    simp [storedTree, some]
  have layout : model.encode =
      (.ofBytes magic ++ .u8 Version.current.major ++ .u8 Version.current.minor) ++
        model.encodeTables Mesh.encode := by
    simp only [encode, encodeTables, kept, Output.append_assoc]
  rw [decode_eq, layout]
  refine recovers_decodeVersion.bind <| (Reader.Recovers.pure none).skip_bind ?_
  exact recovers_decodeTables spells rooted encodable indexed named Mesh.unboxed_boxed
    fun mesh member => Mesh.recovers_decode (encodable.meshes mesh member)

/-- A model in preorder that a file can hold, and whose bones have the names of their nodes. -/
structure Settled (model : Model) : Prop where
  planted : ∃ forest, model.nodes.Spells forest ∧ 0 < model.nodes.size ∧
    .ofForest (forest.map model.nodes.label) = model.nodes
  encodable : model.Encodable
  indexed : model.Indexed
  named : model.Named

private theorem settled_nameBones {model : Model} (planted : ∃ root below,
      model.nodes = .ofForest (.cons root below .nil) ∧
      ∀ node ∈ (Forest.cons root below .nil).preorder, node.bare = node ∧ node.Encodable)
    (meshes : model.meshes.length < 2 ^ 32 ∧ ∀ mesh ∈ model.meshes, mesh.Encodable)
    (bones : ∀ bone ∈ model.skeleton, Storable bone.index ∧ bone.name = "")
    (materials : model.materials.length < 2 ^ 32 ∧
      ∀ material ∈ model.materials, Reader.Unbroken material)
    (valid : model.validate = .ok ()) : model.nameBones.Settled := by
  obtain ⟨root, below, eq, good⟩ := planted
  obtain ⟨spells, labels⟩ := NodeTree.spells_ofForest fun node member => (good node member).1
  have indexed := validate_eq_ok_iff.mp valid
  have names := indexed.named_nameBones fun bone member => (bones bone member).2
  have kept : model.nameBones.skeleton.map (·.index) = model.skeleton.map (·.index) := by
    simp [nameBones, foldl_nameBone indexed.distinctBones, Function.comp_def]
  refine ⟨⟨_, eq ▸ spells, ?_, ?_⟩, ⟨meshes.1, meshes.2, ?_, ?_, materials.1, materials.2⟩,
    indexed.transfer (.refl _) kept rfl rfl, names⟩
  · change 0 < model.nodes.size
    rw [eq, NodeTree.size, NodeTree.ofForest, List.size_toArray, length_arena, Forest.size]
    omega
  · change NodeTree.ofForest (Forest.map model.nodes.label _) = model.nodes
    rw [eq, labels]
  · intro node (member : node ∈ model.nodes.nodes.toList)
    rw [eq, NodeTree.ofForest, List.toList_toArray] at member
    obtain ⟨alone, among, part, first, rfl, -⟩ := NodeTree.exists_of_mem_arena member
    exact (good alone among).2.withChildren _
  · intro bone member
    obtain ⟨old, among, same⟩ := List.mem_map.mp (kept ▸ List.mem_map_of_mem member)
    exact same ▸ (bones old among).1

theorem ensures_decodeTables (version : Version) (shared : Option VertexFormat) :
    (decodeTables version shared).Ensures Settled := by
  refine .skip fun _ => ((Mesh.ensures_decode version shared).times _).bind fun meshes goodMeshes =>
    .skip fun _ => NodeTree.ensures_decode.bind fun nodes planted =>
    .ite (fun _ => (Reader.Ensures.fail (P := fun _ => False) _).bind fun _ => False.elim) fun _ =>
    .skip fun _ => (Bone.ensures_decode.times _).bind fun skeleton goodBones =>
    .skip fun _ => (Reader.ensures_text.times _).bind fun materials goodMaterials =>
    Reader.Ensures.bind (Reader.Ensures.ofExcept (P := fun _ => _ = _) fun _ valid => valid)
      fun _ valid => .pure ?_
  exact settled_nameBones planted ⟨goodMeshes.1 ▸ UInt32.toNat_lt _, goodMeshes.2⟩
    goodBones.2 ⟨goodMaterials.1 ▸ UInt32.toNat_lt _, goodMaterials.2⟩ valid

/-- A model that was read can be stored, and its arena stands in preorder already. -/
theorem ensures_decode : Model.decode.Ensures Settled := by
  rw [decode_eq]
  exact .skip fun version => .skip fun shared => ensures_decodeTables version shared

end Model
end SceneBaker.Model
