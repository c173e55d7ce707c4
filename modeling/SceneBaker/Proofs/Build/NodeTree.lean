import SceneBaker.Proofs.Build.Assembly
import SceneBaker.Proofs.Build.Numbering
import Mathlib.Data.List.Find

/-! # The node tree of a scene

A scene whose bones are each carried by one node gives a tree of the same shape in which nodes and
bones are numbered without gaps. Every other scene is refused with the first node that carries a bone
again, or else with the first bone that no node carries.
-/

namespace SceneBaker.Build

open Number SceneBaker.Geometry Model Scene Steps

/-! ## Claims by name -/

namespace Skeleton.Collects

variable {skeleton : Skeleton} {bones : List (SourceBone Single)}

/-- As many bones as 32 bits can count are told apart by their indices. -/
theorem lookup_inj (collects : skeleton.Collects bones) (few : skeleton.size ≤ 2 ^ 32)
    {first second : String} {bone : UInt32} (one : skeleton.indexOf? first = some bone)
    (other : skeleton.indexOf? second = some bone) : first = second := by
  obtain ⟨position, here, rfl⟩ := (collects.lookup first bone).mp one
  obtain ⟨again, there, same⟩ := (collects.lookup second _).mp other
  obtain ⟨inside, -⟩ := List.getElem?_eq_some_iff.mp here
  obtain ⟨within, -⟩ := List.getElem?_eq_some_iff.mp there
  simp only [names, List.length_map, size] at inside within few
  have equal := congrArg UInt32.toNat same
  rw [UInt32.toNat_ofNat_of_lt' (by change _ < 2 ^ 32; omega),
    UInt32.toNat_ofNat_of_lt' (by change _ < 2 ^ 32; omega)] at equal
  rw [equal] at here
  exact Option.some.inj (here.symm.trans there)

theorem exists_lookup (skeleton : Skeleton) {name : String} (known : name ∈ skeleton.names) :
    ∃ bone, skeleton.indexOf? name = some bone :=
  Option.isSome_iff_exists.mp ((skeleton.isSome_indexOf? name).mpr known)

/-- A bone is claimed as often as its name is carried. -/
theorem count_claims (collects : skeleton.Collects bones) (few : skeleton.size ≤ 2 ^ 32)
    {name : String} {bone : UInt32} (known : skeleton.indexOf? name = some bone)
    (sources : List (SourceNode Single)) :
    (claims skeleton sources).count bone = sources.countP (·.name = name) := by
  induction sources with
  | nil => rfl
  | cons source rest ih =>
    cases named : skeleton.indexOf? source.name with
    | none =>
      have other : source.name ≠ name := by
        rintro same
        rw [same, known] at named
        cases named
      rw [claims_of_none named, ih, List.countP_cons_of_neg (by simpa using other)]
    | some own =>
      rw [claims_of_bone named, List.count_cons, List.countP_cons, ih]
      by_cases same : source.name = name
      · rw [same, known] at named
        simp [same, Option.some.inj named]
      · have distinct : own ≠ bone := by
          rintro rfl
          exact same (collects.lookup_inj few named known)
        simp [same, distinct]

theorem apart_claims_iff (collects : skeleton.Collects bones) (few : skeleton.size ≤ 2 ^ 32)
    (sources : List (SourceNode Single)) : Apart [] (claims skeleton sources) ↔
      ∀ name ∈ skeleton.names, sources.countP (·.name = name) ≤ 1 := by
  simp only [Apart, List.nodup_iff_count_le_one, List.not_mem_nil, not_false_eq_true, implies_true,
    and_true]
  constructor
  · intro once name known
    obtain ⟨bone, lookup⟩ := exists_lookup skeleton known
    rw [← collects.count_claims few lookup]
    exact once bone
  · intro once bone
    by_cases claimed : bone ∈ claims skeleton sources
    · obtain ⟨source, -, lookup⟩ := List.mem_filterMap.mp claimed
      rw [collects.count_claims few lookup]
      exact once _ ((skeleton.isSome_indexOf? _).mp (by rw [lookup]; rfl))
    · rw [List.count_eq_zero_of_not_mem claimed]
      exact Nat.zero_le 1

theorem mem_claims_iff (collects : skeleton.Collects bones) (few : skeleton.size ≤ 2 ^ 32)
    {name : String} {bone : UInt32} (known : skeleton.indexOf? name = some bone)
    (sources : List (SourceNode Single)) :
    bone ∈ claims skeleton sources ↔ ∃ source ∈ sources, source.name = name := by
  rw [← List.count_pos_iff, collects.count_claims few known, List.countP_pos_iff]
  simp

/-- Positions are covered by the indices of their bones. -/
theorem covers_all_iff (collects : skeleton.Collects bones) (few : skeleton.size ≤ 2 ^ 32)
    (claimed : List UInt32) : (∀ position < skeleton.size, Covers claimed position) ↔
      ∀ bone ∈ skeleton.bones, bone.index ∈ claimed := by
  constructor
  · intro all bone member
    obtain ⟨position, found⟩ := List.getElem?_of_mem member
    obtain ⟨index, listed, same⟩ := all position (List.getElem?_eq_some_iff.mp found).1
    rwa [UInt32.toNat_inj.mp ((collects.toNat_index few found).trans same.symm)]
  · intro all position inside
    exact ⟨_, all _ (List.getElem_mem inside),
      collects.toNat_index few (List.getElem?_eq_getElem inside)⟩

/-- Every bone is claimed once if every bone name is carried once. -/
theorem claims_all_iff (collects : skeleton.Collects bones) (few : skeleton.size ≤ 2 ^ 32)
    (sources : List (SourceNode Single)) :
    (Apart [] (claims skeleton sources) ∧ ∀ bone ∈ skeleton.bones, bone.index ∈ claims skeleton sources) ↔
      ∀ name ∈ skeleton.names, sources.countP (·.name = name) = 1 := by
  rw [collects.apart_claims_iff few]
  constructor
  · rintro ⟨once, all⟩ name known
    obtain ⟨bone, member, rfl⟩ := List.mem_map.mp known
    have some := List.count_pos_iff.mpr (all bone member)
    rw [collects.count_claims few (collects.lookup_of_mem member)] at some
    exact Nat.le_antisymm (once _ known) some
  · intro once
    refine ⟨fun name known => (once name known).le, fun bone member => ?_⟩
    rw [← List.count_pos_iff, collects.count_claims few (collects.lookup_of_mem member)]
    exact (once _ (List.mem_map_of_mem member)).ge

end Skeleton.Collects

/-! ## The walk over a scene -/

/-- The nodes of a scene with their depths, in the order of the walk. -/
def visits (scene : Scene Single) : List (SourceNode Single × Nat) :=
  (scene.links.preorder .skip).filterMap fun visit => scene.nodes[visit.1]?.map (·, visit.2)

/-- The nodes of a scene at the positions of a forest, in preorder. -/
def reached (scene : Scene Single) (forest : Forest Nat) : List (SourceNode Single) :=
  forest.preorder.filterMap (scene.nodes[·]?)

section

variable {scene : Scene Single} {forest : Forest Nat}

theorem lt_size_of_unfolds (unfolds : scene.links.Unfolds [0] forest) {position : Nat}
    (member : position ∈ forest.preorder) : position < scene.nodes.size := by
  have inside := unfolds.lt_size position member
  rwa [Scene.links, Array.size_map] at inside

private theorem lookup_of_unfolds (unfolds : scene.links.Unfolds [0] forest) {position : Nat}
    (member : position ∈ forest.preorder) : ∃ source, scene.nodes[position]? = some source :=
  ⟨_, Array.getElem?_eq_getElem (lt_size_of_unfolds unfolds member)⟩

theorem mem_nodes_of_mem_reached {source : SourceNode Single}
    (member : source ∈ reached scene forest) : source ∈ scene.nodes := by
  obtain ⟨position, -, found⟩ := List.mem_filterMap.mp member
  exact Array.mem_of_getElem? found

theorem length_reached (unfolds : scene.links.Unfolds [0] forest) :
    (reached scene forest).length = forest.size := by
  rw [reached, List.length_filterMap_eq_countP, ← forest.length_preorder, List.countP_eq_length]
  intro position member
  obtain ⟨source, found⟩ := lookup_of_unfolds unfolds member
  rw [found]
  rfl

/-- Building a tree is numbering the nodes in preorder and setting them up by their depths. -/
theorem nodeTree_eq (unfolds : scene.links.Unfolds [0] forest) (distinct : forest.preorder.Nodup)
    (skeleton : Skeleton) : nodeTree scene skeleton =
      (numberNodes skeleton [] (UInt32.ofNat skeleton.size) (reached scene forest)).map fun nodes =>
        assemble (nodes.zip (Links.parentNumbers [] 0 (forest.depths 0))) := by
  have walk : nodeTree scene skeleton =
      (numberNodes skeleton [] (UInt32.ofNat skeleton.size) ((visits scene).map (·.1))).map
        fun nodes => assemble (nodes.zip (Links.parentNumbers [] 0 ((visits scene).map (·.2)))) :=
    rfl
  have nodes : (visits scene).map (·.1) = reached scene forest := by
    rw [visits, unfolds.preorder_eq distinct, reached, ← forest.map_fst_outline 0,
      List.filterMap_map, List.map_filterMap]
    simp [Function.comp_def]
  have depths : (visits scene).map (·.2) = forest.depths 0 := by
    rw [visits, unfolds.preorder_eq distinct, ← forest.map_snd_outline 0, List.map_filterMap,
      ← List.filterMap_eq_map]
    refine List.filterMap_congr fun entry member => ?_
    have visited : entry.1 ∈ forest.preorder := by
      rw [← forest.map_fst_outline 0]
      exact List.mem_map_of_mem member
    obtain ⟨source, found⟩ := lookup_of_unfolds unfolds visited
    simp [found]
  rw [walk, nodes, depths]

end

/-- As many childless nodes as a single tree has, set up by its depths, are the tree with the nodes in
its places. -/
theorem exists_ofForest {position : Nat} {below : Forest Nat} {nodes : List Node}
    (length : nodes.length = (Forest.cons position below .nil).size)
    (childless : ∀ node ∈ nodes, node.children = []) : ∃ root others,
      assemble (nodes.zip
        (Links.parentNumbers [] 0 ((Forest.cons position below .nil).depths 0))) =
        .ofForest (.cons root others .nil) ∧
      (∀ node ∈ (Forest.cons root others .nil).preorder, node.bare = node) ∧
      (Forest.cons root others .nil).preorder = nodes ∧
      (Forest.cons root others .nil).number 0 = (Forest.cons position below .nil).number 0 := by
  have bare : ∀ node ∈ nodes, node.bare = node := by
    intro node member
    rw [Node.bare, ← childless node member]
  obtain ⟨root, others, single⟩ : ∃ root others,
      (Forest.cons position below .nil).relabel {} nodes = .cons root others .nil := ⟨_, _, rfl⟩
  have preorder := Forest.preorder_relabel {} length
  have depths : ((Forest.cons position below .nil).relabel {} nodes).depths 0 =
      (Forest.cons position below .nil).depths 0 := by
    rw [Forest.relabel, Forest.depths_map, Forest.depths_number]
  have numbers : ((Forest.cons position below .nil).relabel {} nodes).number 0 =
      (Forest.cons position below .nil).number 0 := by
    rw [Forest.relabel, Forest.number_map, Forest.number_number]
  rw [single] at preorder depths numbers
  have entries : ∀ node ∈ (Forest.cons root others .nil).preorder, node.bare = node := by
    rwa [preorder]
  have assembled := assemble_forest entries
  rw [preorder, depths] at assembled
  exact ⟨root, others, assembled, entries, preorder, numbers⟩

/-- As many childless nodes as a forest has, set up by its depths, stand as the forest does. -/
theorem spells_assemble {links : Links} {forest : Forest Nat} (unfolds : links.Unfolds [0] forest)
    {nodes : List Node} (length : nodes.length = forest.size)
    (childless : ∀ node ∈ nodes, node.children = []) {tree : NodeTree}
    (made : assemble (nodes.zip (Links.parentNumbers [] 0 (forest.depths 0))) = tree) :
    tree.Spells (forest.number 0) ∧ tree.nodes.toList.map Node.bare = nodes := by
  cases unfolds with
  | outside absent after =>
    cases after
    obtain rfl := List.length_eq_zero_iff.mp length
    subst made
    exact ⟨NodeTree.spells_empty, rfl⟩
  | inside _ _ after =>
    cases after
    obtain ⟨root, others, assembled, bare, preorder, numbers⟩ := exists_ofForest length childless
    rw [made] at assembled
    subst assembled
    refine ⟨numbers ▸ (NodeTree.spells_ofForest bare).1, ?_⟩
    rw [NodeTree.ofForest, List.toList_toArray, NodeTree.map_bare_arena, preorder]
    exact (List.map_congr_left (preorder ▸ bare)).trans (List.map_id' nodes)

/-- The arena of a tree that was set up stands in preorder already. -/
theorem ofForest_assemble {links : Links} {forest : Forest Nat} (unfolds : links.Unfolds [0] forest)
    {nodes : List Node} (length : nodes.length = forest.size)
    (childless : ∀ node ∈ nodes, node.children = []) {tree : NodeTree}
    (made : assemble (nodes.zip (Links.parentNumbers [] 0 (forest.depths 0))) = tree) :
    .ofForest ((forest.number 0).map tree.label) = tree := by
  cases unfolds with
  | outside _ after =>
    cases after
    obtain rfl := List.length_eq_zero_iff.mp length
    subst made
    rfl
  | inside _ _ after =>
    cases after
    obtain ⟨root, others, assembled, bare, -, numbers⟩ := exists_ofForest length childless
    rw [made] at assembled
    subst assembled
    rw [← numbers, (NodeTree.spells_ofForest bare).2]

/-! ## What a scene's tree is -/

/-- The tree holds the sources' nodes in preorder. Bone nodes have their bones' indices, the others
are counted on behind the bones, and neither nodes nor bones leave a gap. -/
structure Numbered (skeleton : Skeleton) (sources : List (SourceNode Single)) (tree : NodeTree) :
    Prop where
  inOrder : tree.preorder.map (·.2) = tree.nodes.toList
  sources_eq : tree.nodes.toList.map (fun node => (node.name, node.transform, node.meshes)) =
    sources.map fun source => (source.name, DualQuat.ofMatrix source.transform,
      source.meshes.map UInt32.ofNat)
  isBone_iff : ∀ node ∈ tree.nodes.toList, node.isBone = true ↔ node.name ∈ skeleton.names
  bone : ∀ node ∈ tree.nodes.toList, ∀ bone, skeleton.indexOf? node.name = some bone →
    node.index = bone
  others : (tree.nodes.toList.filter (!·.isBone)).map (·.index) =
    (List.range (tree.size - skeleton.size)).map fun count => UInt32.ofNat (skeleton.size + count)
  nodeIndices : (tree.nodes.toList.map (·.index)).Perm ((List.range tree.size).map UInt32.ofNat)
  boneIndices : ((tree.nodes.toList.filter (·.isBone)).map (·.index)).Perm
    ((List.range skeleton.size).map UInt32.ofNat)

theorem Numbered.names_eq {skeleton : Skeleton} {sources : List (SourceNode Single)}
    {tree : NodeTree} (numbered : Numbered skeleton sources tree) :
    tree.preorder.map (·.2.name) = sources.map (·.name) := by
  have listed := congrArg (List.map Prod.fst) numbered.sources_eq
  rw [← numbered.inOrder] at listed
  simpa [Function.comp_def] using listed

/-- The cause names the first node that carries a bone again, or else the first bone that no node
carries. -/
def Refused (skeleton : Skeleton) (sources : List (SourceNode Single)) (cause : ConversionError) :
    Prop :=
  (∃ before source after, sources = before ++ source :: after ∧ source.name ∈ skeleton.names ∧
    (∃ earlier ∈ before, earlier.name = source.name) ∧
    (∀ name ∈ skeleton.names, before.countP (·.name = name) ≤ 1) ∧
    cause = .duplicateBoneNode source.name) ∨
  ((∀ name ∈ skeleton.names, sources.countP (·.name = name) ≤ 1) ∧
    ∃ name, skeleton.names.find? (fun name => sources.all (·.name ≠ name)) = some name ∧
      cause = .boneWithoutNode name)

namespace Skeleton.Collects

variable {skeleton : Skeleton} {bones : List (SourceBone Single)}
  {sources : List (SourceNode Single)}

theorem perm_claims (collects : skeleton.Collects bones) (few : skeleton.size ≤ 2 ^ 32)
    (apart : Apart [] (claims skeleton sources))
    (all : ∀ bone ∈ skeleton.bones, bone.index ∈ claims skeleton sources) :
    (claims skeleton sources).Perm ((List.range skeleton.size).map UInt32.ofNat) := by
  rw [← collects.indices_eq]
  have distinct : (skeleton.bones.map (·.index)).Nodup := by
    rw [collects.indices_eq]
    refine List.nodup_range.map_on fun first inside second within same => ?_
    rw [List.mem_range] at inside within
    have equal := congrArg UInt32.toNat same
    rwa [UInt32.toNat_ofNat_of_lt' (by change _ < 2 ^ 32; omega),
      UInt32.toNat_ofNat_of_lt' (by change _ < 2 ^ 32; omega)] at equal
  refine (List.perm_ext_iff_of_nodup apart.1 distinct).mpr fun index => ⟨fun claimed => ?_, ?_⟩
  · obtain ⟨source, -, known⟩ := List.mem_filterMap.mp claimed
    obtain ⟨bone, found, rfl⟩ := Option.map_eq_some_iff.mp known
    exact List.mem_map_of_mem (List.mem_of_find?_eq_some found)
  · intro listed
    obtain ⟨bone, member, rfl⟩ := List.mem_map.mp listed
    exact all bone member

theorem refused (collects : skeleton.Collects bones) (few : skeleton.size ≤ 2 ^ 32)
    {next : UInt32} {cause : ConversionError}
    (failed : numberNodes skeleton [] next sources = .error cause) :
    Refused skeleton sources cause := by
  rcases of_numberNodes_eq_error failed with
    ⟨before, source, after, bone, rfl, named, apart, taken, rfl⟩ | ⟨apart, bone, position, left, rfl⟩
  · refine .inl ⟨before, source, after, rfl, ?_, ?_, (collects.apart_claims_iff few _).mp apart, rfl⟩
    · exact (skeleton.isSome_indexOf? _).mp (by rw [named]; rfl)
    · exact (collects.mem_claims_iff few named before).mp (taken.resolve_left List.not_mem_nil)
  · refine .inr ⟨(collects.apart_claims_iff few _).mp apart, bone.name, ?_, rfl⟩
    have names : skeleton.names = (skeleton.bones.zipIdx.map Prod.fst).map (·.name) := by
      rw [List.zipIdx_map_fst]
      rfl
    rw [names, List.map_map, List.find?_map, Option.map_eq_some_iff]
    refine ⟨(bone, position), ?_, rfl⟩
    rw [← left]
    refine List.find?_congr fun entry member => ?_
    have found := List.mem_zipIdx_iff_getElem?.mp member
    have claimed := collects.mem_claims_iff few
      (collects.lookup_of_mem (List.mem_of_getElem? found)) sources
    rw [Bool.eq_iff_iff, ← collects.toNat_index few found]
    simp [claimed, UInt32.toNat_inj, List.any_eq]

/-- Numbered nodes that were assembled make a numbered tree. -/
theorem numbered_tree (collects : skeleton.Collects bones) (few : skeleton.size ≤ 2 ^ 32)
    (apart : Apart [] (claims skeleton sources))
    (all : ∀ bone ∈ skeleton.bones, bone.index ∈ claims skeleton sources) {tree : NodeTree}
    {forest : Forest Nat} (shape : tree.Spells (forest.number 0))
    (nodes : tree.nodes.toList.map Node.bare =
      numbered skeleton (UInt32.ofNat skeleton.size) sources) : Numbered skeleton sources tree := by
  have perm := collects.perm_claims few apart all
  have size : tree.size = sources.length := by
    have length := congrArg List.length nodes
    rwa [List.length_map, length_numbered] at length
  have count : (claims skeleton sources).length = skeleton.size := by simpa using perm.length_eq
  have enough : skeleton.size ≤ tree.size := by
    rw [size, ← count]
    exact List.length_filterMap_le ..
  have boneNodes : (tree.nodes.toList.filter (·.isBone)).map (·.index) = claims skeleton sources := by
    rw [← numbered_bones skeleton (UInt32.ofNat skeleton.size), ← nodes, List.filter_map, List.map_map]
    rfl
  have others : (tree.nodes.toList.filter (!·.isBone)).map (·.index) =
      (List.range (tree.size - skeleton.size)).map fun count =>
        UInt32.ofNat (skeleton.size + count) := by
    have counted := numbered_others skeleton (UInt32.ofNat skeleton.size) sources
    rw [← nodes, List.filter_map, List.map_map, count, ← size] at counted
    simp only [UInt32.ofNat_add]
    exact counted
  have entry {node : Node} (member : node ∈ tree.nodes.toList) :=
    of_mem_numbered skeleton _ sources (nodes ▸ List.mem_map_of_mem member)
  refine ⟨shape.inOrder, ?_, fun node member => ?_, fun node member => (entry member).2.2, others, ?_,
    boneNodes ▸ perm⟩
  · rw [← numbered_sources skeleton (UInt32.ofNat skeleton.size), ← nodes, List.map_map]
    rfl
  · rw [← skeleton.isSome_indexOf? node.name]
    exact (entry member).2.1 ▸ Iff.rfl
  · have split := (List.filter_append_perm (·.isBone) tree.nodes.toList).map (·.index)
    rw [List.map_append, boneNodes, others] at split
    refine split.symm.trans ((perm.append_right _).trans (.of_eq ?_))
    conv_rhs => rw [← Nat.add_sub_cancel' enough, List.range_add, List.map_append, List.map_map]
    rfl

end Skeleton.Collects

/-! ## When there is a tree -/

/-- A skeleton with more bones than 32 bits can count has no node for each of them. -/
theorem size_le_of_nodeTree_eq_ok {scene : Scene Single} {skeleton : Skeleton} {tree : NodeTree}
    (success : nodeTree scene skeleton = .ok tree) : skeleton.size ≤ 2 ^ 32 := by
  obtain ⟨nodes, numbering, -⟩ := map_eq_ok_iff.mp success
  obtain ⟨-, all, -⟩ := numberNodes_eq_ok_iff.mp numbering
  by_contra many
  rcases all (2 ^ 32) (Nat.lt_of_not_le many) with ⟨bone, member, -⟩ | ⟨bone, -, same⟩
  · cases member
  · exact absurd bone.toNat_lt (same ▸ Nat.lt_irrefl _)

section

variable {scene : Scene Single} {settings : Settings} {forest : Forest Nat} {tree : NodeTree}

theorem exists_nodeTree_iff (unfolds : scene.links.Unfolds [0] forest)
    (distinct : forest.preorder.Nodup) (few : (Skeleton.collect scene settings).size ≤ 2 ^ 32) :
    (∃ tree, nodeTree scene (Skeleton.collect scene settings) = .ok tree) ↔
      ∀ name ∈ (Skeleton.collect scene settings).names,
        (reached scene forest).countP (·.name = name) = 1 := by
  have collects := Skeleton.collects_collect scene settings
  rw [nodeTree_eq unfolds distinct, ← collects.claims_all_iff few]
  simp only [map_eq_ok_iff, numberNodes_eq_ok_iff, covers_nil, false_or,
    collects.covers_all_iff few]
  constructor
  · rintro ⟨tree, nodes, ⟨apart, all, -⟩, -⟩
    exact ⟨apart, all⟩
  · rintro ⟨apart, all⟩
    exact ⟨_, _, ⟨apart, all, rfl⟩, rfl⟩

/-- The tree of a scene stands as its hierarchy does and is numbered. -/
theorem planted_of_nodeTree_eq_ok (unfolds : scene.links.Unfolds [0] forest)
    (distinct : forest.preorder.Nodup)
    (success : nodeTree scene (Skeleton.collect scene settings) = .ok tree) :
    tree.Spells (forest.number 0) ∧
      Numbered (Skeleton.collect scene settings) (reached scene forest) tree := by
  have few := size_le_of_nodeTree_eq_ok success
  have collects := Skeleton.collects_collect scene settings
  rw [nodeTree_eq unfolds distinct] at success
  obtain ⟨nodes, counted, made⟩ := map_eq_ok_iff.mp success
  obtain ⟨apart, all, rfl⟩ := numberNodes_eq_ok_iff.mp counted
  simp only [covers_nil, false_or, collects.covers_all_iff few] at all
  have length := length_reached unfolds
  obtain ⟨shape, nodes⟩ := spells_assemble unfolds ((length_numbered _ _ _).trans length)
    (fun node member => (of_mem_numbered _ _ _ member).1) made
  exact ⟨shape, collects.numbered_tree few apart all shape nodes⟩

end

/-- Bones are numbered in the order in which meshes name them. A scene in the form of a tree then has
a numbered tree of the same form exactly if each bone is carried by one of its nodes, and otherwise
the cause says which bone is not. -/
theorem nodeTree_collect {scene : Scene Single} {forest : Forest Nat} (settings : Settings)
    (unfolds : scene.links.Unfolds [0] forest) (distinct : forest.preorder.Nodup) :
    scene.preorder = forest.preorder ∧
    (Skeleton.collect scene settings).Collects
      (if settings.disableBones then [] else scene.meshes.toList.flatMap (·.bones)) ∧
    ∀ skeleton, skeleton = Skeleton.collect scene settings → skeleton.size ≤ 2 ^ 32 →
      ((∃ tree, nodeTree scene skeleton = .ok tree) ↔
        ∀ name ∈ skeleton.names, (reached scene forest).countP (·.name = name) = 1) ∧
      (∀ tree, nodeTree scene skeleton = .ok tree →
        tree.Spells (forest.number 0) ∧ Numbered skeleton (reached scene forest) tree) ∧
      ∀ cause, nodeTree scene skeleton = .error cause →
        Refused skeleton (reached scene forest) cause := by
  have collects := Skeleton.collects_collect scene settings
  have preorder : scene.preorder = forest.preorder := by
    rw [Scene.preorder, unfolds.preorder_eq distinct, Forest.map_fst_outline]
  refine ⟨preorder, collects, ?_⟩
  rintro skeleton rfl few
  refine ⟨exists_nodeTree_iff unfolds distinct few, fun tree success => ?_, fun cause failed => ?_⟩
  · exact planted_of_nodeTree_eq_ok unfolds distinct success
  · rw [nodeTree_eq unfolds distinct] at failed
    exact collects.refused few (map_eq_error_iff.mp failed)

/-- A hip below an armature, beside a mesh of which it is a bone; one child entry leads nowhere. -/
def rigged : Scene Single where
  meshes := #[{ bones := [⟨"hip", 1, []⟩] }]
  nodes := #[⟨"root", 1, [], [1, 9, 3]⟩, ⟨"armature", 1, [], [2]⟩, ⟨"hip", 1, [], []⟩,
    ⟨"mesh", 1, [0], []⟩]

theorem nodeTree_rigged :
    rigged.links.Unfolds [0] (.cons 0 (.cons 1 (.cons 2 .nil .nil) (.cons 3 .nil .nil)) .nil) ∧
    ∃ tree, nodeTree rigged (Skeleton.collect rigged {}) = .ok tree ∧
      Numbered (Skeleton.collect rigged {})
        (reached rigged (.cons 0 (.cons 1 (.cons 2 .nil .nil) (.cons 3 .nil .nil)) .nil)) tree := by
  have unfolds : rigged.links.Unfolds [0]
      (.cons 0 (.cons 1 (.cons 2 .nil .nil) (.cons 3 .nil .nil)) .nil) := by
    have links : rigged.links = #[[1, 9, 3], [2], [], []] := by decide +kernel
    rw [links]
    exact .inside rfl (.inside rfl (.inside rfl .nil .nil) (.outside rfl (.inside rfl .nil .nil))) .nil
  obtain ⟨-, -, built⟩ := nodeTree_collect {} unfolds (by decide)
  have few : (Skeleton.collect rigged {}).size ≤ 2 ^ 32 := by decide +kernel
  obtain ⟨succeeds, numbers, -⟩ := built _ rfl few
  obtain ⟨tree, success⟩ := succeeds.mpr (by decide +kernel)
  exact ⟨unfolds, tree, success, (numbers tree success).2⟩

end SceneBaker.Build
