import SceneBaker.Gltf.Import
import SceneBaker.Proofs.Build.NodeTree
import SceneBaker.Proofs.Scene.Calls

/-! # Hierarchies of imported scenes

The nodes of an imported scene are the visits of the walk over the document, in the same order, and
their child lists have the shape of the walk. Nodes are added to a scene as they are to a model's
tree, so that what is known of assembled trees carries over.
-/

set_option linter.dupNamespace false

namespace SceneBaker

theorem Links.length_parentNumbers (path : List Nat) (number : Nat) (depths : List Nat) :
    (Links.parentNumbers path number depths).length = depths.length := by
  induction depths generalizing path number with
  | nil => rfl
  | cons depth depths ih => rw [Links.parentNumbers, List.length_cons, ih, List.length_cons]

theorem Forest.length_depths {α : Type} (depth : Nat) (forest : Forest α) :
    (forest.depths depth).length = forest.size := by
  rw [← forest.map_snd_outline, List.length_map, ← forest.length_preorder,
    ← forest.map_fst_outline depth, List.length_map]

/-- Nothing in a forest is above its roots. -/
theorem Forest.le_of_mem_depths {α : Type} {start depth : Nat} {forest : Forest α}
    (member : depth ∈ forest.depths start) : start ≤ depth := by
  induction forest generalizing start with
  | nil => cases member
  | cons root below rest below_ih rest_ih =>
    simp only [Forest.depths, List.mem_cons, List.mem_append] at member
    rcases member with rfl | member | member
    · exact Nat.le_refl _
    · exact (Nat.le_succ _).trans (below_ih member)
    · exact rest_ih member

end SceneBaker

namespace SceneBaker.Scene

open Number Model Build

variable {α : Type}

/-- A node before it gets children. -/
def SourceNode.bare (node : SourceNode α) : SourceNode α := { node with children := [] }

/-- What a tree of nodes shows of a scene's node: its name and its children. -/
def SourceNode.plain (node : SourceNode α) : Model.Node :=
  { name := node.name, children := node.children }

namespace Scene

/-- The hierarchy of a scene as a tree of nodes. -/
def tree (scene : Scene α) : NodeTree := ⟨scene.nodes.map SourceNode.plain⟩

variable {scene : Scene α}

theorem links_tree (scene : Scene α) : scene.tree.links = scene.links := Array.map_map ..

/-- A new node changes nothing but children. -/
theorem map_bare_addNode (scene : Scene α) (parent : Option Nat) (node : SourceNode α) :
    (scene.addNode parent node).nodes.map SourceNode.bare =
      (scene.nodes.map SourceNode.bare).push node.bare := by
  cases parent with
  | none => exact Array.map_push
  | some parent =>
    refine Array.ext_getElem? fun position => ?_
    simp only [addNode, Array.getElem?_map, Array.getElem?_modify, ← Array.map_push]
    split
    case isTrue => cases (scene.nodes.push node)[position]? <;> rfl
    case isFalse => rfl

/-- A scene without nodes gets its root. -/
theorem tree_addNode_none (empty : scene.nodes = #[]) (node : SourceNode α) :
    (scene.addNode none node).tree = .ofRoot node.plain := by
  simp [tree, addNode, empty, NodeTree.ofRoot]

/-- Below a node that is there, a scene grows as a tree does. -/
theorem tree_addNode_some {parent : Nat} (present : parent < scene.nodes.size)
    (node : SourceNode α) :
    (scene.addNode (some parent) node).tree = scene.tree.attach parent node.plain := by
  rw [tree, NodeTree.attach, NodeTree.mk.injEq]
  refine Array.ext_getElem? fun position => ?_
  simp only [addNode, tree, NodeTree.size, Array.getElem?_map, Array.getElem?_modify,
    Array.getElem?_push, Array.size_modify, Array.size_map]
  by_cases last : position = scene.nodes.size
  · have other : parent ≠ position := by omega
    simp [last, last ▸ other]
  · by_cases here : parent = position
    · cases scene.nodes[position]? <;> simp [last, here, SourceNode.plain]
    · simp [last, here]

/-- Add a node below its parent. -/
def addEntry (scene : Scene α) (entry : SourceNode α × Option Nat) : Scene α :=
  scene.addNode entry.2 entry.1

theorem map_bare_foldl_addEntry (entries : List (SourceNode α × Option Nat)) (scene : Scene α) :
    (entries.foldl addEntry scene).nodes.toList.map SourceNode.bare =
      scene.nodes.toList.map SourceNode.bare ++ entries.map (·.1.bare) := by
  induction entries generalizing scene with
  | nil => simp
  | cons entry entries ih =>
    have added := congrArg Array.toList (scene.map_bare_addNode entry.2 entry.1)
    rw [List.foldl_cons, ih, addEntry, ← Array.toList_map, added]
    simp

/-- Below a path of nodes that are there, every further node of a preorder listing finds its
parent. -/
theorem tree_foldl_addEntry (nodes : List (SourceNode α)) {scene : Scene α} {path depths : List Nat}
    (filled : path ≠ []) (inside : ∀ parent ∈ path, parent < scene.nodes.size)
    (deep : ∀ depth ∈ depths, 0 < depth) :
    ((nodes.zip (Links.parentNumbers path scene.nodes.size depths)).foldl addEntry scene).tree =
      ((nodes.map SourceNode.plain).zip
        (Links.parentNumbers path scene.nodes.size depths)).foldl place scene.tree := by
  induction nodes generalizing scene path depths with
  | nil => rfl
  | cons node nodes ih =>
    cases depths with
    | nil => rfl
    | cons depth depths =>
      obtain ⟨here, later⟩ := List.forall_mem_cons.mp deep
      obtain ⟨parent, above, split⟩ :
          ∃ parent above, path.drop (path.length - depth) = parent :: above := by
        refine List.exists_cons_of_ne_nil fun none => ?_
        have length := List.drop_eq_nil_iff.mp none
        have positive := List.length_pos_iff.mpr filled
        omega
      have kept : ∀ entry ∈ parent :: above, entry < scene.nodes.size :=
        fun entry member => inside entry (List.mem_of_mem_drop (split ▸ member))
      have size := scene.size_addNode (some parent) node
      have within : ∀ entry ∈ scene.nodes.size :: parent :: above,
          entry < (scene.addNode (some parent) node).nodes.size := by
        rw [size]
        refine List.forall_mem_cons.mpr ⟨Nat.lt_succ_self _, fun entry member => ?_⟩
        exact Nat.lt_succ_of_lt (kept entry member)
      have next := ih (List.cons_ne_nil _ _) within later
      rw [size, tree_addNode_some (kept parent List.mem_cons_self)] at next
      simp only [Links.parentNumbers, split, List.head?_cons, List.zip_cons_cons, List.map_cons,
        List.foldl_cons]
      exact next

end Scene

end SceneBaker.Scene

namespace SceneBaker.Gltf

open Number Model Scene Build Steps

namespace Document

/-- The name that the scene has for a visit. -/
def visitName (document : Document) (position : Nat) : String :=
  match document.nodes[position]? with
  | none => Scene.defaultRootName
  | some _ => document.nodeName position

end Document

namespace Loaded

variable {loaded : Loaded} {forest : Forest Nat} {scene : Scene Single}

theorem name_sceneNode (loaded : Loaded) (uses : List Document.Use) (position : Nat) :
    (loaded.sceneNode uses position).name = loaded.document.visitName position := by
  rw [sceneNode, Document.visitName]
  cases loaded.document.nodes[position]? <;> rfl

theorem bare_sceneNode (loaded : Loaded) (uses : List Document.Use) (position : Nat) :
    (loaded.sceneNode uses position).bare = loaded.sceneNode uses position := by
  rw [sceneNode]
  cases loaded.document.nodes[position]? <;> rfl

/-- A scene of the document: the visits of the walk in their order and their shape, and a clip for
every animation. -/
structure Shows (loaded : Loaded) (forest : Forest Nat) (scene : Scene Single) : Prop where
  links : scene.links.Unfolds [0] (forest.number 0)
  nodes : ∃ uses, scene.nodes.toList.map SourceNode.bare =
    forest.preorder.map (loaded.sceneNode uses)
  clips : scene.clips = loaded.document.animations.map loaded.clip

theorem visits_eq (unfolds : loaded.document.links.Unfolds [loaded.document.nodes.size] forest)
    (distinct : forest.preorder.Nodup) : loaded.visits = forest.outline 0 := by
  rw [visits, Document.visits?, unfolds.walk?_eq distinct, Forest.inherit_depth]
  rfl

/-- The root of the walk is at the end of the document's links. -/
theorem exists_below (unfolds : loaded.document.links.Unfolds [loaded.document.nodes.size] forest) :
    ∃ below, forest = .cons loaded.document.nodes.size below .nil := by
  refine unfolds.exists_root ?_
  rw [Document.links, Array.size_push, Array.size_map]
  exact Nat.lt_succ_self _

/-- The visits' nodes, each below its parent by the depths of the walk. -/
def entries (loaded : Loaded) (uses : List Document.Use) (forest : Forest Nat) :
    List (SourceNode Single × Option Nat) :=
  (forest.preorder.map (loaded.sceneNode uses)).zip (Links.parentNumbers [] 0 (forest.depths 0))

theorem sceneNodes_outline (loaded : Loaded) (uses : List Document.Use) (forest : Forest Nat) :
    loaded.sceneNodes uses (forest.outline 0) =
      ((loaded.entries uses forest).foldl Scene.addEntry {}).nodes := by
  rw [entries, List.zip_map_left, List.foldl_map, ← forest.map_fst_outline 0,
    ← forest.map_snd_outline, List.zip_map_left, List.foldl_map]
  rfl

/-- The scene's nodes are those of the visits, in their order. -/
theorem map_bare_sceneNodes (loaded : Loaded) (uses : List Document.Use) (forest : Forest Nat) :
    (loaded.sceneNodes uses (forest.outline 0)).toList.map SourceNode.bare =
      forest.preorder.map (loaded.sceneNode uses) := by
  have length : (forest.preorder.map (loaded.sceneNode uses)).length ≤
      (Links.parentNumbers [] 0 (forest.depths 0)).length := by
    rw [List.length_map, forest.length_preorder, Links.length_parentNumbers, forest.length_depths]
  have bare : (loaded.entries uses forest).map (·.1.bare) =
      ((loaded.entries uses forest).map (·.1)).map SourceNode.bare := by
    rw [List.map_map]
    rfl
  rw [sceneNodes_outline, Scene.map_bare_foldl_addEntry, bare, entries, List.map_fst_zip length,
    List.map_map]
  exact List.map_congr_left fun position _ => loaded.bare_sceneNode uses position

/-- The entries of one tree grow a scene as they grow a tree of nodes. -/
theorem tree_foldl_entries (loaded : Loaded) (uses : List Document.Use) (position : Nat)
    (below : Forest Nat) :
    ((loaded.entries uses (.cons position below .nil)).foldl Scene.addEntry {}).tree =
      assemble (((Forest.cons position below .nil).preorder.map fun visit =>
        (loaded.sceneNode uses visit).plain).zip
          (Links.parentNumbers [] 0 ((Forest.cons position below .nil).depths 0))) := by
  let start : Scene Single := Scene.addEntry {} (loaded.sceneNode uses position, none)
  have root : start.tree = .ofRoot (loaded.sceneNode uses position).plain :=
    Scene.tree_addNode_none rfl _
  have size : start.nodes.size = 1 := Scene.size_addNode {} none (loaded.sceneNode uses position)
  have inside : ∀ parent ∈ [0], parent < start.nodes.size := by simp [size]
  have deep : ∀ depth ∈ below.depths 1, 0 < depth :=
    fun depth member => Forest.le_of_mem_depths member
  have grown := Scene.tree_foldl_addEntry (below.preorder.map (loaded.sceneNode uses))
    (List.cons_ne_nil 0 []) inside deep
  rw [size, root, List.map_map] at grown
  simp only [assemble_eq_foldl, entries, Forest.preorder, Forest.depths, Links.parentNumbers,
    List.append_nil, List.drop_nil, List.head?_nil, List.map_cons, List.zip_cons_cons,
    List.foldl_cons, Build.place]
  exact grown

/-- The scene's nodes have the shape of the walk. -/
theorem unfolds_sceneNodes (position : Nat) (below : Forest Nat) (uses : List Document.Use)
    (nodes : scene.nodes = loaded.sceneNodes uses
      ((Forest.cons position below .nil).outline 0)) :
    scene.links.Unfolds [0] ((Forest.cons position below .nil).number 0) := by
  have tree := loaded.tree_foldl_entries uses position below
  have same : scene.tree =
      ((loaded.entries uses (.cons position below .nil)).foldl Scene.addEntry {}).tree := by
    rw [Scene.tree, nodes, sceneNodes_outline, Scene.tree]
  rw [← same] at tree
  have childless : ∀ node ∈ (Forest.cons position below .nil).preorder.map fun visit =>
      (loaded.sceneNode uses visit).plain, node.children = [] := by
    intro node member
    obtain ⟨visit, -, rfl⟩ := List.mem_map.mp member
    rw [← loaded.bare_sceneNode]
    rfl
  obtain ⟨root, others, assembled, bare, -, numbers⟩ :=
    exists_ofForest (by rw [List.length_map, Forest.length_preorder]) childless
  have spells := (NodeTree.spells_ofForest bare).1
  rw [numbers, ← assembled, ← tree] at spells
  exact scene.links_tree ▸ spells.unfolds

theorem shows_of_toScene (unfolds : loaded.document.links.Unfolds [loaded.document.nodes.size] forest)
    (distinct : forest.preorder.Nodup) (imported : loaded.toScene = .ok scene) :
    loaded.Shows forest scene := by
  rw [toScene] at imported
  split at imported
  case isTrue => cases imported
  case isFalse =>
    rw [visits_eq unfolds distinct] at imported
    obtain ⟨meshes, -, made⟩ := bind_eq_ok_iff.mp imported
    obtain rfl := Except.ok.inj made
    obtain ⟨below, rfl⟩ := exists_below unfolds
    exact ⟨unfolds_sceneNodes _ _ _ rfl, ⟨_, loaded.map_bare_sceneNodes _ _⟩, rfl⟩

end Loaded

end SceneBaker.Gltf
