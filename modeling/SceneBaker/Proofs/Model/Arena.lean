import SceneBaker.Model.Tree
import SceneBaker.Proofs.Hierarchy.Forest
import Mathlib.Data.List.Nodup

/-! # Arenas of nodes

`tree.Spells forest` says that the child lists of a tree unfold, from its root, to a forest of
positions that meets each of them once. Its nodes in preorder are then the forest's, and
`NodeTree.ofForest` is the same tree with the arena in preorder, which is also what comes from adding
nodes in preorder one at a time.
-/

namespace SceneBaker.Model

/-- A node by itself, without its children. -/
def Node.bare (node : Node) : Node := { node with children := [] }

/-- A node with other children. -/
def Node.withChildren (node : Node) (children : List Nat) : Node := { node with children }

/-- The nodes of a forest in preorder, linked by their numbers from `start`. -/
def arena (start : Nat) : Forest Node → List Node
  | .nil => []
  | .cons node below rest =>
    node.withChildren (below.number (start + 1)).roots ::
      (arena (start + 1) below ++ arena (start + 1 + below.size) rest)

theorem length_arena (start : Nat) (forest : Forest Node) :
    (arena start forest).length = forest.size := by
  induction forest generalizing start with
  | nil => rfl
  | cons node below rest below_ih rest_ih =>
    simp only [arena, List.length_cons, List.length_append, below_ih, rest_ih, Forest.size]
    omega

@[simp] theorem Node.bare_withChildren (node : Node) (children : List Nat) :
    (node.withChildren children).bare = node.bare := rfl

/-- The number of children is all that a node's own bytes say of them. -/
theorem Node.encode_withChildren {node : Node} {children : List Nat}
    (same : children.length = node.children.length) :
    (node.withChildren children).encode = node.encode := by
  simp only [Node.encode, Node.withChildren, same]

/-! ## Linking new nodes -/

/-- Give one node of a list further children, behind those that it has. -/
def link (parent : Nat) (children : List Nat) (nodes : List Node) : List Node :=
  nodes.modify parent fun above => above.withChildren (above.children ++ children)

@[simp] theorem length_link (parent : Nat) (children : List Nat) (nodes : List Node) :
    (link parent children nodes).length = nodes.length := List.length_modify ..

@[simp] theorem link_nil (parent : Nat) (nodes : List Node) : link parent [] nodes = nodes := by
  have same : (fun above : Node => above.withChildren (above.children ++ [])) = id := by
    funext above
    simp [Node.withChildren]
  rw [link, same, List.modify_id]

theorem link_link (parent : Nat) (first second : List Nat) (nodes : List Node) :
    link parent second (link parent first nodes) = link parent (first ++ second) nodes := by
  simp [link, List.modify_modify_eq, Function.comp_def, Node.withChildren]

theorem link_append_left {parent : Nat} {nodes : List Node} (inside : parent < nodes.length)
    (children : List Nat) (more : List Node) :
    link parent children (nodes ++ more) = link parent children nodes ++ more := by
  induction nodes generalizing parent with
  | nil => exact absurd inside (Nat.not_lt_zero _)
  | cons first nodes ih =>
    cases parent with
    | zero => rfl
    | succ parent =>
      simp only [link, List.cons_append, List.modify_succ_cons, List.cons.injEq, true_and]
      exact ih (Nat.lt_of_succ_lt_succ inside)

theorem link_append_self (nodes : List Node) (node : Node) (children : List Nat) :
    link nodes.length children (nodes ++ [node]) =
      nodes ++ [node.withChildren (node.children ++ children)] := by
  induction nodes with
  | nil => rfl
  | cons first nodes ih =>
    simp only [link, List.length_cons, List.cons_append, List.modify_succ_cons, List.cons.injEq,
      true_and]
    exact ih

namespace NodeTree

theorem ext_toList {first second : NodeTree} (same : first.nodes.toList = second.nodes.toList) :
    first = second := by
  cases first
  cases second
  exact congrArg NodeTree.mk (Array.toList_inj.mp same)

/-- The tree that lists the nodes of a forest in preorder. -/
def ofForest (forest : Forest Node) : NodeTree := ⟨(arena 0 forest).toArray⟩

/-- Add a forest below a node, one node at a time. -/
def graft (tree : NodeTree) (parent : Nat) : Forest Node → NodeTree
  | .nil => tree
  | .cons node below rest =>
    ((tree.attach parent node).graft tree.size below).graft parent rest

@[simp] theorem size_attach (tree : NodeTree) (parent : Nat) (node : Node) :
    (tree.attach parent node).size = tree.size + 1 := by simp [size, attach]

@[simp] theorem size_graft (tree : NodeTree) (parent : Nat) (forest : Forest Node) :
    (tree.graft parent forest).size = tree.size + forest.size := by
  induction forest generalizing tree parent with
  | nil => rfl
  | cons node below rest below_ih rest_ih =>
    rw [graft, rest_ih, below_ih, size_attach, Forest.size]
    omega

theorem toList_attach (tree : NodeTree) (parent : Nat) (node : Node) :
    (tree.attach parent node).nodes.toList =
      link parent [tree.size] tree.nodes.toList ++ [node] := by
  simp [attach, link, Node.withChildren]

/-- Nodes that are added in preorder stand in the arena in preorder, behind the others. -/
theorem toList_graft (forest : Forest Node) (bare : ∀ node ∈ forest.preorder, node.bare = node)
    (tree : NodeTree) (parent : Nat) (inside : parent < tree.size) :
    (tree.graft parent forest).nodes.toList =
      link parent (forest.number tree.size).roots tree.nodes.toList ++ arena tree.size forest := by
  induction forest generalizing tree parent with
  | nil => simp [graft, arena, Forest.number, Forest.roots]
  | cons node below rest below_ih rest_ih =>
    simp only [Forest.preorder, List.mem_cons, List.mem_append, forall_eq_or_imp] at bare
    obtain ⟨alone, others⟩ := bare
    have childless : node.children = [] := by rw [← alone, Node.bare]
    obtain ⟨linked, eq⟩ : ∃ linked, linked = link parent [tree.size] tree.nodes.toList := ⟨_, rfl⟩
    have length : linked.length = tree.size := eq ▸ length_link ..
    have attached : (tree.attach parent node).nodes.toList = linked ++ [node] :=
      eq ▸ toList_attach ..
    have first : ((tree.attach parent node).graft tree.size below).nodes.toList =
        linked ++ arena tree.size (.cons node below .nil) := by
      rw [below_ih (fun other member => others other (.inl member)) _ _ (by simp), size_attach,
        attached, ← length, link_append_self, childless]
      simp [arena]
    rw [graft, rest_ih (fun other member => others other (.inr member)) _ _ (by simp; omega), first,
      size_graft, size_attach, link_append_left (by omega), eq, link_link, List.append_assoc]
    simp [arena, Forest.number, Forest.roots]

theorem graft_ofRoot {root : Node} {below : Forest Node}
    (bare : ∀ node ∈ (Forest.cons root below .nil).preorder, node.bare = node) :
    (ofRoot root).graft 0 below = ofForest (.cons root below .nil) := by
  simp only [Forest.preorder, List.append_nil, List.mem_cons, forall_eq_or_imp] at bare
  have childless : root.children = [] := by rw [← bare.1, Node.bare]
  have nodes : ((ofRoot root).graft 0 below).nodes.toList =
      (ofForest (.cons root below .nil)).nodes.toList := by
    rw [toList_graft below bare.2 (ofRoot root) 0 Nat.one_pos]
    simp [ofRoot, ofForest, arena, link, childless, size]
  exact ext_toList nodes

/-! ## Trees in any order -/

/-- The node at a position without its children. -/
def label (tree : NodeTree) (position : Nat) : Node := ((tree.get? position).getD {}).bare

/-- From the root, the child lists of the tree unfold to a forest that meets every position once. -/
structure Spells (tree : NodeTree) (forest : Forest Nat) : Prop where
  unfolds : tree.links.Unfolds [0] forest
  distinct : forest.preorder.Nodup
  complete : ∀ position < tree.size, position ∈ forest.preorder
  closed : ∀ node ∈ tree.nodes, ∀ child ∈ node.children, child < tree.size

theorem spells_empty : NodeTree.empty.Spells .nil where
  unfolds := .outside (by simp [links, empty]) .nil
  distinct := .nil
  complete _ inside := absurd inside (Nat.not_lt_zero _)
  closed := by simp [empty]

@[simp] theorem size_links (tree : NodeTree) : tree.links.size = tree.size := Array.size_map ..

theorem links_getElem? (tree : NodeTree) (position : Nat) :
    tree.links[position]? = (tree.get? position).map (·.children) := by
  simp [links, get?]

namespace Spells

variable {tree : NodeTree} {forest : Forest Nat}

theorem perm (spells : tree.Spells forest) : forest.preorder.Perm (List.range tree.size) := by
  refine (List.perm_ext_iff_of_nodup spells.distinct List.nodup_range).mpr fun position => ?_
  rw [List.mem_range]
  refine ⟨fun member => ?_, spells.complete position⟩
  simpa using spells.unfolds.lt_size position member

theorem size_eq (spells : tree.Spells forest) : forest.size = tree.size := by
  simpa [Forest.length_preorder] using spells.perm.length_eq

theorem closed_links (spells : tree.Spells forest) : tree.links.Closed := by
  intro children among child member
  obtain ⟨node, held, rfl⟩ := Array.mem_map.mp among
  simpa using spells.closed node held child member

theorem visits_eq (spells : tree.Spells forest) : tree.visits = forest.outline 0 :=
  (spells.closed_links.walk_eq .stop 0).trans (spells.unfolds.preorder_eq spells.distinct)

end Spells

/-- Nodes in preorder with their depths, each without its children. -/
def listing (tree : NodeTree) : List (Node × Nat) :=
  tree.visits.filterMap fun (position, depth) =>
    (tree.get? position).map fun node => (node.bare, depth)

theorem label_eq {tree : NodeTree} {position : Nat} {node : Node}
    (found : tree.get? position = some node) : tree.label position = node.bare := by
  rw [label, found, Option.getD_some]

theorem filterMap_getElem?_range {α : Type} (entries : List α) :
    (List.range entries.length).filterMap (entries[·]?) = entries := by
  induction entries with
  | nil => rfl
  | cons first entries ih =>
    rw [List.length_cons, List.range_succ_eq_map, List.filterMap_cons]
    simpa [List.filterMap_map, Function.comp_def] using ih

theorem filterMap_get?_range (tree : NodeTree) :
    (List.range tree.size).filterMap tree.get? = tree.nodes.toList := by
  have all := filterMap_getElem?_range tree.nodes.toList
  simp only [Array.length_toList, Array.getElem?_toList] at all
  exact all

namespace Spells

variable {tree : NodeTree} {forest : Forest Nat}

/-- The preorder of a tree looks its nodes up in the order of the forest. -/
theorem map_snd_preorder (spells : tree.Spells forest) :
    tree.preorder.map (·.2) = forest.preorder.filterMap tree.get? := by
  rw [preorder, spells.visits_eq, ← forest.map_fst_outline 0, List.filterMap_map,
    List.map_filterMap]
  simp [Function.comp_def]

theorem get?_eq (spells : tree.Spells forest) {position : Nat} (member : position ∈ forest.preorder) :
    ∃ node ∈ tree.nodes, tree.get? position = some node := by
  have bound : position < tree.size := by simpa using spells.unfolds.lt_size position member
  exact ⟨tree.nodes[position], Array.getElem_mem bound, Array.getElem?_eq_getElem bound⟩

/-- The listing of a tree is the outline of its nodes. -/
theorem listing_eq (spells : tree.Spells forest) :
    tree.listing = (forest.map tree.label).outline 0 := by
  rw [listing, spells.visits_eq, Forest.outline_map, ← List.filterMap_eq_map]
  refine List.filterMap_congr fun entry member => ?_
  have visited : entry.1 ∈ forest.preorder := by
    rw [← forest.map_fst_outline 0]
    exact List.mem_map_of_mem member
  obtain ⟨node, -, found⟩ := spells.get?_eq visited
  simp [found, label_eq found]

/-- The nodes that a forest looks up are those of the tree in some order. -/
theorem perm_get? (spells : tree.Spells forest) :
    (forest.preorder.filterMap tree.get?).Perm tree.nodes.toList := by
  rw [← tree.filterMap_get?_range]
  exact spells.perm.filterMap _

/-- The nodes of a tree in preorder are its nodes in some order. -/
theorem perm_label (spells : tree.Spells forest) :
    (forest.preorder.map tree.label).Perm (tree.nodes.toList.map Node.bare) := by
  refine (spells.perm.map _).trans (.of_eq ?_)
  refine List.ext_getElem (by simp [size]) fun position first second => ?_
  simp only [List.length_map, List.length_range] at first
  rw [List.getElem_map, List.getElem_map, List.getElem_range, Array.getElem_toList]
  exact label_eq (Array.getElem?_eq_getElem first)

end Spells

/-! ## Arenas in preorder -/

/-- A tree that spells a numbered forest holds its nodes in preorder. -/
theorem Spells.inOrder {tree : NodeTree} {α : Type} {forest : Forest α}
    (spells : tree.Spells (forest.number 0)) : tree.preorder.map (·.2) = tree.nodes.toList := by
  have size : forest.size = tree.size := by rw [← forest.size_number 0, spells.size_eq]
  rw [spells.map_snd_preorder, Forest.preorder_number, size, ← List.range_eq_range',
    filterMap_get?_range]

theorem map_bare_arena (start : Nat) (forest : Forest Node) :
    (arena start forest).map Node.bare = forest.preorder.map Node.bare := by
  induction forest generalizing start with
  | nil => rfl
  | cons node below rest below_ih rest_ih =>
    simp only [arena, Forest.preorder, List.map_cons, List.map_append, below_ih, rest_ih,
      Node.bare_withChildren]

private theorem lt_of_mem_roots_number {forest : Forest Node} {start child : Nat}
    (member : child ∈ (forest.number start).roots) : child < start + forest.size := by
  induction forest generalizing start with
  | nil => cases member
  | cons node below rest _ rest_ih =>
    simp only [Forest.number, Forest.roots, List.mem_cons] at member
    rw [Forest.size]
    rcases member with rfl | member
    · omega
    · have := rest_ih member
      omega

/-- A node of an arena is one of the forest with the numbers of some part behind it. -/
theorem exists_of_mem_arena {forest : Forest Node} {start : Nat} {node : Node}
    (member : node ∈ arena start forest) :
    ∃ alone ∈ forest.preorder, ∃ (part : Forest Node) (first : Nat),
      node = alone.withChildren (part.number first).roots ∧
        first + part.size ≤ start + forest.size := by
  induction forest generalizing start with
  | nil => cases member
  | cons root below rest below_ih rest_ih =>
    simp only [arena, List.mem_cons, List.mem_append] at member
    simp only [Forest.preorder, Forest.size, List.mem_cons, List.mem_append]
    rcases member with rfl | member | member
    · exact ⟨root, .inl rfl, below, start + 1, rfl, by omega⟩
    · obtain ⟨alone, among, part, first, same, bound⟩ := below_ih member
      exact ⟨alone, .inr (.inl among), part, first, same, by omega⟩
    · obtain ⟨alone, among, part, first, same, bound⟩ := rest_ih member
      exact ⟨alone, .inr (.inr among), part, first, same, by omega⟩

/-- Where a tree holds a numbered forest, its links spell the numbers and its labels the nodes. -/
private theorem unfolds_arena {tree : NodeTree} {forest : Forest Node}
    (bare : ∀ node ∈ forest.preorder, node.bare = node) {start : Nat} {after : List Node}
    (placed : tree.nodes.toList.drop start = arena start forest ++ after) :
    tree.links.Unfolds (forest.number start).roots (forest.number start) ∧
      (forest.number start).map tree.label = forest := by
  induction forest generalizing start after with
  | nil => exact ⟨.nil, rfl⟩
  | cons node below rest below_ih rest_ih =>
    simp only [Forest.preorder, List.mem_cons, List.mem_append, forall_eq_or_imp] at bare
    obtain ⟨alone, others⟩ := bare
    simp only [arena, List.cons_append, List.append_assoc] at placed
    have top : tree.get? start = some (node.withChildren (below.number (start + 1)).roots) := by
      have head := congrArg (·[0]?) placed
      simpa [get?] using head
    have tail : tree.nodes.toList.drop (start + 1) =
        arena (start + 1) below ++ (arena (start + 1 + below.size) rest ++ after) := by
      rw [← List.drop_drop, placed]
      rfl
    have last : tree.nodes.toList.drop (start + 1 + below.size) =
        arena (start + 1 + below.size) rest ++ after := by
      rw [← List.drop_drop, tail, ← length_arena (start + 1) below, List.drop_left]
    have down := below_ih (fun other member => others other (.inl member)) tail
    have next := rest_ih (fun other member => others other (.inr member)) last
    refine ⟨.inside ?_ down.1 next.1, ?_⟩
    · rw [links_getElem?, top]
      rfl
    · rw [Forest.number, Forest.map, down.2, next.2, label_eq top, Node.bare_withChildren, alone]

/-- The nodes at the positions of a forest that is numbered already are its arena. -/
private theorem arena_map_label {tree : NodeTree} {children : List Nat} {forest : Forest Nat}
    (unfolds : tree.links.Unfolds children forest)
    (closed : ∀ node ∈ tree.nodes, ∀ child ∈ node.children, child < tree.size) {start : Nat}
    (numbered : forest.number start = forest) :
    arena start (forest.map tree.label) = forest.preorder.filterMap tree.get? := by
  induction unfolds generalizing start with
  | nil => rfl
  | outside _ _ ih => exact ih numbered
  | @inside position children _ below rest present down after down_ih after_ih =>
    obtain ⟨node, found, rfl⟩ := Option.map_eq_some_iff.mp (tree.links_getElem? _ ▸ present)
    have inside := closed node (Array.mem_of_getElem? found)
    have roots := down.roots_eq fun child member => by simpa using inside child member
    obtain ⟨rfl, first, second⟩ := Forest.cons.inj numbered
    have own : (tree.label start).withChildren ((below.map tree.label).number (start + 1)).roots =
        node := by
      rw [label_eq found, Forest.number_map, first, roots]
      rfl
    rw [Forest.map, arena, Forest.preorder, List.filterMap_cons, found, List.filterMap_append, own,
      down_ih first, Forest.size_map, after_ih second]

/-- A tree whose arena stands in preorder is the one that lists its forest in preorder. -/
theorem Spells.ofForest_map_label {tree : NodeTree} {forest : Forest Nat}
    (spells : tree.Spells forest)
    (inOrder : tree.visits.map (·.1) = List.range tree.size) :
    ofForest (forest.map tree.label) = tree := by
  rw [spells.visits_eq, Forest.map_fst_outline] at inOrder
  have numbered : forest.number 0 = forest := by
    apply Forest.ext_preorder 0 (Forest.number_number ..)
    rw [Forest.preorder_number, inOrder, spells.size_eq, List.range_eq_range']
  apply ext_toList
  rw [ofForest, List.toList_toArray, arena_map_label spells.unfolds spells.closed numbered, inOrder,
    filterMap_get?_range]

/-- A single tree whose nodes stand in preorder spells their numbers, and its labels are its nodes. -/
theorem spells_ofForest {root : Node} {below : Forest Node}
    (bare : ∀ node ∈ (Forest.cons root below .nil).preorder, node.bare = node) :
    (ofForest (.cons root below .nil)).Spells ((Forest.cons root below .nil).number 0) ∧
      ((Forest.cons root below .nil).number 0).map (ofForest (.cons root below .nil)).label =
        .cons root below .nil := by
  have placed : (ofForest (.cons root below .nil)).nodes.toList.drop 0 =
      arena 0 (.cons root below .nil) ++ [] := by simp [ofForest]
  obtain ⟨unfolds, labels⟩ := unfolds_arena bare placed
  have size : (ofForest (.cons root below .nil)).size = (Forest.cons root below .nil).size := by
    simp [NodeTree.size, ofForest, length_arena]
  refine ⟨⟨unfolds, ?_, ?_, ?_⟩, labels⟩
  · rw [Forest.preorder_number]
    exact List.nodup_range'
  · intro position bound
    rw [Forest.preorder_number, List.mem_range'_1]
    omega
  · intro node member child listed
    obtain ⟨alone, -, part, first, rfl, bound⟩ := exists_of_mem_arena (List.mem_toArray.mp member)
    have := lt_of_mem_roots_number listed
    omega

end NodeTree
end SceneBaker.Model
