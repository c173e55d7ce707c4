import SceneBaker.Proofs.Hierarchy.Ancestors
import SceneBaker.Proofs.Model.Recovery

/-! # Renumbering

The rank of a node is its place in preorder. A tree that is stored and read back holds every node at
its rank, with its children in their order below it, and its parent table is the old one with ranks
in place of positions.
-/

namespace SceneBaker

/-- Numbering a forest in preorder gives every entry its place. -/
theorem Forest.number_eq_map {forest : Forest Nat} {start : Nat} {rank : Nat → Nat}
    (ranked : forest.preorder.map rank = List.range' start forest.size) :
    forest.number start = forest.map rank := by
  apply Forest.ext_preorder 0
  · rw [number_number, number_map]
  · rw [preorder_number, preorder_map, ranked]

namespace Links

variable {links : Links} {children : List Nat} {forest : Forest Nat}

/-- A forest with a first tree is unfolded from the children of its root and from some siblings. -/
theorem Unfolds.of_cons {root : Nat} {below rest : Forest Nat}
    (unfolds : links.Unfolds children (.cons root below rest)) :
    ∃ listed siblings, links[root]? = some listed ∧ links.Unfolds listed below ∧
      links.Unfolds siblings rest := by
  obtain ⟨all, whole⟩ : ∃ all, all = Forest.cons root below rest := ⟨_, rfl⟩
  rw [← whole] at unfolds
  induction unfolds with
  | nil => cases whole
  | outside _ _ ih => exact ih whole
  | inside present down after =>
    cases whole
    exact ⟨_, _, present, down, after⟩

/-- Two arenas that unfold to one forest, but for its names, list the same children by their names. -/
theorem Unfolds.getElem?_map {others : Links} {starts : List Nat} {rank : Nat → Nat}
    (unfolds : links.Unfolds children forest) (closed : links.Closed)
    (again : others.Unfolds starts (forest.map rank)) (enclosed : others.Closed) :
    ∀ position ∈ forest.preorder, others[rank position]? = links[position]?.map (List.map rank) := by
  induction unfolds generalizing starts with
  | nil => nofun
  | outside _ _ ih => exact ih again
  | @inside position children siblings below rest present down after down_ih after_ih =>
    obtain ⟨listed, beside, found, lower, later⟩ := again.of_cons
    have here : others[rank position]? = links[position]?.map (List.map rank) := by
      have first := down.roots_eq (closed _ (Array.mem_of_getElem? present))
      have second := lower.roots_eq (enclosed _ (Array.mem_of_getElem? found))
      rw [found, present, Option.map_some, ← first, ← second, Forest.roots_map]
    exact List.forall_mem_cons.mpr
      ⟨here, List.forall_mem_append.mpr ⟨down_ih lower, after_ih later⟩⟩

end Links

namespace Model.NodeTree

/-- The place of a position in preorder. -/
def rank (tree : NodeTree) (position : Nat) : Nat := (tree.visits.map (·.1)).idxOf position

/-- Another tree holds the nodes of this one in preorder, each at its rank: it has the same children
in the same order, and the same parent. -/
structure Renumbered (tree again : NodeTree) : Prop where
  size : again.size = tree.size
  inOrder : again.visits.map (·.1) = List.range tree.size
  get? : ∀ position < tree.size, again.get? (tree.rank position) =
    (tree.get? position).map fun node => node.withChildren (node.children.map tree.rank)
  parents : ∀ position < tree.size, again.parents[tree.rank position]? =
    tree.parents[position]?.map fun parent => parent.map tree.rank

namespace Spells

variable {tree : NodeTree} {forest : Forest Nat}

theorem rooted_links (spells : tree.Spells forest) (filled : 0 < tree.size) : tree.links.Rooted := by
  refine (Links.rooted_iff (by simpa using filled)).mpr
    ⟨spells.closed_links, forest, spells.unfolds, ?_⟩
  rw [size_links]
  exact spells.perm

theorem rank_eq (spells : tree.Spells forest) (position : Nat) :
    tree.rank position = forest.preorder.idxOf position := by
  rw [rank, spells.visits_eq, Forest.map_fst_outline]

theorem map_rank (spells : tree.Spells forest) :
    forest.preorder.map tree.rank = List.range tree.size := by
  have length : forest.preorder.length = tree.size :=
    forest.length_preorder.trans spells.size_eq
  refine List.ext_getElem (by simp [length]) fun place first second => ?_
  rw [List.getElem_map, List.getElem_range, spells.rank_eq, spells.distinct.idxOf_getElem]

theorem rank_zero (spells : tree.Spells forest) (filled : 0 < tree.size) : tree.rank 0 = 0 := by
  obtain ⟨below, rfl⟩ := spells.exists_root filled
  rw [spells.rank_eq, Forest.preorder, List.idxOf_cons_self]

theorem number_eq (spells : tree.Spells forest) : forest.number 0 = forest.map tree.rank := by
  apply Forest.number_eq_map
  rw [spells.map_rank, ← spells.size_eq, List.range_eq_range']

/-- The tree in preorder spells the ranks. -/
theorem spells_rank (spells : tree.Spells forest) (filled : 0 < tree.size) :
    (ofForest (forest.map tree.label)).Spells (forest.map tree.rank) :=
  spells.number_eq ▸ (spells.spells_ofForest filled).1

/-- A position and its rank name the same node. -/
theorem label_rank (spells : tree.Spells forest) (filled : 0 < tree.size) :
    ∀ position ∈ forest.preorder,
      (ofForest (forest.map tree.label)).label (tree.rank position) = tree.label position := by
  have entries := congrArg Forest.preorder (spells.spells_ofForest filled).2
  rw [spells.number_eq, Forest.preorder_map, Forest.preorder_map, Forest.preorder_map,
    List.map_map] at entries
  exact List.map_inj_left.mp entries

theorem get?_rank (spells : tree.Spells forest) (filled : 0 < tree.size) {position : Nat}
    (inside : position < tree.size) :
    (ofForest (forest.map tree.label)).get? (tree.rank position) =
      (tree.get? position).map fun node => node.withChildren (node.children.map tree.rank) := by
  have again := spells.spells_rank filled
  have member := spells.complete position inside
  have children := spells.unfolds.getElem?_map spells.closed_links again.unfolds
    again.closed_links position member
  have names := spells.label_rank filled position member
  obtain ⟨node, -, found⟩ := spells.get?_eq member
  rw [links_getElem?, links_getElem?, found, Option.map_some, Option.map_some,
    Option.map_eq_some_iff] at children
  obtain ⟨moved, held, listed⟩ := children
  rw [label_eq held, label_eq found] at names
  rw [held, found, Option.map_some, ← listed]
  have same : moved.bare.withChildren moved.children = node.bare.withChildren moved.children :=
    congrArg (·.withChildren moved.children) names
  exact congrArg some same

theorem above_rank (spells : tree.Spells forest) (filled : 0 < tree.size) {parent child : Nat}
    (above : tree.links.Above parent child) :
    (ofForest (forest.map tree.label)).links.Above (tree.rank parent) (tree.rank child) := by
  obtain ⟨children, present, listed⟩ := above
  have inside : parent < tree.size := by simpa using (Array.getElem?_eq_some_iff.mp present).1
  rw [links_getElem?] at present
  obtain ⟨node, found, rfl⟩ := Option.map_eq_some_iff.mp present
  refine ⟨node.children.map tree.rank, ?_, List.mem_map_of_mem listed⟩
  rw [links_getElem?, spells.get?_rank filled inside, found]
  rfl

/-- Storing a tree in preorder renumbers it. -/
theorem renumbered (spells : tree.Spells forest) (filled : 0 < tree.size) :
    tree.Renumbered (ofForest (forest.map tree.label)) where
  size := spells.size_ofForest
  inOrder := (spells.ofForest_inOrder filled).2
  get? _ inside := spells.get?_rank filled inside
  parents position inside := by
    have rooted := spells.rooted_links filled
    have again := (spells.spells_rank filled).rooted_links (by rwa [spells.size_ofForest])
    rw [NodeTree.parents, NodeTree.parents]
    rcases Nat.eq_zero_or_pos position with rfl | positive
    · rw [spells.rank_zero filled, rooted.parents_root, again.parents_root]
      rfl
    · obtain ⟨parent, above⟩ := rooted.exists_above positive (by simpa using inside)
      rw [rooted.parents_child above, again.parents_child (spells.above_rank filled above)]
      rfl

end Spells

end Model.NodeTree

end SceneBaker
