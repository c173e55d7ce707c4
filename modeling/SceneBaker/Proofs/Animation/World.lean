import SceneBaker.Animation.Pose
import SceneBaker.Proofs.Model.Arena

/-! # World transforms

The world transform of a node is its parent's times its own, and the identity times its own for the
root. In a tree every node has exactly one, and it depends neither on the order of the arena nor on
the order of siblings. The product need not obey any law: it may be rounded or exact.
-/

namespace SceneBaker.Model.NodeTree

variable {M : Type} [One M] [Mul M]

/-- World transforms by position, for given transforms of the nodes relative to their parents. -/
inductive World (tree : NodeTree) (own : Node → M) : Nat → M → Prop
  | root {node : Node} (found : tree.get? 0 = some node) : tree.World own 0 (1 * own node)
  | child {parent position : Nat} {above node : Node} {world : M}
      (upper : tree.World own parent world) (found : tree.get? parent = some above)
      (listed : position ∈ above.children) (present : tree.get? position = some node) :
      tree.World own position (world * own node)

/-- The transform that a position makes of its parent's. -/
def handDown (tree : NodeTree) (own : Node → M) (above : Option (M))
    (position : Nat) : M :=
  match tree.get? position with
  | some node => above.getD 1 * own node
  | none => above.getD 1

/-- The nodes of a forest with the transforms that are handed down to them. -/
def handed (tree : NodeTree) (own : Node → M) (forest : Forest Nat) : List (Node × M) :=
  (forest.inherit (tree.handDown own) none).preorder.filterMap fun visit =>
    (tree.get? visit.1).map (·, visit.2)

variable {tree : NodeTree} {own : Node → M} {forest : Forest Nat}

theorem handDown_eq {position : Nat} {node : Node} (found : tree.get? position = some node)
    (above : Option (M)) :
    tree.handDown own above position = above.getD 1 * own node := by
  rw [handDown, found]

/-- What is handed down below some world transforms are world transforms. -/
private theorem world_of_mem_inherit {children : List Nat} (unfolds : tree.links.Unfolds children forest)
    {above : Option (M)}
    (start : ∀ child ∈ children, ∀ node, tree.get? child = some node →
      tree.World own child (above.getD 1 * own node)) :
    ∀ entry ∈ (forest.inherit (tree.handDown own) above).preorder,
      tree.World own entry.1 entry.2 := by
  induction unfolds generalizing above with
  | nil => intro entry member; cases member
  | outside _ _ ih => exact ih fun child member => start child (List.mem_cons_of_mem _ member)
  | @inside position _ _ _ _ present _ _ down_ih after_ih =>
    obtain ⟨node, found, rfl⟩ := Option.map_eq_some_iff.mp (tree.links_getElem? _ ▸ present)
    have here := start position List.mem_cons_self node found
    rw [← handDown_eq found] at here
    have below (child : Nat) (listed : child ∈ node.children) (lower : Node)
        (present : tree.get? child = some lower) :
        tree.World own child ((some (tree.handDown own above position)).getD 1 * own lower) := by
      rw [Option.getD_some]
      exact here.child found listed present
    simp only [Forest.inherit, Forest.preorder, List.mem_cons, List.mem_append]
    rintro entry (rfl | lower | rest)
    · exact here
    · exact down_ih below entry lower
    · exact after_ih (fun child member => start child (List.mem_cons_of_mem _ member)) entry rest

/-- Every child of the list is handed its transform. -/
private theorem mem_inherit_of_mem {children : List Nat} (unfolds : tree.links.Unfolds children forest)
    (above : Option (M)) {child : Nat} (listed : child ∈ children) {node : Node}
    (found : tree.get? child = some node) :
    (child, above.getD 1 * own node) ∈ (forest.inherit (tree.handDown own) above).preorder := by
  induction unfolds with
  | nil => cases listed
  | outside absent _ ih =>
    rcases List.mem_cons.mp listed with rfl | later
    · rw [links_getElem?, found] at absent
      cases absent
    · exact ih later
  | inside _ _ _ _ ih =>
    simp only [Forest.inherit, Forest.preorder, List.mem_cons, List.mem_append]
    rcases List.mem_cons.mp listed with rfl | later
    · rw [handDown_eq found]
      exact .inl rfl
    · exact .inr (.inr (ih later))

/-- Every child of a position in the forest is handed its transform. -/
private theorem mem_inherit_child {children : List Nat} (unfolds : tree.links.Unfolds children forest)
    {above : Option (M)} {parent child : Nat} {world : M}
    (upper : (parent, world) ∈ (forest.inherit (tree.handDown own) above).preorder)
    {node lower : Node} (found : tree.get? parent = some node) (listed : child ∈ node.children)
    (present : tree.get? child = some lower) :
    (child, world * own lower) ∈ (forest.inherit (tree.handDown own) above).preorder := by
  induction unfolds generalizing above with
  | nil => cases upper
  | outside _ _ ih => exact ih upper
  | @inside position children _ _ _ linked down _ down_ih after_ih =>
    simp only [Forest.inherit, Forest.preorder, List.mem_cons, List.mem_append] at upper ⊢
    rcases upper with same | below | rest
    · obtain ⟨rfl, rfl⟩ := Prod.mk.inj same
      rw [links_getElem?, found] at linked
      cases linked
      exact .inr (.inl (mem_inherit_of_mem down (some _) listed present))
    · exact .inr (.inl (down_ih below))
    · exact .inr (.inr (after_ih rest))

namespace Spells

/-- A walk through the tree hands down exactly the world transforms. -/
theorem world_iff_mem (spells : tree.Spells forest) (position : Nat) (world : M) :
    tree.World own position world ↔
      (position, world) ∈ (forest.inherit (tree.handDown own) none).preorder := by
  constructor
  · intro derived
    induction derived with
    | root found => exact mem_inherit_of_mem spells.unfolds none List.mem_cons_self found
    | child _ found listed present upper =>
      exact mem_inherit_child spells.unfolds upper found listed present
  · intro member
    apply world_of_mem_inherit spells.unfolds ?_ _ member
    intro child listed node found
    obtain rfl := List.mem_singleton.mp listed
    exact .root found

/-- Every node has a world transform. -/
theorem exists_world (spells : tree.Spells forest) (own : Node → M) {position : Nat}
    (inside : position < tree.size) : ∃ world, tree.World own position world := by
  have member := spells.complete position inside
  rw [← forest.map_fst_inherit (tree.handDown own) none] at member
  obtain ⟨entry, among, rfl⟩ := List.mem_map.mp member
  exact ⟨entry.2, (spells.world_iff_mem _ _).mpr among⟩

/-- No node has two world transforms. -/
theorem world_unique (spells : tree.Spells forest) {position : Nat} {first second : M}
    (one : tree.World own position first) (other : tree.World own position second) :
    first = second := by
  have distinct := spells.distinct
  rw [← forest.map_fst_inherit (tree.handDown own) none] at distinct
  have same := List.inj_on_of_nodup_map distinct ((spells.world_iff_mem _ _).mp one)
    ((spells.world_iff_mem _ _).mp other) rfl
  exact (Prod.mk.inj same).2

/-- The order of siblings does not change what a walk visits. -/
theorem worlds_perm (spells : tree.Spells forest) :
    (tree.worlds own).Perm (tree.handed own forest) := by
  have mirrored := forest.preorder_inherit_mirror (tree.handDown own) none
  have distinct : forest.mirror.preorder.Nodup := by
    have same := mirrored.map (·.1)
    rw [Forest.map_fst_inherit, Forest.map_fst_inherit] at same
    exact same.nodup_iff.mpr spells.distinct
  have walk := spells.unfolds.mirror.walk_eq distinct (tree.handDown own)
  have visits : tree.worlds own = tree.handed own forest.mirror := by
    change (Links.walk (tree.links.map List.reverse) .skip (tree.handDown own) 0).filterMap _ = _
    rw [walk]
    rfl
  rw [visits]
  exact mirrored.filterMap _

/-- A walk visits every node once. -/
theorem map_fst_worlds (spells : tree.Spells forest) (own : Node → M) :
    ((tree.worlds own).map (·.1)).Perm tree.nodes.toList := by
  have nodes : (tree.handed own forest).map (·.1) = forest.preorder.filterMap tree.get? := by
    rw [handed, ← forest.map_fst_inherit (tree.handDown own) none, List.filterMap_map,
      List.map_filterMap]
    simp [Function.comp_def]
  exact (spells.worlds_perm.map _).trans (nodes ▸ spells.perm_get?)

/-- A walk visits every node with its world transform. -/
theorem mem_worlds_iff (spells : tree.Spells forest) {node : Node} {world : M} :
    (node, world) ∈ tree.worlds own ↔
      ∃ position, tree.get? position = some node ∧ tree.World own position world := by
  simp only [spells.worlds_perm.mem_iff, handed, List.mem_filterMap, Option.map_eq_some_iff,
    Prod.exists, spells.world_iff_mem, Prod.mk.injEq]
  constructor
  · rintro ⟨position, absolute, visited, again, found, rfl, rfl⟩
    exact ⟨position, found, visited⟩
  · rintro ⟨position, found, visited⟩
    exact ⟨position, world, visited, node, found, rfl, rfl⟩

end Spells

/-- Only the transforms of the tree's own nodes matter. -/
theorem World.congr {other : Node → M} (alike : ∀ node ∈ tree.nodes, own node = other node)
    {position : Nat} {world : M} (derived : tree.World own position world) :
    tree.World other position world := by
  induction derived with
  | root found =>
    rw [alike _ (Array.mem_of_getElem? found)]
    exact .root found
  | child _ found listed present ih =>
    rw [alike _ (Array.mem_of_getElem? present)]
    exact .child ih found listed present

/-- Another arrangement of the same tree: every node is found again at its new position, below the
same parent, whatever its place among its siblings. -/
structure Rearranges (tree other : NodeTree) (move : Nat → Nat) : Prop where
  size : other.size = tree.size
  root : move 0 = 0
  moved : ∀ position node, tree.get? position = some node → ∃ again,
    other.get? (move position) = some again ∧ again.bare = node.bare ∧
      ∀ child ∈ node.children, move child ∈ again.children

/-- World transforms do not depend on the arrangement. -/
theorem World.rearrange {other : NodeTree} {move : Nat → Nat} (same : tree.Rearranges other move)
    (alike : ∀ first second : Node, first.bare = second.bare → own first = own second)
    {position : Nat} {world : M} (derived : tree.World own position world) :
    other.World own (move position) world := by
  induction derived with
  | root found =>
    obtain ⟨again, present, bare, -⟩ := same.moved _ _ found
    rw [same.root] at present ⊢
    rw [← alike _ _ bare]
    exact .root present
  | child _ found listed present ih =>
    obtain ⟨above, upper, -, children⟩ := same.moved _ _ found
    obtain ⟨again, here, bare, -⟩ := same.moved _ _ present
    rw [← alike _ _ bare]
    exact .child ih upper (children _ listed) here

end SceneBaker.Model.NodeTree
