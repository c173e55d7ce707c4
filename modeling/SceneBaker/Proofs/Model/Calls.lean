import SceneBaker.Proofs.Binary.Index
import SceneBaker.Proofs.Model.Growth
import SceneBaker.Proofs.Model.Renumbering

/-! # Trees from calls

A tree is made from a root by calls that add a node, each naming any position as the parent. New nodes
come without children: their lists hold positions in the arena, and only calls fill them. Whatever the
calls are, the arena holds one tree, its walk and its parent table agree with the child lists, and it
is stored and read back up to the order of the arena.
-/

namespace SceneBaker.Model.NodeTree

open Binary

/-- The tree after a call with a parent and a new node. A call that is refused changes nothing. -/
def afterCall (tree : NodeTree) (call : Nat × Node) : NodeTree :=
  (tree.addChild? call.1 call.2).getD tree

def afterCalls (tree : NodeTree) (calls : List (Nat × Node)) : NodeTree := calls.foldl afterCall tree

/-- A node was added: it is the last one and its parent's last child, and nothing else changed. -/
structure Adds (tree : NodeTree) (parent : Nat) (node : Node) (next : NodeTree) : Prop where
  size : next.size = tree.size + 1
  added : next.get? tree.size = some node
  linked : next.get? parent = (tree.get? parent).map fun above =>
    above.withChildren (above.children ++ [tree.size])
  kept : ∀ position < tree.size, position ≠ parent → next.get? position = tree.get? position

theorem addChild?_missing {tree : NodeTree} {parent : Nat} (missing : tree.size ≤ parent)
    (node : Node) :
    tree.addChild? parent node = none ∧ tree.afterCall (parent, node) = tree := by
  have refused : tree.addChild? parent node = none := if_neg (Nat.not_lt.mpr missing)
  exact ⟨refused, by rw [afterCall, refused, Option.getD_none]⟩

theorem addChild?_present {tree : NodeTree} {parent : Nat} (present : parent < tree.size)
    (node : Node) : ∃ next, tree.addChild? parent node = some next ∧
      tree.afterCall (parent, node) = next ∧ tree.Adds parent node next := by
  have added : tree.addChild? parent node = some (tree.attach parent node) := if_pos present
  refine ⟨_, added, ?_, size_attach .., ?_, ?_, fun position inside other => ?_⟩
  · rw [afterCall, added, Option.getD_some]
  · rw [get?_attach, if_pos rfl]
  · rw [get?_attach, if_neg present.ne, if_pos rfl]
  · rw [get?_attach, if_neg inside.ne, if_neg (Ne.symm other)]

/-- Calls with new nodes lead from grown trees to grown trees. -/
theorem Grown.afterCalls {tree : NodeTree} (grown : tree.Grown) {calls : List (Nat × Node)}
    (childless : ∀ call ∈ calls, call.2.children = []) : (tree.afterCalls calls).Grown := by
  induction calls generalizing tree with
  | nil => exact grown
  | cons call calls ih =>
    obtain ⟨here, others⟩ := List.forall_mem_cons.mp childless
    have next : (tree.afterCall call).Grown := by
      rw [afterCall]
      cases added : tree.addChild? call.1 call.2 with
      | none => exact grown
      | some next => exact grown.child here added
    exact ih next others

/-- The arena holds one tree. The walk meets every node once, a parent before its children and these
in the order in which they were added, at the depth that is the number of nodes above it. The parent
table holds nothing for the root, and for any other node the one that lists it. -/
structure Arborescence (tree : NodeTree) : Prop where
  rooted : tree.links.Rooted
  met : (tree.visits.map (·.1)).Perm (List.range tree.size)
  nodes : tree.preorder.map (fun entry => (entry.1, some entry.2)) =
    tree.visits.map fun visit => (visit.1, tree.get? visit.1)
  children : ∀ position node, tree.get? position = some node →
    (position :: node.children).Sublist (tree.visits.map (·.1)) ∧ node.children.Pairwise (· < ·)
  depth : ∀ visit ∈ tree.visits, (tree.links.ancestors visit.1).encard = visit.2
  root : tree.parents[0]? = some none
  parent : ∀ position, 0 < position → position < tree.size → ∃ parent,
    tree.parents[position]? = some (some parent) ∧
      ∀ other, tree.links.Above other position ↔ other = parent

/-- A tree that a file can hold: names do not end early, numbers store the indices, and counts the
lengths of lists. -/
structure Portable (tree : NodeTree) : Prop where
  names : ∀ node ∈ tree.nodes.toList, Reader.Unbroken node.name
  indices : ∀ node ∈ tree.nodes.toList, node.index.toNat ≤ 2 ^ 24
  meshCounts : ∀ node ∈ tree.nodes.toList, node.meshes.length < 2 ^ 32
  childCounts : ∀ node ∈ tree.nodes.toList, node.children.length < 2 ^ 32

namespace Spells

variable {tree : NodeTree} {forest : Forest Nat}

/-- The preorder of a tree pairs every position that is visited with its node. -/
theorem preorder_eq (spells : tree.Spells forest) :
    tree.preorder.map (fun entry => (entry.1, some entry.2)) =
      tree.visits.map fun visit => (visit.1, tree.get? visit.1) := by
  rw [preorder, List.map_filterMap, ← List.filterMap_eq_map]
  refine List.filterMap_congr fun visit member => ?_
  rw [spells.visits_eq] at member
  have visited : visit.1 ∈ forest.preorder := by
    rw [← forest.map_fst_outline 0]
    exact List.mem_map_of_mem member
  obtain ⟨node, -, found⟩ := spells.get?_eq visited
  simp [found]

theorem encard_ancestors (spells : tree.Spells forest) (filled : 0 < tree.size) :
    ∀ visit ∈ tree.visits, (tree.links.ancestors visit.1).encard = visit.2 := by
  have rooted := spells.rooted_links filled
  rw [spells.visits_eq]
  refine rooted.encard_ancestors spells.unfolds fun root member => ?_
  rw [List.mem_singleton.mp member, rooted.ancestors_root]
  exact Set.encard_empty

/-- A tree whose nodes can be stored is read back as it was stored, renumbered. -/
theorem decode_encode (spells : tree.Spells forest) (filled : 0 < tree.size)
    (portable : tree.Portable) : ∃ bytes again, tree.encode.result = .ok bytes ∧
      (∀ rest, NodeTree.decode (bytes ++ rest) = .ok (again, rest)) ∧ tree.Renumbered again := by
  have renumbered := spells.renumbered filled
  have few : ∀ node ∈ (ofForest (forest.map tree.label)).nodes, node.children.length < 2 ^ 32 := by
    intro node member
    obtain ⟨place, held⟩ := Array.mem_iff_getElem?.mp member
    have inside : place < tree.size := renumbered.size ▸ (Array.getElem?_eq_some_iff.mp held).1
    rw [← List.mem_range, ← spells.map_rank] at inside
    obtain ⟨position, met, rfl⟩ := List.mem_map.mp inside
    obtain ⟨old, among, found⟩ := spells.get?_eq met
    have moved := spells.get?_rank filled (Array.getElem?_eq_some_iff.mp found).1
    rw [found, Option.map_some] at moved
    obtain rfl := Option.some.inj (held.symm.trans moved)
    change (old.children.map tree.rank).length < 2 ^ 32
    rw [List.length_map]
    exact portable.childCounts old (Array.mem_toList_iff.mpr among)
  have encodable (node : Node) (member : node ∈ tree.nodes.toList) : node.Encodable :=
    ⟨portable.names node member, storable_of_le (portable.indices node member),
      portable.meshCounts node member⟩
  have recovers := spells.recovers_decode_of_few filled few encodable
  exact ⟨_, _, Output.result_eq_ok recovers.complete, recovers.reads, renumbered⟩

end Spells

theorem Grown.arborescence {tree : NodeTree} (grown : tree.Grown) : tree.Arborescence := by
  have filled := grown.rooted
  obtain ⟨forest, spells⟩ := grown.exists_spells
  have rooted := spells.rooted_links filled
  have walked : tree.visits.map (·.1) = forest.preorder := by
    rw [spells.visits_eq, Forest.map_fst_outline]
  constructor
  case rooted => exact rooted
  case met => exact walked ▸ spells.perm
  case nodes => exact spells.preorder_eq
  case children =>
    intro position node found
    have inside : position < tree.size := (Array.getElem?_eq_some_iff.mp found).1
    refine ⟨walked ▸ spells.unfolds.sublist_preorder spells.closed_links
      (spells.complete position inside) ?_, grown.ascending found⟩
    rw [links_getElem?, found, Option.map_some]
  case depth => exact spells.encard_ancestors filled
  case root => exact rooted.parents_root
  case parent =>
    intro position positive inside
    obtain ⟨parent, above⟩ := rooted.exists_above positive (by simpa using inside)
    exact ⟨parent, rooted.parents_child above, rooted.above_iff_eq above⟩

/-- Whatever calls a tree is made by, a call with a missing parent is refused, any other one adds the
last child of its parent, the arena holds one tree, and a tree that a file can hold is read back from
its own bytes, renumbered in preorder. -/
theorem arborescence_afterCalls {root : Node} {calls : List (Nat × Node)}
    (alone : root.children = []) (childless : ∀ call ∈ calls, call.2.children = []) :
    let tree := (ofRoot root).afterCalls calls
    (∀ parent node, tree.size ≤ parent →
      tree.addChild? parent node = none ∧ tree.afterCall (parent, node) = tree) ∧
    (∀ parent node, parent < tree.size → ∃ next, tree.addChild? parent node = some next ∧
      tree.afterCall (parent, node) = next ∧ tree.Adds parent node next) ∧
    tree.Arborescence ∧
    (tree.Portable → ∃ bytes again, tree.encode.result = .ok bytes ∧
      (∀ rest, NodeTree.decode (bytes ++ rest) = .ok (again, rest)) ∧ tree.Renumbered again) := by
  intro tree
  have grown : tree.Grown := (Grown.root alone).afterCalls childless
  obtain ⟨forest, spells⟩ := grown.exists_spells
  exact ⟨fun parent node missing => addChild?_missing missing node,
    fun parent node present => addChild?_present present node, grown.arborescence,
    spells.decode_encode grown.rooted⟩

/-- The parts of a lamp: the shade comes behind the foot, and there is no socket for the bulb. -/
def lampCalls : List (Nat × Node) :=
  [(0, { name := "arm", index := 1, isBone := true }), (0, { name := "foot", index := 2 }),
    (7, { name := "bulb" }), (1, { name := "shade", index := 3, meshes := [0, 0] })]

def lamp : NodeTree := (ofRoot { name := "base" }).afterCalls lampCalls

theorem arborescence_lamp : lamp.visits = [(0, 0), (1, 1), (3, 2), (2, 1)] ∧
    lamp.addChild? 7 { name := "bulb" } = none ∧
    (∃ next, lamp.addChild? 3 { name := "bulb" } = some next ∧
      lamp.Adds 3 { name := "bulb" } next) ∧
    lamp.Arborescence ∧ lamp.Portable ∧
    ∃ bytes again, lamp.encode.result = .ok bytes ∧
      (∀ rest, NodeTree.decode (bytes ++ rest) = .ok (again, rest)) ∧ lamp.Renumbered again := by
  have visits : lamp.visits = [(0, 0), (1, 1), (3, 2), (2, 1)] := by decide +kernel
  have portable : lamp.Portable := by constructor <;> decide +kernel
  obtain ⟨refused, added, holds, stored⟩ :=
    @arborescence_afterCalls { name := "base" } lampCalls rfl (by decide)
  obtain ⟨next, grown, -, adds⟩ := added 3 { name := "bulb" } (by decide +kernel)
  exact ⟨visits, (refused 7 _ (by decide +kernel)).1, ⟨next, grown, adds⟩, holds, portable,
    stored portable⟩

end SceneBaker.Model.NodeTree
