import SceneBaker.Proofs.Model.Arena
import Mathlib.Data.List.Nodup

/-! # Trees that grow

A tree that was made from a root by adding children one at a time spells a forest, in whatever order
its parents were named.
-/

namespace SceneBaker.Model.NodeTree

/-- A tree that was made from a root by adding children, each of them new. -/
inductive Grown : NodeTree → Prop
  | root {node : Node} (childless : node.children = []) : Grown (ofRoot node)
  | child {tree next : NodeTree} {parent : Nat} {node : Node} (grown : Grown tree)
      (childless : node.children = []) (added : tree.addChild? parent node = some next) : Grown next

theorem spells_ofRoot {node : Node} (childless : node.children = []) :
    (ofRoot node).Spells (.cons 0 .nil .nil) where
  unfolds := .inside (by simp [links, ofRoot, childless]) .nil .nil
  distinct := by simp [Forest.preorder]
  complete position inside := by
    have : position = 0 := Nat.lt_one_iff.mp inside
    simp [Forest.preorder, this]
  closed := by simp [ofRoot, childless]

theorem get?_attach (tree : NodeTree) (parent : Nat) (node : Node) (position : Nat) :
    (tree.attach parent node).get? position =
      if position = tree.size then some node
      else if parent = position then
        (tree.get? position).map fun above => above.withChildren (above.children ++ [tree.size])
      else tree.get? position := by
  simp only [get?, attach, Array.getElem?_push, Array.size_modify, Array.getElem?_modify, size,
    Node.withChildren]
  rfl

/-- Unfolding after a node was added: it is met wherever its parent was. -/
private theorem unfolds_attach {tree : NodeTree} {parent : Nat} {node : Node}
    (childless : node.children = [])
    (closed : ∀ node ∈ tree.nodes, ∀ child ∈ node.children, child < tree.size)
    {children : List Nat} {forest : Forest Nat} (unfolds : tree.links.Unfolds children forest)
    (inside : ∀ child ∈ children, child < tree.size) :
    (tree.attach parent node).links.Unfolds children (forest.extend parent tree.size) := by
  induction unfolds with
  | nil => exact .nil
  | outside absent _ _ =>
    have bound := inside _ List.mem_cons_self
    simp at absent
    omega
  | @inside position children _ _ _ present _ _ down_ih after_ih =>
    obtain ⟨above, found, rfl⟩ := Option.map_eq_some_iff.mp (tree.links_getElem? _ ▸ present)
    have old : position ≠ tree.size := (inside _ List.mem_cons_self).ne
    have down := down_ih (closed above (Array.mem_of_getElem? found))
    have after := after_ih fun child member => inside child (List.mem_cons_of_mem _ member)
    have leaf : (tree.attach parent node).links.Unfolds [tree.size] (.cons tree.size .nil .nil) :=
      .inside (by rw [links_getElem?, get?_attach, if_pos rfl, Option.map_some, childless]) .nil .nil
    rw [Forest.extend]
    by_cases here : position = parent
    · rw [if_pos here]
      refine .inside ?_ (down.append leaf) after
      rw [links_getElem?, get?_attach, if_neg old, if_pos here.symm, found]
      rfl
    · rw [if_neg here]
      refine .inside ?_ down after
      rw [links_getElem?, get?_attach, if_neg old, if_neg (Ne.symm here), found, Option.map_some]

theorem Spells.attach {tree : NodeTree} {forest : Forest Nat} (spells : tree.Spells forest)
    {parent : Nat} (inside : parent < tree.size) {node : Node} (childless : node.children = []) :
    (tree.attach parent node).Spells (forest.extend parent tree.size) where
  unfolds := by
    refine unfolds_attach childless spells.closed spells.unfolds fun child member => ?_
    rw [List.mem_singleton.mp member]
    exact Nat.zero_lt_of_lt inside
  distinct := by
    have once := List.nodup_iff_count_le_one.mp spells.distinct
    have fresh : forest.preorder.count tree.size = 0 := by
      refine List.count_eq_zero_of_not_mem fun member => ?_
      simpa using spells.unfolds.lt_size _ member
    refine List.nodup_iff_count_le_one.mpr fun position => ?_
    rw [Forest.count_extend]
    split
    case isTrue new =>
      rw [← new, fresh, Nat.zero_add]
      exact once parent
    case isFalse => exact once position
  complete := by
    intro position bound
    rw [← List.count_pos_iff, Forest.count_extend]
    rcases Nat.lt_succ_iff_lt_or_eq.mp (by simpa using bound) with old | new
    · exact Nat.add_pos_left (List.count_pos_iff.mpr (spells.complete position old)) _
    · rw [if_pos new.symm]
      exact Nat.add_pos_right _ (List.count_pos_iff.mpr (spells.complete parent inside))
  closed := by
    intro other member child among
    rw [size_attach]
    obtain ⟨position, found⟩ := Array.mem_iff_getElem?.mp member
    have found : (tree.attach parent node).get? position = some other := found
    rw [get?_attach] at found
    split_ifs at found with new above
    · cases found
      simp [childless] at among
    · obtain ⟨old, present, rfl⟩ := Option.map_eq_some_iff.mp found
      rcases List.mem_append.mp among with former | added
      · exact Nat.lt_succ_of_lt (spells.closed old (Array.mem_of_getElem? present) child former)
      · rw [List.mem_singleton.mp added]
        exact Nat.lt_succ_self _
    · exact Nat.lt_succ_of_lt (spells.closed other (Array.mem_of_getElem? found) child among)

theorem addChild?_eq_some_iff {tree next : NodeTree} {parent : Nat} {node : Node} :
    tree.addChild? parent node = some next ↔ parent < tree.size ∧ tree.attach parent node = next := by
  rw [addChild?, Option.ite_none_right_eq_some, Option.some.injEq]

theorem Grown.attach {tree : NodeTree} (grown : tree.Grown) {parent : Nat}
    (inside : parent < tree.size) {node : Node} (childless : node.children = []) :
    (tree.attach parent node).Grown := .child grown childless (if_pos inside)

theorem Grown.rooted {tree : NodeTree} (grown : tree.Grown) : 0 < tree.size := by
  induction grown with
  | root => exact Nat.one_pos
  | child _ _ added _ =>
    obtain ⟨-, rfl⟩ := addChild?_eq_some_iff.mp added
    rw [size_attach]
    exact Nat.succ_pos _

theorem Grown.exists_spells {tree : NodeTree} (grown : tree.Grown) :
    ∃ forest, tree.Spells forest := by
  induction grown with
  | root childless => exact ⟨_, spells_ofRoot childless⟩
  | child _ childless added ih =>
    obtain ⟨forest, spells⟩ := ih
    obtain ⟨inside, rfl⟩ := addChild?_eq_some_iff.mp added
    exact ⟨_, spells.attach inside childless⟩

/-- Children are listed in the order in which they were added, which is the order of the arena. -/
theorem Grown.ascending {tree : NodeTree} (grown : tree.Grown) {position : Nat} {node : Node}
    (found : tree.get? position = some node) : node.children.Pairwise (· < ·) := by
  induction grown generalizing position node with
  | root childless =>
    obtain rfl := List.mem_singleton.mp (Array.mem_toList_iff.mpr (Array.mem_of_getElem? found))
    simp [childless]
  | @child tree next parent new grown childless added ih =>
    obtain ⟨forest, spells⟩ := grown.exists_spells
    obtain ⟨inside, rfl⟩ := addChild?_eq_some_iff.mp added
    rw [get?_attach] at found
    split_ifs at found with last above
    · cases found
      simp [childless]
    · obtain ⟨old, present, rfl⟩ := Option.map_eq_some_iff.mp found
      refine List.pairwise_append.mpr ⟨ih present, List.pairwise_singleton .., fun child listed => ?_⟩
      have former := spells.closed old (Array.mem_of_getElem? present) child listed
      simpa using former
    · exact ih found

end SceneBaker.Model.NodeTree
