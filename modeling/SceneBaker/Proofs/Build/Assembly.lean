import SceneBaker.Build.Skeleton
import SceneBaker.Proofs.Model.Arena

/-! # Assembled trees

A preorder listing of depths determines the parent of every entry. Nodes that are added in preorder
below these parents stand as their forest does.
-/

namespace SceneBaker.Build

open Model

/-- One step of the assembly. -/
def place (tree : NodeTree) : Node × Option Nat → NodeTree
  | (node, none) => .ofRoot node
  | (node, some parent) => tree.attach parent node

theorem assemble_eq_foldl (nodes : List (Node × Option Nat)) :
    assemble nodes = nodes.foldl place .empty := by
  rw [assemble]
  congr 1
  funext tree entry
  obtain ⟨node, _ | parent⟩ := entry <;> rfl

/-- Placing the entries of a forest grafts it. The path to its parent ends the path at hand before
and after, whatever nodes stand deeper in between. -/
theorem foldl_place_forest (forest : Forest Node) (tree : NodeTree) {path above : List Nat}
    (parent : Nat) (ends : parent :: above <:+ path) (nodes : List Node) (depths : List Nat) :
    ∃ after, parent :: above <:+ after ∧
      ((forest.preorder ++ nodes).zip (Links.parentNumbers path tree.size
          (forest.depths (above.length + 1) ++ depths))).foldl place tree =
        (nodes.zip (Links.parentNumbers after (tree.size + forest.size) depths)).foldl place
          (tree.graft parent forest) := by
  induction forest generalizing tree path above parent nodes depths with
  | nil => exact ⟨path, ends, rfl⟩
  | cons node below rest below_ih rest_ih =>
    have drop : path.drop (path.length - (above.length + 1)) = parent :: above := by
      obtain ⟨front, rfl⟩ := ends
      simp
    obtain ⟨middle, down, first⟩ := below_ih (tree.attach parent node) tree.size
      (List.suffix_refl (tree.size :: parent :: above)) (rest.preorder ++ nodes)
      (rest.depths (above.length + 1) ++ depths)
    obtain ⟨after, last, second⟩ := rest_ih ((tree.attach parent node).graft tree.size below) parent
      ((List.suffix_cons _ _).trans down) nodes depths
    refine ⟨after, last, ?_⟩
    have sizes : tree.size + (Forest.cons node below rest).size =
        tree.size + 1 + below.size + rest.size := by
      simp only [Forest.size]
      omega
    rw [sizes, NodeTree.graft]
    rw [NodeTree.size_graft, NodeTree.size_attach] at second
    rw [NodeTree.size_attach] at first
    simp only [Forest.preorder, Forest.depths, List.cons_append, List.append_assoc,
      Links.parentNumbers, drop, List.head?_cons, List.zip_cons_cons, List.foldl_cons, place]
    simp only [List.length_cons] at first
    exact first.trans second

/-- The nodes of a single tree, in preorder and with the parents that their depths tell. -/
theorem assemble_forest {root : Node} {below : Forest Node}
    (bare : ∀ node ∈ (Forest.cons root below .nil).preorder, node.bare = node) :
    assemble ((Forest.cons root below .nil).preorder.zip
      (Links.parentNumbers [] 0 ((Forest.cons root below .nil).depths 0))) =
      .ofForest (.cons root below .nil) := by
  obtain ⟨after, -, placed⟩ := foldl_place_forest below (.ofRoot root) 0 (List.suffix_refl [0]) [] []
  have single : (NodeTree.ofRoot root).size = 1 := rfl
  rw [single] at placed
  rw [assemble_eq_foldl, ← NodeTree.graft_ofRoot bare]
  simpa [Forest.preorder, Forest.depths, Links.parentNumbers, place] using placed

end SceneBaker.Build
