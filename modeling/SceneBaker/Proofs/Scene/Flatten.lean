import SceneBaker.Proofs.Scene.Prune
import SceneBaker.Proofs.Scene.World
import SceneBaker.Scene.Transform

/-! # Flat scenes

Where the child lists of a scene form a tree, flattening it puts every mesh into place once for each
mention by a node that the root reaches: a mesh is moved by the world transform of the node, and
turned around if that transform mirrors. What is left is one root with all placed meshes.
-/

set_option linter.dupNamespace false

namespace SceneBaker.Scene

open Number SceneBaker.Geometry

namespace Scene

variable {α : Type} {scene : Scene α} {forest : Forest Nat}

/-- The mentions of meshes by nodes of a forest in preorder, as the positions of node and mesh.
Mentions of meshes that the scene does not have are left out. -/
def mentioned (scene : Scene α) (forest : Forest Nat) : List (Nat × Nat) :=
  forest.preorder.flatMap fun position =>
    (((scene.nodes[position]?.map (·.meshes)).getD []).filter (· < scene.meshes.size)).map
      (position, ·)

variable {scene : Scene Single}

end Scene

end SceneBaker.Scene
