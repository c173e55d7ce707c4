import Mathlib.Data.List.Sort
import SceneBaker.Gltf.Import
import SceneBaker.Proofs.Build.Slots
import SceneBaker.Proofs.Scene.Influences

/-! # Skin weights

A document lists four joints with weights for every vertex, a scene lists vertices with weights for
every bone, and a built mesh has four slots in every vertex again. Nothing is lost on the way: a
vertex has no more influences than slots, and joints that no vertex names move nothing.
-/

namespace SceneBaker.Gltf

open Number SceneBaker.Geometry Mesh Scene Build

variable {α β : Type} {joints : List (String × Mat4 Single)}
  {sets : List (Vec4 Nat × Vec4 Single)}

/-! ## Entries by joint -/

/-- Entries in the order of their joints; those of one joint keep their order. -/
def byJoint (entries : List (Nat × α)) : List (Nat × α) :=
  entries.insertionSort (Order.Preimage Prod.fst (· ≤ ·))

/-- The joints of a vertex with their weights. -/
def jointSet (sets : List (Vec4 Nat × Vec4 Single)) (vertex : Nat) : List (Nat × Single) :=
  (sets[vertex]?.map fun set => set.1.toList.zip set.2.toList).getD []

/-- The joints of a skin that move a vertex, in their order, with weights other than zero. -/
def moving (joints : List (String × Mat4 Single)) (sets : List (Vec4 Nat × Vec4 Single))
    (vertex : Nat) : List (Nat × Single) :=
  byJoint ((jointSet sets vertex).filter fun entry =>
    entry.1 < joints.length ∧ entry.2.numEq 0 = false)

/-- The influences in the slots of a vertex whose weight is not zero, by the names of bones. -/
def carried (skeleton : Skeleton) (vertex : Vertex) : List (Option String × Single) :=
  (vertex.influences.filter fun slot => slot.2.numEq 0 = false).map fun slot =>
    (skeleton.name? slot.1, slot.2)

end SceneBaker.Gltf
