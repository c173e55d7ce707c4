import SceneBaker.Proofs.Hierarchy.Parents
import SceneBaker.Scene.Basic

/-! # World transforms in scenes

The world transform of the root is its own transform, and that of any other node its parent's times
its own. A walk computes them into an array; where the child lists form a tree, the array holds the
world transform of every node that is reached.
-/

set_option linter.dupNamespace false

namespace SceneBaker.Scene.Scene

open SceneBaker.Geometry

variable {α : Type} {scene : Scene α} {forest : Forest Nat}

theorem lt_size_links {position : Nat} {node : SourceNode α}
    (found : scene.nodes[position]? = some node) : position < scene.links.size := by
  rw [links, Array.size_map]
  exact (Array.getElem?_eq_some_iff.mp found).1

theorem preorder_eq (unfolds : scene.links.Unfolds [0] forest) (distinct : forest.preorder.Nodup) :
    scene.preorder = forest.preorder := by
  rw [Scene.preorder, unfolds.preorder_eq distinct, Forest.map_fst_outline]

variable [Add α] [Mul α]

/-- Transforms of nodes relative to the scene. -/
inductive World (scene : Scene α) : Nat → Mat4 α → Prop
  | root {node : SourceNode α} (found : scene.nodes[0]? = some node) :
      scene.World 0 node.transform
  | child {parent position : Nat} {node : SourceNode α} {world : Mat4 α}
      (upper : scene.World parent world) (above : scene.links.Above parent position)
      (found : scene.nodes[position]? = some node) :
      scene.World position (world * node.transform)

/-- Only nodes that are reached have a world transform. -/
theorem World.reached {position : Nat} {world : Mat4 α} (derived : scene.World position world) :
    Relation.ReflTransGen scene.links.Above 0 position := by
  induction derived with
  | root => exact .refl
  | child _ above _ ih => exact ih.tail above

/-- Every node that is reached has a world transform. -/
theorem exists_world {position : Nat} (reached : Relation.ReflTransGen scene.links.Above 0 position)
    (within : position < scene.nodes.size) : ∃ world, scene.World position world := by
  induction reached with
  | refl => exact ⟨_, .root (Array.getElem?_eq_getElem within)⟩
  | tail _ above ih =>
    have upper := Links.lt_size_of_mem_childrenAt (Links.above_iff.mp above)
    rw [links, Array.size_map] at upper
    obtain ⟨world, derived⟩ := ih upper
    exact ⟨_, derived.child above (Array.getElem?_eq_getElem within)⟩

variable [Zero α] [One α]

/-- Enter the world transform of a node, given those before it. -/
def placeWorld (scene : Scene α) (worlds : Array (Mat4 α)) (position : Nat) : Array (Mat4 α) :=
  match scene.nodes[position]? with
  | none => worlds
  | some node =>
    let world := match scene.parents[position]?.join with
      | some parent => worlds[parent]?.getD 1 * node.transform
      | none => node.transform
    worlds.setIfInBounds position world

theorem worldTransforms_eq (scene : Scene α) : scene.worldTransforms =
    scene.preorder.foldl scene.placeWorld (Array.replicate scene.nodes.size 1) := rfl

@[simp] theorem size_placeWorld (worlds : Array (Mat4 α)) (position : Nat) :
    (scene.placeWorld worlds position).size = worlds.size := by
  rw [placeWorld]
  split
  · rfl
  · exact Array.size_setIfInBounds ..

theorem size_foldl_placeWorld (positions : List Nat) (worlds : Array (Mat4 α)) :
    (positions.foldl scene.placeWorld worlds).size = worlds.size := by
  induction positions generalizing worlds with
  | nil => rfl
  | cons position positions ih => rw [List.foldl_cons, ih, size_placeWorld]

/-- What is entered for some nodes leaves the others alone. -/
theorem getElem?_foldl_placeWorld {positions : List Nat} {other : Nat} (outside : other ∉ positions)
    (worlds : Array (Mat4 α)) : (positions.foldl scene.placeWorld worlds)[other]? = worlds[other]? := by
  induction positions generalizing worlds with
  | nil => rfl
  | cons position positions ih =>
    obtain ⟨different, later⟩ := List.ne_and_not_mem_of_not_mem_cons outside
    rw [List.foldl_cons, ih later, placeWorld]
    split
    · rfl
    · exact Array.getElem?_setIfInBounds_ne different.symm

/-- A node's world transform is entered once, after those of the nodes before it. -/
theorem getElem?_worldTransforms {front back : List Nat} {position : Nat} {node : SourceNode α}
    (split : scene.preorder = front ++ position :: back) (fresh : position ∉ back)
    (found : scene.nodes[position]? = some node) : scene.worldTransforms[position]? =
      some (match scene.parents[position]?.join with
        | some parent => (front.foldl scene.placeWorld
            (Array.replicate scene.nodes.size 1))[parent]?.getD 1 * node.transform
        | none => node.transform) := by
  have within := (Array.getElem?_eq_some_iff.mp found).1
  rw [worldTransforms_eq, split, List.foldl_append, List.foldl_cons,
    getElem?_foldl_placeWorld fresh, placeWorld, found]
  exact Array.getElem?_setIfInBounds_self_of_lt (by rwa [size_foldl_placeWorld, Array.size_replicate])

/-- In a tree the array holds world transforms. -/
theorem World.getElem?_eq (forms : scene.links.Forms forest) {position : Nat} {world : Mat4 α}
    (derived : scene.World position world) : scene.worldTransforms[position]? = some world := by
  have preorder : scene.preorder = forest.preorder := preorder_eq forms.unfolds forms.distinct
  have distinct := forms.distinct
  have met {position : Nat} {world : Mat4 α} {node : SourceNode α}
      (derived : scene.World position world) (found : scene.nodes[position]? = some node) :
      position ∈ forest.preorder :=
    forms.unfolds.mem_preorder_of_reached List.mem_cons_self derived.reached (lt_size_links found)
  induction derived with
  | @root node found =>
    obtain ⟨front, back, split⟩ := List.append_of_mem (met (.root found) found)
    rw [split] at distinct
    have fresh := (List.nodup_cons.mp (List.nodup_append.mp distinct).2.1).1
    have orphan : scene.parents[0]?.join = none := forms.parents_root (lt_size_links found)
    rw [getElem?_worldTransforms (preorder.trans split) fresh found, orphan]
  | @child parent position node world upper above found ih =>
    have within := lt_size_links found
    have early := Links.lt_size_of_mem_childrenAt (Links.above_iff.mp above)
    have member := forms.unfolds.mem_preorder_of_reached List.mem_cons_self upper.reached early
    obtain ⟨front, back, split, before⟩ := forms.unfolds.exists_before member above within
    rw [split] at distinct
    have fresh := (List.nodup_cons.mp (List.nodup_append.mp distinct).2.1).1
    have adopted : scene.parents[position]?.join = some parent :=
      forms.parents_child member above within
    -- The parent was entered before and is not entered again.
    have settled : (front.foldl scene.placeWorld
        (Array.replicate scene.nodes.size 1))[parent]? = some world := by
      rw [← ih, worldTransforms_eq, preorder, split, List.foldl_append]
      refine (getElem?_foldl_placeWorld (fun again => ?_) _).symm
      exact (List.nodup_append.mp distinct).2.2 parent before parent again rfl
    rw [getElem?_worldTransforms (preorder.trans split) fresh found, adopted]
    simp only [settled, Option.getD_some]

/-- In a tree every node that is reached has one world transform, and that is in the array. -/
theorem exists_world_unique (forms : scene.links.Forms forest) {position : Nat}
    (member : position ∈ forest.preorder) : ∃ world, scene.World position world ∧
      (∀ other, scene.World position other → other = world) ∧
      scene.worldTransforms[position]? = some world := by
  obtain ⟨root, listed, reached⟩ := forms.unfolds.exists_reached position member
  obtain rfl := List.mem_singleton.mp listed
  have within := forms.unfolds.lt_size position member
  rw [links, Array.size_map] at within
  obtain ⟨world, derived⟩ := exists_world reached within
  have entry := derived.getElem?_eq forms
  refine ⟨world, derived, fun other again => ?_, entry⟩
  exact Option.some.inj ((again.getElem?_eq forms).symm.trans entry)

end SceneBaker.Scene.Scene
