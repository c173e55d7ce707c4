import SceneBaker.Proofs.Animation.Composition
import SceneBaker.Proofs.Geometry.RigidMotion

/-! # Motions down a tree

The world transform of a node is the product of the transforms from the root down to it. In exact
arithmetic, where these are rigid motions, it moves a point by the node's own transform first, then by
its parent's, and so on up to the root.
-/

namespace SceneBaker.Model.NodeTree

open Number SceneBaker.Geometry DualQuat

/-! ## Lineages -/

/-- The node of a position, and those above it up to the root. -/
inductive Lineage (tree : NodeTree) : Nat → List Node → Prop
  | root {node : Node} (found : tree.get? 0 = some node) : tree.Lineage 0 [node]
  | child {parent position : Nat} {above node : Node} {line : List Node}
      (upper : tree.Lineage parent (above :: line)) (listed : position ∈ above.children)
      (present : tree.get? position = some node) : tree.Lineage position (node :: above :: line)

/-- The product of the transforms along a lineage, from the root on. -/
def downward {M : Type} [One M] [Mul M] (own : Node → M) : List Node → M
  | [] => 1
  | node :: line => downward own line * own node

variable {tree : NodeTree} {forest : Forest Nat} {position : Nat} {node : Node} {line : List Node}

theorem Lineage.found (lineage : tree.Lineage position (node :: line)) :
    tree.get? position = some node := by
  cases lineage with
  | root found => exact found
  | child _ _ present => exact present

theorem Lineage.mem (lineage : tree.Lineage position line) : ∀ node ∈ line, node ∈ tree.nodes := by
  induction lineage with
  | root found => exact List.forall_mem_singleton.mpr (Array.mem_of_getElem? found)
  | child _ _ present ih => exact List.forall_mem_cons.mpr ⟨Array.mem_of_getElem? present, ih⟩

section Products

variable {M : Type} [One M] [Mul M] {own : Node → M} {world : M}

theorem Lineage.derived (lineage : tree.Lineage position line) :
    tree.World own position (downward own line) := by
  induction lineage with
  | root found => exact .root found
  | child upper listed present ih => exact .child ih upper.found listed present

/-- World transforms are products along lineages, whatever the product is. -/
theorem World.exists_lineage (derived : tree.World own position world) :
    ∃ node line, tree.Lineage position (node :: line) ∧ world = downward own (node :: line) := by
  induction derived with
  | root found => exact ⟨_, [], .root found, rfl⟩
  | child _ found listed present ih =>
    obtain ⟨above, line, upper, rfl⟩ := ih
    obtain rfl := Option.some.inj (upper.found.symm.trans found)
    exact ⟨_, _, .child upper listed present, rfl⟩

theorem Spells.exists_lineage (spells : tree.Spells forest) (found : tree.get? position = some node) :
    ∃ line, tree.Lineage position (node :: line) := by
  have inside := (Array.getElem?_eq_some_iff.mp found).1
  -- World transforms of any kind come with lineages.
  obtain ⟨_, derived⟩ := spells.exists_world (fun _ => (1 : Nat)) inside
  obtain ⟨same, line, lineage, -⟩ := derived.exists_lineage
  obtain rfl := Option.some.inj (lineage.found.symm.trans found)
  exact ⟨line, lineage⟩

end Products

/-! ## Motions -/

section Motions

variable {K : Type} [Field K] [LE K] [DecidableLE K] [SquareRoot K] {own : Node → DualQuat K}

/-- A transform that moves points by the transforms of a lineage, one after the other. -/
structure Follows (own : Node → DualQuat K) (line : List Node) (world : DualQuat K) : Prop where
  unit : world.real.dot world.real = 1
  point : ∀ p, world.transformPoint p =
    line.foldl (fun moved node => (own node).transformPoint moved) p

/-- Every node is visited once, with a world transform that follows its lineage. -/
structure Moves (tree : NodeTree) (own : Node → DualQuat K) : Prop where
  nodes : ((tree.worlds own).map (·.1)).Perm tree.nodes.toList
  lineage : ∀ position node, tree.get? position = some node →
    ∃ line, tree.Lineage position (node :: line)
  follows : ∀ position node line, tree.Lineage position (node :: line) →
    ∃ world, (node, world) ∈ tree.worlds own ∧ Follows own (node :: line) world
  only : ∀ node world, (node, world) ∈ tree.worlds own →
    ∃ position line, tree.Lineage position (node :: line) ∧ Follows own (node :: line) world

variable [Exact K]

theorem isMotion_downward (each : ∀ node ∈ line, IsMotion (own node)) :
    IsMotion (downward own line) := by
  induction line with
  | nil => exact .one
  | cons node line ih =>
    obtain ⟨first, others⟩ := List.forall_mem_cons.mp each
    exact (ih others).mul first

theorem follows_downward (each : ∀ node ∈ line, IsMotion (own node)) :
    Follows own line (downward own line) := by
  refine ⟨(isMotion_downward each).unit, fun p => ?_⟩
  induction line generalizing p with
  | nil => exact one_transformPoint p
  | cons node line ih =>
    obtain ⟨first, others⟩ := List.forall_mem_cons.mp each
    rw [downward, List.foldl_cons, ← ih others]
    exact (isMotion_downward others).transformPoint_mul first p

theorem Spells.moves (spells : tree.Spells forest) (each : ∀ node ∈ tree.nodes, IsMotion (own node)) :
    tree.Moves own := by
  have follows {position : Nat} {line : List Node} (lineage : tree.Lineage position line) :
      Follows own line (downward own line) :=
    follows_downward fun node member => each node (lineage.mem node member)
  constructor
  case nodes => exact spells.map_fst_worlds own
  case lineage => exact fun position node found => spells.exists_lineage found
  case follows =>
    intro position node line lineage
    exact ⟨_, spells.mem_worlds_iff.mpr ⟨position, lineage.found, lineage.derived⟩, follows lineage⟩
  case only =>
    intro node world visited
    obtain ⟨position, found, derived⟩ := spells.mem_worlds_iff.mp visited
    obtain ⟨same, line, lineage, rfl⟩ := derived.exists_lineage
    obtain rfl := Option.some.inj (lineage.found.symm.trans found)
    exact ⟨position, line, lineage, follows lineage⟩

end Motions

end SceneBaker.Model.NodeTree

namespace SceneBaker.Animation

open Number SceneBaker.Geometry DualQuat Model

/-- Composition writes the world transforms that a walk through the tree visits. -/
theorem exists_walked {model : Model} {tracks : List Track} {pose : Pose} (frame : Nat)
    (valid : model.validate = .ok ()) (grown : model.nodes.Grown)
    (tracked : ∀ track ∈ tracks, track.index < model.nodeCount) (holds : pose.Holds model) :
    ∃ composer after, Composer.ofTracks model tracks = .ok composer ∧
      composer.compose frame pose = (after, none) ∧
      ∀ node world, (node, world) ∈ model.nodes.worlds (localTransform tracks frame) →
        after.world[node.index.toNat]? = some world := by
  obtain ⟨forest, spells⟩ := grown.exists_spells
  obtain ⟨after, result, composed⟩ :=
    compose_prepared tracks frame (Model.validate_eq_ok_iff.mp valid) spells holds
  refine ⟨_, after, Composer.ofTracks_eq tracked, result, fun node world visited => ?_⟩
  obtain ⟨position, found, derived⟩ := spells.mem_worlds_iff.mp visited
  exact (composed.shows position node world found derived).world

/-- The walk whose world transforms composition writes gives, in exact arithmetic and for rigid
motions, world transforms that move points up the lineages of the nodes. -/
theorem rigid_moves (K : Type) [Field K] [LE K] [DecidableLE K] [SquareRoot K] [Exact K] :
    Rigid K ∧ ∀ {model : Model} {tracks : List Track} {pose : Pose} (frame : Nat),
      model.validate = .ok () → model.nodes.Grown →
      (∀ track ∈ tracks, track.index < model.nodeCount) → pose.Holds model →
      (∃ composer after, Composer.ofTracks model tracks = .ok composer ∧
        composer.compose frame pose = (after, none) ∧
        ∀ node world, (node, world) ∈ model.nodes.worlds (localTransform tracks frame) →
          after.world[node.index.toNat]? = some world) ∧
      ∀ own : Node → DualQuat K, (∀ node ∈ model.nodes.nodes, IsMotion (own node)) →
        model.nodes.Moves own := by
  refine ⟨rigid, fun {model tracks pose} frame valid grown tracked holds => ?_⟩
  refine ⟨exists_walked frame valid grown tracked holds, fun own each => ?_⟩
  obtain ⟨forest, spells⟩ := grown.exists_spells
  exact spells.moves each

/-- How the limping model moves: the bone turns about another axis than the other nodes. -/
def gait (node : Node) : DualQuat ℚ :=
  if node.isBone then ofTranslationRotation ⟨0, 1, 0⟩ ⟨0, 0, 3 / 5, 4 / 5⟩
  else ofTranslationRotation ⟨1, 0, 2⟩ ⟨5 / 13, 0, 0, 12 / 13⟩

theorem rigid_moves_limping : limping.validate = .ok () ∧ limping.nodes.Grown ∧
    (∀ track ∈ strides, track.index < limping.nodeCount) ∧ (Pose.identity 5 2).Holds limping ∧
    (∀ node ∈ limping.nodes.nodes, IsMotion (gait node)) ∧ Rigid ℚ ∧
    (∃ composer after, Composer.ofTracks limping strides = .ok composer ∧
      composer.compose 7 (Pose.identity 5 2) = (after, none) ∧
      ∀ node world, (node, world) ∈ limping.nodes.worlds (localTransform strides 7) →
        after.world[node.index.toNat]? = some world) ∧
    limping.nodes.Moves gait := by
  have valid : limping.validate = .ok () := by decide
  have grown : limping.nodes.Grown :=
    (((NodeTree.Grown.root rfl).attach (by decide) rfl).attach (by decide) rfl).attach
      (by decide) rfl
  have tracked : ∀ track ∈ strides, track.index < limping.nodeCount := by decide
  have holds : (Pose.identity 5 2).Holds limping := by constructor <;> decide
  have each : ∀ node ∈ limping.nodes.nodes, IsMotion (gait node) := by
    intro node _
    rw [gait]
    split
    · exact ⟨_, _, by decide +kernel, rfl⟩
    · exact ⟨_, _, by decide +kernel, rfl⟩
  obtain ⟨rigid, moves⟩ := rigid_moves ℚ
  obtain ⟨walked, exact⟩ := moves 7 valid grown tracked holds
  exact ⟨valid, grown, tracked, holds, each, rigid, walked, exact gait each⟩

end SceneBaker.Animation
