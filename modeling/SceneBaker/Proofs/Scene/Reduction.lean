import SceneBaker.Proofs.Scene.Convertible
import SceneBaker.Proofs.Scene.Drawing
import SceneBaker.Proofs.Scene.Materials
import Mathlib.Algebra.Order.BigOperators.Group.List

/-! # Reduced scenes draw the same

Merging materials keeps the material name of every mesh, merging meshes keeps the primitives of
every node, and pruning keeps every node that anything needs. So the model of a reduced scene draws,
node by node, what the model of the scene draws, although the two share no numbers.
-/

set_option linter.dupNamespace false

namespace SceneBaker.Scene

open Number Mesh Build

variable {scene after : Scene Single} {settings : Settings} {mentions : Nat → Nat}
  {placements : List (Nat × Nat)} {forest : Forest Nat}

/-- A scene whose nodes list drawable meshes once each, with no more meshes and no more vertices at
a node than 32 bits count. -/
structure Scene.Drawable (scene : Scene Single) : Prop where
  meshes : ∀ mesh ∈ scene.meshes, mesh.Drawable
  listed : ∀ node ∈ scene.nodes, ∀ index ∈ node.meshes, index < scene.meshes.size
  once : ∀ node ∈ scene.nodes, node.meshes.Nodup
  few : scene.meshes.size ≤ 2 ^ 32
  light : ∀ node ∈ scene.nodes, scene.vertexCount node.meshes ≤ 2 ^ 32

/-! ## Merged meshes -/

/-- Fewer meshes have fewer vertices. -/
theorem Scene.vertexCount_le {part group : List Nat} (distinct : part.Nodup)
    (among : ∀ index ∈ part, index ∈ group) : scene.vertexCount part ≤ scene.vertexCount group := by
  obtain ⟨fewer, same, sublist⟩ := distinct.subperm among
  rw [vertexCount, ← (same.map _).sum_eq]
  exact (sublist.map _).sum_le_sum fun _ _ => Nat.zero_le _

namespace Merged

variable {before later : SourceNode Single}

/-- A group that a node lists draws what its members draw. -/
theorem described_listed (merged : Merged scene after mentions placements)
    (relisted : Relisted scene placements before later) (settings : Settings)
    (drawable : ∀ mesh ∈ scene.meshes, mesh.Drawable)
    (light : scene.vertexCount before.meshes ≤ 2 ^ 32)
    {position : Nat} (listed : position ∈ later.meshes) :
    ∃ mesh, after.meshes[position]? = some mesh ∧ mesh.Drawable ∧
      describedPrimitives settings scene mesh =
        (membersAt placements position).flatMap fun index =>
          describedPrimitives settings scene (scene.mesh index) := by
  obtain ⟨index, placed⟩ := relisted.valid position listed
  obtain ⟨filled, made⟩ := merged.grouped.made position (merged.grouped.inside _ placed).2
  have agree := merged.grouped.agree_membersAt position
  have each : ∀ index ∈ membersAt placements position, (scene.mesh index).Drawable :=
    fun index member => drawable _
      (Scene.mesh_mem (merged.grouped.inside _ (mem_membersAt.mp member)).1)
  have few : (scene.joined (membersAt placements position)).positions.size ≤ 2 ^ 32 := by
    rw [Scene.size_joined]
    refine (Scene.vertexCount_le (merged.grouped.nodup_membersAt _) fun index member => ?_).trans light
    exact ((relisted.members index).mp ⟨position, listed, mem_membersAt.mp member⟩).1
  obtain ⟨joined, described⟩ := describedPrimitives_joined settings filled agree each few
  exact ⟨_, made, joined, described⟩

/-- A node draws the same with its meshes merged. -/
theorem describedNode_eq (merged : Merged scene after mentions placements)
    (relisted : Relisted scene placements before later) (settings : Settings)
    (drawable : scene.Drawable) (member : before ∈ scene.nodes) :
    describedNode settings after later = describedNode settings scene before := by
  have present := drawable.listed before member
  have perm := merged.perm_members relisted (drawable.once before member) present
  have bones : (later.name ∈ (Skeleton.collect after settings).names) ↔
      before.name ∈ (Skeleton.collect scene settings).names := by
    rw [Skeleton.mem_names_collect, Skeleton.mem_names_collect, merged.mem_names, relisted.same]
  have filled : later.meshes.isEmpty = before.meshes.isEmpty := by
    rw [Bool.eq_iff_iff, List.isEmpty_iff, List.isEmpty_iff]
    constructor
    · intro empty
      rwa [empty, List.flatMap_nil, List.nil_perm] at perm
    · intro empty
      rw [List.eq_nil_iff_forall_not_mem]
      intro position listed
      obtain ⟨index, placed⟩ := relisted.valid position listed
      have mentioned := ((relisted.members index).mp ⟨position, listed, placed⟩).1
      rw [empty] at mentioned
      cases mentioned
  have groups : later.meshes.flatMap (fun position =>
        (after.meshes[position]?).elim [] (describedPrimitives settings after)) =
      (later.meshes.flatMap (membersAt placements)).flatMap fun index =>
        describedPrimitives settings scene (scene.mesh index) := by
    rw [List.flatMap_assoc]
    refine List.flatMap_congr fun position listed => ?_
    obtain ⟨mesh, made, -, described⟩ := merged.described_listed relisted settings drawable.meshes
      (drawable.light before member) listed
    rw [made, ← described, Option.elim_some, describedPrimitives, merged.materials]
    rfl
  have members : before.meshes.flatMap (fun index =>
        (scene.meshes[index]?).elim [] (describedPrimitives settings scene)) =
      before.meshes.flatMap fun index => describedPrimitives settings scene (scene.mesh index) := by
    refine List.flatMap_congr fun index listed => ?_
    have found := Array.getElem?_eq_getElem (present index listed)
    rw [Scene.mesh, found]
    rfl
  rw [describedNode, describedNode, DrawnNode.mk.injEq]
  refine ⟨by rw [relisted.same], by rw [relisted.same], decide_eq_decide.mpr bones,
    congrArg _ filled, ?_⟩
  rw [groups, members]
  exact Multiset.coe_eq_coe.mpr (perm.flatMap_right _)

theorem describedAt_eq (merged : Merged scene after mentions placements) (settings : Settings)
    (drawable : scene.Drawable) {position : Nat} (inside : position < scene.nodes.size) :
    describedAt settings after position = describedAt settings scene position := by
  obtain ⟨first, second, one, other, relisted⟩ := merged.exists_relisted inside
  rw [describedAt, describedAt, one, other]
  exact merged.describedNode_eq relisted settings drawable (Array.mem_of_getElem? one)

/-- What nodes list after merging can be drawn. -/
theorem slotted (merged : Merged scene after mentions placements) (drawable : scene.Drawable) :
    after.Slotted := by
  intro later listed position member
  obtain ⟨before, among, relisted⟩ := Steps.exists_of_mem_forall₂ merged.nodes
    (Array.mem_toList_iff.mpr listed)
  rw [Array.mem_toList_iff] at among
  obtain ⟨mesh, made, drawn, -⟩ := merged.described_listed relisted {} drawable.meshes
    (drawable.light before among) member
  have inside := (Array.getElem?_eq_some_iff.mp made).1
  refine ⟨inside.trans_le (merged.size_le.trans drawable.few), fun other found => ?_⟩
  rw [Option.some.inj (found.symm.trans made)]
  exact drawn.slotted

end Merged

/-! ## Merged materials -/

theorem Scene.Drawable.slotted (drawable : scene.Drawable) : scene.Slotted := by
  intro node listed index member
  refine ⟨(drawable.listed node listed index member).trans_le drawable.few, fun mesh found => ?_⟩
  exact (drawable.meshes mesh (Array.mem_of_getElem? found)).slotted

theorem Scene.Drawable.mergeMaterials (drawable : scene.Drawable) :
    scene.mergeMaterials.Drawable := by
  have size : scene.mergeMaterials.meshes.size = scene.meshes.size := Array.size_map ..
  constructor
  case meshes =>
    intro mesh member
    rw [Scene.meshes_mergeMaterials] at member
    obtain ⟨old, listed, rfl⟩ := Array.mem_map.mp member
    obtain ⟨⟨normals, uv0, uv1, colors, tangents, bitangents, paired⟩,
      cornered, weighted, slotted⟩ := drawable.meshes old listed
    exact ⟨⟨normals, uv0, uv1, colors, tangents, bitangents, paired⟩, cornered, weighted, slotted⟩
  case listed => exact size ▸ drawable.listed
  case once => exact drawable.once
  case few => exact size ▸ drawable.few
  case light =>
    intro node listed
    have count : scene.mergeMaterials.vertexCount node.meshes = scene.vertexCount node.meshes := by
      refine congrArg List.sum (List.map_congr_left fun index _ => ?_)
      rw [Scene.mesh, Scene.mesh, Scene.meshes_mergeMaterials, Array.getElem?_map]
      cases scene.meshes[index]? <;> rfl
    rw [count]
    exact drawable.light node listed

/-- A node draws the same with materials merged. -/
theorem describedNode_mergeMaterials (settings : Settings) (scene : Scene Single)
    (materials : ∀ mesh ∈ scene.meshes, mesh.material.toNat < scene.materials.size)
    (node : SourceNode Single) :
    describedNode settings scene.mergeMaterials node = describedNode settings scene node := by
  have bones (name : String) : name ∈ (Skeleton.collect scene.mergeMaterials settings).names ↔
      name ∈ (Skeleton.collect scene settings).names := by
    have meshwise : Step.Meshwise .mergeMaterials := True.intro
    have keeps := keeps_of_meshwise meshwise scene
    rw [Skeleton.mem_names_collect, Skeleton.mem_names_collect]
    exact and_congr_right fun _ => keeps.bones name
  rw [describedNode, describedNode, DrawnNode.mk.injEq]
  refine ⟨rfl, rfl, decide_eq_decide.mpr (bones _), rfl, congrArg _ ?_⟩
  refine List.flatMap_congr fun index _ => ?_
  rw [Scene.meshes_mergeMaterials, Array.getElem?_map]
  cases found : scene.meshes[index]? with
  | none => rfl
  | some mesh =>
    have listed := Array.mem_of_getElem? found
    exact describedPrimitives_movedMaterial settings listed (materials mesh listed)

/-! ## Pruned nodes -/

/-- A node that stays draws the same at its new position. -/
theorem describedAt_pruneNodes (settings : Settings) {position : Nat}
    (stays : scene.stays position = true) :
    describedAt settings scene.pruneNodes (scene.rank position) =
      describedAt settings scene position := by
  have found := Array.getElem?_eq_getElem (Scene.lt_size_of_stays stays)
  rw [describedAt, describedAt, Scene.pruneNodes_getElem? found stays, found]
  rfl

theorem Scene.Slotted.pruneNodes (slotted : scene.Slotted) : scene.pruneNodes.Slotted := by
  intro node listed
  obtain ⟨old, member, rfl⟩ := Scene.exists_of_mem_pruneNodes listed
  exact slotted old member

/-- Nodes with meshes, bones and nodes that a clip moves. -/
def Needed (scene : Scene Single) (node : DrawnNode) : Prop :=
  node.filled = true ∨ node.isBone = true ∨
    ∃ clip ∈ scene.clips, ∃ channel ∈ clip.channels, channel.node = node.name

/-- A node that draws what is needed is not pruned. -/
theorem needs_of_needed {position : Nat} (inside : position < scene.nodes.size)
    (needed : Needed scene (describedAt settings scene position)) :
    scene.needs position = true := by
  have found := Array.getElem?_eq_getElem inside
  rw [Needed, describedAt, found, Option.getD_some] at needed
  rw [Scene.needs, found]
  simp only [Bool.or_eq_true, List.contains_iff_mem]
  rcases needed with filled | bone | ⟨clip, listed, channel, among, named⟩
  · exact .inl (.inr filled)
  · obtain ⟨-, mesh, listed, named⟩ := Skeleton.mem_names_collect.mp (of_decide_eq_true bone)
    exact .inr (List.mem_append_left _
      (List.mem_flatMap.mpr ⟨mesh, Array.mem_toList_iff.mpr listed, named⟩))
  · refine .inr (List.mem_append_right _ (List.mem_flatMap.mpr ⟨clip, listed, ?_⟩))
    exact List.mem_map.mpr ⟨channel, among, named⟩

section

variable (settings : Settings) (unfolds : scene.links.Unfolds [0] forest)
  (distinct : forest.preorder.Nodup)

include unfolds distinct

/-- What stays is what was there, in its order. -/
theorem map_describedAt_prunedForest :
    (scene.prunedForest forest).map (describedAt settings scene.pruneNodes) =
      (forest.restrict scene.stays).map (describedAt settings scene) := by
  have marks := Scene.marks_stays unfolds distinct
  rw [Scene.prunedForest, Forest.map_map]
  refine Forest.map_congr fun position member => ?_
  rw [marks.preorder_restrict, List.mem_filter] at member
  exact describedAt_pruneNodes settings member.2

/-- Pruning drops branches in which nothing is needed. -/
theorem prunes_pruneNodes : (forest.map (describedAt settings scene)).Prunes (Needed scene)
    ((scene.prunedForest forest).map (describedAt settings scene.pruneNodes)) := by
  rw [map_describedAt_prunedForest settings unfolds distinct]
  refine (Scene.marks_stays unfolds distinct).prunes _ fun position member needed => ?_
  exact needs_of_needed (lt_size_of_unfolds unfolds member) needed

/-- The root is left. -/
theorem roots_pruneNodes :
    ((scene.prunedForest forest).map (describedAt settings scene.pruneNodes)).roots =
      (forest.map (describedAt settings scene)).roots := by
  rw [map_describedAt_prunedForest settings unfolds distinct, Forest.roots_map, Forest.roots_map]
  refine congrArg _ (Forest.roots_restrict fun root member => ?_)
  obtain ⟨listed, within⟩ := unfolds.mem_roots_iff.mp member
  obtain rfl := List.mem_singleton.mp listed
  rw [Scene.links, Array.size_map] at within
  exact Scene.stays_root unfolds distinct within

end

/-! ## Reduced scenes -/

/-- Materials and meshes merged, and nodes pruned. -/
def Scene.reduced (scene : Scene Single) : Scene Single :=
  scene.mergeMaterials.mergeMeshes.pruneNodes

/-- Let the child lists of a scene form a tree, and let its nodes list drawable meshes whose
materials are there. If its model can be built, so can that of the reduced scene. It draws the same
tree without some branches in which nothing is needed, and the root is left. -/
theorem exists_draws_reduced (unfolds : scene.links.Unfolds [0] forest)
    (distinct : forest.preorder.Nodup) (drawable : scene.Drawable)
    (materials : ∀ mesh ∈ scene.meshes, mesh.material.toNat < scene.materials.size)
    {model : Model.Model} (success : buildModel scene settings = .ok model) :
    ∃ reduced whole part, buildModel scene.reduced settings = .ok reduced ∧
      Draws model whole ∧ Draws reduced part ∧
      whole.Prunes (Needed scene) part ∧ part.roots = whole.roots := by
  have meshwise : Step.Meshwise .mergeMaterials := True.intro
  have first : Keeps scene scene.mergeMaterials := keeps_of_meshwise meshwise scene
  have second := keeps_mergeMeshes scene.mergeMaterials
  obtain ⟨placements, merged⟩ := scene.mergeMaterials.merged_mergeMeshes
  have light := drawable.mergeMaterials
  have holds := second.constructible (first.constructible
    ((exists_buildModel_iff_constructible unfolds distinct).mp ⟨model, success⟩))
  have pruned := holds.pruneNodes
  obtain ⟨reduced, built⟩ :=
    (exists_buildModel_iff_constructible pruned.unfolds pruned.distinct).mpr pruned
  -- Before pruning, the node at a position draws what it drew.
  have same : forest.map (describedAt settings scene.mergeMaterials.mergeMeshes) =
      forest.map (describedAt settings scene) := by
    refine Forest.map_congr fun position member => ?_
    have within := lt_size_of_unfolds unfolds member
    exact (merged.describedAt_eq settings light within).trans
      (describedNode_mergeMaterials settings scene materials _)
  have needed : Needed scene.mergeMaterials.mergeMeshes = Needed scene := by
    unfold Needed
    rw [merged.clips]
    rfl
  have prunes := prunes_pruneNodes settings holds.unfolds holds.distinct
  have roots := roots_pruneNodes settings holds.unfolds holds.distinct
  rw [same] at prunes roots
  exact ⟨reduced, _, _, built, draws_of_buildModel unfolds distinct success drawable.slotted,
    draws_of_buildModel pruned.unfolds pruned.distinct built (merged.slotted light).pruneNodes,
    needed ▸ prunes, roots⟩

/-- A puppet in two parts that are merged once their materials are, with a lamp in its hand. Nothing
needs the node above the spare one, and a clip moves the lamp. -/
def puppet : Scene Single where
  meshes := #[
    { name := "shade", material := 1, positions := #[0, 0, 0], faces := [[2, 1, 0]] },
    { name := "body"
      positions := #[0, 0, 0]
      normals := some #[0, 0, 0]
      faces := [[0, 1, 2]]
      bones := [⟨"hip", 1, [⟨0, 1⟩, ⟨2, 1⟩]⟩] },
    { name := "head"
      material := 2
      positions := #[0, 0, 0, 0]
      normals := some #[0, 0, 0, 0]
      faces := [[0, 1, 2], [2, 3, 0]]
      bones := [⟨"neck", 1, [⟨1, 1⟩]⟩, ⟨"hip", 1, [⟨1, 1⟩, ⟨3, 1⟩]⟩] }]
  materials := #[.plain "wood", .plain "glass", .plain "wood", .plain "cloth"]
  nodes := #[⟨"puppet", 1, [1, 2], [1, 4, 3]⟩, ⟨"hip", 1, [], [2]⟩, ⟨"neck", 1, [], []⟩,
    ⟨"lamp", 1, [0], []⟩, ⟨"shelf", 1, [], [5]⟩, ⟨"spare", 1, [], []⟩]
  clips := [⟨"sway", 0, 1, [{ node := "lamp" }]⟩]

theorem drawable_puppet : puppet.Drawable := by
  constructor
  case meshes =>
    have fits (mesh : SourceMesh Single) (member : mesh ∈ puppet.meshes) : mesh.Fitted := by
      simp only [puppet, List.mem_toArray, List.mem_cons, List.not_mem_nil, or_false] at member
      rcases member with rfl | rfl | rfl <;> constructor <;> simp [Fits]
    have cornered : ∀ mesh ∈ puppet.meshes, mesh.Cornered := by simp [puppet, SourceMesh.Cornered]
    have weighted : ∀ mesh ∈ puppet.meshes, mesh.Weighted := by simp [puppet, SourceMesh.Weighted]
    have slotted : ∀ mesh ∈ puppet.meshes, mesh.Slotted := by
      unfold SourceMesh.Slotted; decide +kernel
    exact fun mesh member => ⟨fits mesh member, cornered mesh member, weighted mesh member,
      slotted mesh member⟩
  case listed => decide
  case once => decide
  case few => decide
  case light => decide

theorem exists_draws_reduced_puppet :
    puppet.Drawable ∧ puppet.reduced.materials.size = 2 ∧ puppet.reduced.meshes.size = 2 ∧
    puppet.reduced.nodes.size = 4 ∧
    ∃ model reduced whole part, buildModel puppet {} = .ok model ∧
      buildModel puppet.reduced {} = .ok reduced ∧ Draws model whole ∧ Draws reduced part ∧
      whole.Prunes (Needed puppet) part ∧ part.roots = whole.roots := by
  have unfolds : puppet.links.Unfolds [0] (.cons 0 (.cons 1 (.cons 2 .nil .nil)
      (.cons 4 (.cons 5 .nil .nil) (.cons 3 .nil .nil))) .nil) := by
    have links : puppet.links = #[[1, 4, 3], [2], [], [], [5], []] := by decide +kernel
    rw [links]
    exact .inside rfl (.inside rfl (.inside rfl .nil .nil) (.inside rfl (.inside rfl .nil .nil)
      (.inside rfl .nil .nil))) .nil
  refine ⟨drawable_puppet, by decide +kernel, by decide +kernel, by decide +kernel, ?_⟩
  have builds : ((buildModel puppet {}).toOption).isSome = true := by decide +kernel
  cases success : buildModel puppet {} with
  | error cause => simp [success, Except.toOption] at builds
  | ok model =>
    obtain ⟨reduced, whole, part, built, draws, others, prunes, roots⟩ :=
      exists_draws_reduced unfolds (by decide) drawable_puppet (by decide) success
    exact ⟨model, reduced, whole, part, rfl, built, draws, others, prunes, roots⟩

end SceneBaker.Scene
