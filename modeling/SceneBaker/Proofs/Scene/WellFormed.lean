import SceneBaker.Proofs.Hierarchy.Rooted
import SceneBaker.Proofs.Scene.Convertible
import SceneBaker.Proofs.Scene.Drawing
import SceneBaker.Proofs.Scene.Materials

/-! # Well-formed scenes

A scene is well formed if its nodes are one tree, every index in it refers to something, and every
mesh has what its faces and its attributes promise. Each step of processing leaves such a scene well
formed, so any number of steps does, in any order.
-/

set_option linter.dupNamespace false

namespace SceneBaker.Scene

open Number SceneBaker.Geometry Mesh Build

variable {α : Type}

/-- The faces and weights of a mesh refer to its vertices, its faces are of its primitive, and its
attributes have an entry for every vertex. -/
structure SourceMesh.WellFormed (mesh : SourceMesh α) : Prop extends mesh.Fitted where
  faced : mesh.Faced
  cornered : mesh.Cornered
  weighted : mesh.Weighted

/-- What the steps of processing rely on. -/
structure Scene.WellFormed (scene : Scene α) : Prop where
  rooted : scene.links.Rooted
  nodes : ∀ node ∈ scene.nodes, ∀ index ∈ node.meshes, index < scene.meshes.size
  materials : ∀ mesh ∈ scene.meshes, mesh.material.toNat < scene.materials.size
  meshes : ∀ mesh ∈ scene.meshes, mesh.WellFormed

/-! ## Attributes -/

namespace SourceMesh

namespace Fitted

variable {mesh after : SourceMesh α}

/-- Only the numbers of entries matter. -/
theorem of_sizes (fitted : mesh.Fitted) (positions : after.positions.size = mesh.positions.size)
    (attributes : after.attributeSizes = mesh.attributeSizes) : after.Fitted := by
  simp only [attributeSizes, List.cons.injEq, and_true] at attributes
  obtain ⟨normals, uv0, uv1, colors, tangents, bitangents⟩ := attributes
  have resized {β : Type} {values others : Option (Array β)} (fits : Fits mesh.positions.size values)
      (same : others.map Array.size = values.map Array.size) :
      Fits after.positions.size others := by
    rwa [fits_iff, same, positions, ← fits_iff]
  constructor
  case normals => exact resized fitted.normals normals
  case uv0 => exact resized fitted.uv0 uv0
  case uv1 => exact resized fitted.uv1 uv1
  case colors => exact resized fitted.colors colors
  case tangents => exact resized fitted.tangents tangents
  case bitangents => exact resized fitted.bitangents bitangents
  case paired =>
    have given := fitted.paired
    rwa [← Option.isSome_map (f := Array.size), ← Option.isSome_map (f := Array.size), ← tangents,
      ← bitangents, Option.isSome_map, Option.isSome_map] at given

end Fitted

variable {mesh : SourceMesh Single}

/-! ## Normals and tangents -/

/-- Vertices that are picked from the old ones come with all their attributes. -/
theorem fitted_unshare (paired : mesh.tangents.isSome = mesh.bitangents.isSome)
    {sources : List Nat} (faces : List (List UInt32)) {normals : List (Vec3 Single)}
    (length : normals.length = sources.length) : (mesh.unshare sources faces normals).Fitted := by
  have size : (mesh.unshare sources faces normals).positions.size = sources.length := by
    simp [unshare]
  have picked {β : Type} (values : Option (Array β)) (default : β) :
      Fits sources.length (values.map fun values =>
        (sources.map fun source => values[source]?.getD default).toArray) := by
    simp [Fits]
  constructor
  case normals =>
    rw [size]
    simp [Fits, unshare, length]
  case uv0 => exact size ▸ picked mesh.uv0 0
  case uv1 => exact size ▸ picked mesh.uv1 0
  case colors => exact size ▸ picked mesh.colors _
  case tangents => exact size ▸ picked mesh.tangents 0
  case bitangents => exact size ▸ picked mesh.bitangents 0
  case paired => rwa [unshare, Option.isSome_map, Option.isSome_map]

theorem fitted_withFlatNormals (fitted : mesh.Fitted) : mesh.withFlatNormals.Fitted := by
  rw [withFlatNormals]
  split
  · refine fitted_unshare fitted.paired _ ?_
    rw [List.length_flatMap, List.length_flatMap]
    simp
  · exact fitted

theorem fitted_withNormals (fitted : mesh.Fitted) (mode : NormalMode) :
    (mesh.withNormals mode).Fitted := by
  rw [withNormals.eq_def]
  split
  case isFalse => exact fitted
  case isTrue =>
    cases mode with
    | none => exact fitted
    | flat => exact fitted_withFlatNormals fitted
    | smooth =>
      refine { fitted with normals := ?_ }
      simp [Fits, withSmoothNormals]

theorem size_tangentSums (mesh : SourceMesh Single) (uvs : Array (Vec2 Single)) :
    (mesh.tangentSums uvs).size = mesh.positions.size := by
  rw [tangentSums]
  refine List.foldlRecOn (motive := fun (sums : Array (Vec3 Single × Vec3 Single)) =>
    sums.size = mesh.positions.size) _ _ Array.size_replicate fun sums size corners _ => ?_
  split
  · exact size
  · simpa using size

theorem fitted_withTangents (fitted : mesh.Fitted) : mesh.withTangents.Fitted := by
  rw [withTangents]
  split
  case h_1 normals uvs _ _ _ =>
    refine { fitted with tangents := ?_, bitangents := ?_, paired := rfl } <;>
      simp [Fits, size_tangentSums]
  case h_2 => exact fitted

theorem material_withFlatNormals (mesh : SourceMesh Single) :
    mesh.withFlatNormals.material = mesh.material := by
  rw [withFlatNormals]
  split <;> rfl

theorem material_withNormals (mode : NormalMode) (mesh : SourceMesh Single) :
    (mesh.withNormals mode).material = mesh.material := by
  rw [withNormals.eq_def]
  split
  case isFalse => rfl
  case isTrue =>
    cases mode with
    | none | smooth => rfl
    | flat => exact material_withFlatNormals mesh

theorem material_withTangents (mesh : SourceMesh Single) :
    mesh.withTangents.material = mesh.material := by
  rw [withTangents]
  split <;> rfl

/-- What a step makes of a mesh that it treats alone. -/
theorem Reshaped.wellFormed {before after : SourceMesh Single} (reshaped : Reshaped before after)
    (fitted : after.Fitted) (holds : before.WellFormed) : after.WellFormed :=
  ⟨fitted, reshaped.faced_iff.mpr holds.faced, reshaped.cornered_iff.mpr holds.cornered,
    reshaped.weighted holds.weighted⟩

theorem WellFormed.placeMesh (holds : mesh.WellFormed) (world : Mat4 Single) :
    (Scene.placeMesh world mesh).WellFormed := by
  have buildable : mesh.Buildable {} := ⟨holds.faced, holds.cornered, fun _ => holds.weighted⟩
  have placed := buildable_placeMesh buildable world
  refine ⟨holds.toFitted.of_sizes (Array.size_map ..) ?_, placed.faced, placed.cornered,
    placed.weighted rfl⟩
  rw [Scene.placeMesh]
  dsimp only
  split <;> simp [attributeSizes, reverseFaces, Function.comp_def]

end SourceMesh

/-! ## Steps -/

namespace Scene

variable {scene : Scene α} {group : List Nat}

/-- The meshes of a group in one have the material of each of them. -/
theorem material_joined (filled : group ≠ []) (agree : Agree scene group) :
    ∀ index ∈ group, (scene.joined group).material = (scene.mesh index).material := by
  refine joined_induction (P := fun group mesh =>
    ∀ index ∈ group, mesh.material = (scene.mesh index).material) filled agree (by simp) ?_
  intro front index _ key made
  refine List.forall_mem_append.mpr ⟨made, List.forall_mem_singleton.mpr ?_⟩
  exact congrArg MergeKey.material key

theorem fitted_joined (filled : group ≠ []) (agree : Agree scene group)
    (each : ∀ index ∈ group, (scene.mesh index).Fitted) : (scene.joined group).Fitted := by
  refine joined_induction (P := fun group mesh =>
    (∀ index ∈ group, (scene.mesh index).Fitted) → mesh.Fitted) filled agree (by simp) ?_ each
  intro front index _ key made each
  obtain ⟨first, last⟩ := List.forall_mem_append.mp each
  exact (made first).append (last index List.mem_cons_self) (SourceMesh.sameKind_iff.mpr key)

end Scene

namespace Scene.WellFormed

variable {scene : Scene Single}

/-- Steps that treat every mesh alone. -/
theorem of_meshwise {step : Step} (meshwise : step.Meshwise) (holds : scene.WellFormed)
    (fitted : ∀ mesh ∈ (step.apply scene).meshes, mesh.Fitted)
    (materials : ∀ mesh ∈ (step.apply scene).meshes,
      mesh.material.toNat < (step.apply scene).materials.size)
    (nodes : (step.apply scene).nodes.map (·.meshes) = scene.nodes.map (·.meshes)) :
    (step.apply scene).WellFormed := by
  obtain ⟨f, meshes, reshaped⟩ := Step.exists_reshaped meshwise scene
  constructor
  case rooted =>
    rw [(keeps_of_meshwise meshwise scene).links_eq]
    exact holds.rooted
  case nodes =>
    intro node member
    have listed : node.meshes ∈ scene.nodes.map (·.meshes) := nodes ▸ Array.mem_map_of_mem member
    obtain ⟨source, among, same⟩ := Array.mem_map.mp listed
    rw [← same, meshes, Array.size_map]
    exact holds.nodes source among
  case materials => exact materials
  case meshes =>
    intro mesh member
    have fits := fitted mesh member
    rw [meshes] at member
    obtain ⟨source, listed, rfl⟩ := Array.mem_map.mp member
    exact (reshaped source).wellFormed fits (holds.meshes source listed)

/-- Every step that treats meshes alone. -/
theorem meshwise {step : Step} (meshwise : step.Meshwise) (holds : scene.WellFormed) :
    (step.apply scene).WellFormed := by
  cases step with
  | flatten | mergeMeshes | pruneNodes => exact meshwise.elim
  | mirror =>
    refine of_meshwise meshwise holds (Array.forall_mem_map.mpr fun mesh member => ?_)
      (Array.forall_mem_map.mpr holds.materials) (Array.map_map ..)
    refine (holds.meshes mesh member).toFitted.of_sizes (Array.size_map ..) ?_
    simp [SourceMesh.attributeSizes, SourceMesh.reverseFaces, Function.comp_def]
  | scale factor =>
    refine of_meshwise meshwise holds (Array.forall_mem_map.mpr fun mesh member => ?_)
      (Array.forall_mem_map.mpr holds.materials) (Array.map_map ..)
    exact (holds.meshes mesh member).toFitted.of_sizes (Array.size_map ..) rfl
  | normals mode =>
    refine of_meshwise meshwise holds (Array.forall_mem_map.mpr fun mesh member => ?_)
      (Array.forall_mem_map.mpr fun mesh member => ?_) rfl
    · exact SourceMesh.fitted_withNormals (holds.meshes mesh member).toFitted mode
    · rw [SourceMesh.material_withNormals]
      exact holds.materials mesh member
  | tangents =>
    refine of_meshwise meshwise holds (Array.forall_mem_map.mpr fun mesh member => ?_)
      (Array.forall_mem_map.mpr fun mesh member => ?_) rfl
    · exact SourceMesh.fitted_withTangents (holds.meshes mesh member).toFitted
    · rw [SourceMesh.material_withTangents]
      exact holds.materials mesh member
  | mergeMaterials =>
    refine of_meshwise meshwise holds (Array.forall_mem_map.mpr fun mesh member => ?_)
      (Array.forall_mem_map.mpr fun mesh member => ?_) rfl
    · exact (holds.meshes mesh member).toFitted.of_sizes rfl rfl
    · have present := holds.materials mesh member
      have named := Scene.name_movedMaterial member present
      rw [Array.getElem?_eq_getElem present] at named
      obtain ⟨material, found, -⟩ := Option.map_eq_some_iff.mp named
      exact (Array.getElem?_eq_some_iff.mp found).1

/-- A flat scene is one node with placed meshes. -/
theorem flatten (holds : scene.WellFormed) : scene.flatten.WellFormed := by
  have links : scene.flatten.links = #[[]] := by simp [Scene.links, Scene.flatten]
  constructor
  case rooted =>
    have filled : 0 < scene.flatten.links.size := by simp [links]
    rw [links] at filled ⊢
    refine (Links.rooted_iff filled).mpr ⟨?_, .cons 0 .nil .nil, ?_, .refl _⟩
    · simp [Links.Closed]
    · exact .inside rfl .nil .nil
  case nodes =>
    intro node member index listed
    obtain rfl := Array.mem_singleton.mp member
    exact (List.size_toArray ..).symm ▸ List.mem_range.mp listed
  case materials =>
    intro mesh member
    obtain ⟨world, source, listed, rfl⟩ := of_mem_placedMeshes (List.mem_toArray.mp member)
    have present := holds.materials source listed
    rw [Scene.placeMesh]
    dsimp only
    split <;> exact present
  case meshes =>
    intro mesh member
    obtain ⟨world, source, listed, rfl⟩ := of_mem_placedMeshes (List.mem_toArray.mp member)
    exact (holds.meshes source listed).placeMesh world

/-- A merged mesh is made of meshes that agree. -/
theorem mergeMeshes (holds : scene.WellFormed) : scene.mergeMeshes.WellFormed := by
  obtain ⟨placements, merged⟩ := scene.merged_mergeMeshes
  constructor
  case rooted =>
    rw [(keeps_mergeMeshes scene).links_eq]
    exact holds.rooted
  case nodes =>
    intro node member position listed
    obtain ⟨before, -, relisted⟩ :=
      Steps.exists_of_mem_forall₂ merged.nodes (Array.mem_toList_iff.mpr member)
    obtain ⟨index, placed⟩ := relisted.valid position listed
    exact (merged.grouped.inside _ placed).2
  case materials =>
    intro mesh member
    obtain ⟨group, rfl, filled, agree, inside⟩ := merged.grouped.exists_group member
    obtain ⟨index, listed⟩ := List.exists_mem_of_ne_nil group filled
    rw [merged.materials, Scene.material_joined filled agree index listed]
    exact holds.materials _ (Scene.mesh_mem (inside index listed))
  case meshes =>
    intro mesh member
    obtain ⟨group, rfl, filled, agree, inside⟩ := merged.grouped.exists_group member
    have each (index : Nat) (listed : index ∈ group) :=
      holds.meshes _ (Scene.mesh_mem (inside index listed))
    exact ⟨Scene.fitted_joined filled agree fun index listed => (each index listed).toFitted,
      (Scene.faced_joined filled agree).mpr fun index listed => (each index listed).faced,
      Scene.cornered_joined filled agree fun index listed => (each index listed).cornered,
      Scene.weighted_joined filled agree fun index listed => (each index listed).weighted⟩

/-- The nodes that stay are one tree again. -/
theorem rooted_pruneNodes (rooted : scene.links.Rooted) : scene.pruneNodes.links.Rooted := by
  obtain ⟨-, forest, unfolds, complete⟩ := (Links.rooted_iff rooted.filled).mp rooted
  have distinct : forest.preorder.Nodup := complete.nodup_iff.mpr List.nodup_range
  have size : scene.pruneNodes.links.size = Nat.count (scene.stays · = true) scene.links.size := by
    rw [Scene.links, Array.size_map, Scene.size_pruneNodes, Scene.links, Array.size_map]
  have root := Scene.stays_root unfolds distinct (by simpa [Scene.links] using rooted.filled)
  have filled : 0 < scene.pruneNodes.links.size := by
    rw [Scene.links, Array.size_map]
    exact (Nat.zero_le _).trans_lt (Scene.rank_lt root)
  refine (Links.rooted_iff filled).mpr ⟨scene.closed_pruneNodes, scene.prunedForest forest,
    Scene.unfolds_pruneNodes unfolds distinct, ?_⟩
  rw [Scene.preorder_prunedForest unfolds distinct, size, ← Scene.map_rank_range]
  exact (complete.filter _).map _

theorem pruneNodes (holds : scene.WellFormed) : scene.pruneNodes.WellFormed := by
  refine ⟨rooted_pruneNodes holds.rooted, fun node member => ?_, holds.materials, holds.meshes⟩
  obtain ⟨source, listed, rfl⟩ := Scene.exists_of_mem_pruneNodes member
  exact holds.nodes source listed

/-- Every step leaves a scene well formed. -/
theorem apply (holds : scene.WellFormed) (step : Step) : (step.apply scene).WellFormed := by
  cases step with
  | mirror | scale _ | normals _ | tangents | mergeMaterials => exact holds.meshwise True.intro
  | flatten => exact holds.flatten
  | mergeMeshes => exact holds.mergeMeshes
  | pruneNodes => exact holds.pruneNodes

theorem foldl_apply (holds : scene.WellFormed) (steps : List Step) :
    (steps.foldl Step.apply scene).WellFormed := by
  induction steps generalizing scene with
  | nil => exact holds
  | cons step steps ih => exact ih (holds.apply step)

end Scene.WellFormed

/-- Any number of steps in any order leaves a scene well formed, and so do those that settings
switch on. -/
theorem wellFormed_process {scene : Scene Single} (holds : scene.WellFormed) :
    (∀ steps : List Step, (steps.foldl Step.apply scene).WellFormed) ∧
      ∀ settings : Settings, (scene.process settings).WellFormed :=
  ⟨holds.foldl_apply, fun settings => holds.foldl_apply (Step.ofSettings settings)⟩

/-- A pole with a rope and a flag that is bound to the pole; the flag has tangents. -/
def flagpole : Scene Single where
  meshes := #[
    { name := "flag"
      material := 1
      positions := #[0, ⟨1, 0, 0⟩, ⟨0, 1, 0⟩]
      normals := some #[0, 0, 0]
      tangents := some #[0, 0, 0]
      bitangents := some #[0, 0, 0]
      faces := [[0, 1, 2], [2, 1, 0]]
      bones := [⟨"pole", 1, [⟨0, 1⟩, ⟨2, 1⟩]⟩] },
    { name := "rope", primitive := .lines, positions := #[0, ⟨0, 1, 0⟩], faces := [[0, 1]] },
    { name := "sheet", positions := #[0, ⟨1, 0, 0⟩, ⟨0, 1, 0⟩], faces := [[2, 0, 1]] }]
  materials := #[.plain "hemp", .plain "linen"]
  nodes := #[⟨"ground", 1, [], [2]⟩, ⟨"rope", 1, [1, 2], []⟩, ⟨"pole", 1, [0], [1, 3]⟩,
    ⟨"spare", 1, [], []⟩]

theorem wellFormed_process_flagpole : flagpole.WellFormed ∧
    ((flagpole.generateNormals .flat).pruneNodes.flatten.mergeMeshes).WellFormed ∧
    (flagpole.process {}).WellFormed := by
  have rooted : flagpole.links.Rooted := by
    have links : flagpole.links = #[[2], [], [1, 3], []] := by decide +kernel
    rw [links]
    refine (Links.rooted_iff (by decide)).mpr ⟨by unfold Links.Closed; decide,
      .cons 0 (.cons 2 (.cons 1 .nil (.cons 3 .nil .nil)) .nil) .nil, ?_, by decide⟩
    exact .inside rfl (.inside rfl (.inside rfl .nil (.inside rfl .nil .nil)) .nil) .nil
  have holds : flagpole.WellFormed := by
    refine ⟨rooted, by decide, by decide, fun mesh member => ?_⟩
    simp only [flagpole, List.mem_toArray, List.mem_cons, List.not_mem_nil, or_false] at member
    rcases member with rfl | rfl | rfl <;>
      exact ⟨⟨by simp [Fits], by simp [Fits], by simp [Fits], by simp [Fits], by simp [Fits],
        by simp [Fits], rfl⟩, by unfold SourceMesh.Faced; decide, by simp [SourceMesh.Cornered],
        by unfold SourceMesh.Weighted; decide⟩
  obtain ⟨steps, settings⟩ := wellFormed_process holds
  have reduced := steps [.normals .flat, .pruneNodes, .flatten, .mergeMeshes]
  -- By definition alone, the kernel would run the steps to see that the two sides are the same.
  rw [List.foldl_cons, List.foldl_cons, List.foldl_cons, List.foldl_cons, List.foldl_nil,
    Step.apply, Step.apply, Step.apply, Step.apply] at reduced
  exact ⟨holds, reduced, settings {}⟩

end SceneBaker.Scene
