import SceneBaker.Proofs.Build.Conversion
import SceneBaker.Proofs.Scene.Merge
import SceneBaker.Proofs.Scene.Meshes
import SceneBaker.Proofs.Scene.Prune

/-! # Conversions under processing

Whatever a conversion needs of a scene, every step of processing keeps: most steps leave alone the
hierarchy and all names, flattening leaves nothing that could fail, and pruning leaves every node
that is looked up by its name. Without a change of space, the clips still move nodes of the same
names.
-/

set_option linter.dupNamespace false

namespace SceneBaker.Build

open Number Model Animation Scene

variable {scene : Scene Single} {settings : Settings} {forest : Forest Nat}

/-! ## Bone names -/

namespace Skeleton

theorem nodup_names_collect (scene : Scene Single) (settings : Settings) :
    (collect scene settings).names.Nodup := by
  rw [collect]
  split
  · exact .nil
  · exact nodup_names_foldl_add _ .nil

/-- While bones are in use, the skeleton has the bone names of all meshes. -/
theorem mem_names_collect {name : String} : name ∈ (collect scene settings).names ↔
    settings.disableBones = false ∧
      ∃ mesh ∈ scene.meshes, name ∈ mesh.bones.map (·.name) := by
  rw [(collects_collect scene settings).names_eq, List.mem_eraseDups]
  cases settings.disableBones with
  | true => simp
  | false => simp [List.map_flatMap, -List.mem_map]

/-- Scenes with the same bone names have skeletons of the same size. -/
theorem size_collect_eq {other : Scene Single}
    (same : ∀ name, name ∈ (collect other settings).names ↔ name ∈ (collect scene settings).names) :
    (collect other settings).size = (collect scene settings).size := by
  have perm := (List.perm_ext_iff_of_nodup (nodup_names_collect other settings)
    (nodup_names_collect scene settings)).mpr same
  simpa [names, size] using perm.length_eq

end Skeleton

/-! ## Convertible scenes -/

/-- A scene in the form of a tree of which a model can be built. -/
structure Constructible (settings : Settings) (scene : Scene Single) (forest : Forest Nat) : Prop where
  unfolds : scene.links.Unfolds [0] forest
  distinct : forest.preorder.Nodup
  filled : ¬(scene.nodes.isEmpty && scene.meshes.isEmpty) = true
  few : (Skeleton.collect scene settings).size ≤ 2 ^ 32
  carried : ∀ name ∈ (Skeleton.collect scene settings).names,
    (reached scene forest).countP (·.name = name) = 1
  buildable : ∀ mesh ∈ scene.meshes, mesh.Buildable settings

/-- A scene that can be converted, its clips moving nodes that it has. -/
structure Convertible (settings : Settings) (scene : Scene Single) (forest : Forest Nat) : Prop
    extends Constructible settings scene forest where
  animated : ∀ clip ∈ scene.clips, ∀ channel ∈ clip.channels,
    ∃ source ∈ reached scene forest, source.name = channel.node

theorem exists_buildModel_iff_constructible (unfolds : scene.links.Unfolds [0] forest)
    (distinct : forest.preorder.Nodup) :
    (∃ model, buildModel scene settings = .ok model) ↔ Constructible settings scene forest := by
  rw [exists_buildModel_iff]
  constructor
  · rintro ⟨filled, ⟨tree, planted⟩, buildable⟩
    have few := size_le_of_nodeTree_eq_ok planted
    have carried := (exists_nodeTree_iff unfolds distinct few).mp ⟨tree, planted⟩
    exact ⟨unfolds, distinct, filled, few, carried, buildable⟩
  · intro constructible
    have planted := (exists_nodeTree_iff unfolds distinct constructible.few).mpr constructible.carried
    exact ⟨constructible.filled, planted, constructible.buildable⟩

theorem exists_convert_iff_convertible (unfolds : scene.links.Unfolds [0] forest)
    (distinct : forest.preorder.Nodup) (stem : String) :
    (∃ converted, convert scene settings stem = .ok converted) ↔
      Convertible settings scene forest := by
  rw [exists_convert_iff unfolds distinct, exists_buildModel_iff_constructible unfolds distinct]
  constructor
  · rintro ⟨constructible, animated⟩
    exact ⟨constructible, animated⟩
  · intro convertible
    exact ⟨convertible.toConstructible, convertible.animated⟩

/-! ## Steps that keep the hierarchy -/

/-- A node without what a change of space or other meshes do to it. -/
def plainNode (node : SourceNode Single) : String × List Nat := (node.name, node.children)

/-- The hierarchy, all names and what building needs are as before. -/
structure Keeps (before after : Scene Single) : Prop where
  nodes : after.nodes.map plainNode = before.nodes.map plainNode
  bones : ∀ name, (∃ mesh ∈ after.meshes, name ∈ mesh.bones.map (·.name)) ↔
    ∃ mesh ∈ before.meshes, name ∈ mesh.bones.map (·.name)
  filled : (∃ mesh, mesh ∈ before.meshes) → ∃ mesh, mesh ∈ after.meshes
  buildable : ∀ settings, (∀ mesh ∈ before.meshes, mesh.Buildable settings) →
    ∀ mesh ∈ after.meshes, mesh.Buildable settings
  clips : after.clips.map clipNames = before.clips.map clipNames

theorem animated_iff {clips : List (Clip Single)} {known : List String} :
    (∀ clip ∈ clips, ∀ channel ∈ clip.channels, channel.node ∈ known) ↔
      ∀ names ∈ clips.map clipNames, ∀ name ∈ names.2, name ∈ known := by
  simp [clipNames]

namespace Keeps

variable {after : Scene Single}

theorem links_eq (keeps : Keeps scene after) : after.links = scene.links := by
  have children := congrArg (Array.map Prod.snd) keeps.nodes
  rwa [Array.map_map, Array.map_map] at children

theorem names_reached (keeps : Keeps scene after) (forest : Forest Nat) :
    (reached after forest).map (·.name) = (reached scene forest).map (·.name) := by
  rw [reached, reached, List.map_filterMap, List.map_filterMap]
  refine List.filterMap_congr fun position _ => ?_
  have entry := congrArg (fun nodes => nodes[position]?.map Prod.fst) keeps.nodes
  simpa [Function.comp_def, plainNode] using entry

theorem constructible (keeps : Keeps scene after) (holds : Constructible settings scene forest) :
    Constructible settings after forest := by
  have names (name : String) : name ∈ (Skeleton.collect after settings).names ↔
      name ∈ (Skeleton.collect scene settings).names := by
    rw [Skeleton.mem_names_collect, Skeleton.mem_names_collect, keeps.bones]
  have count (name : String) : (reached after forest).countP (·.name = name) =
      (reached scene forest).countP (·.name = name) := by
    have mapped := congrArg (List.countP (· = name)) (keeps.names_reached forest)
    rwa [List.countP_map, List.countP_map] at mapped
  constructor
  case unfolds =>
    rw [keeps.links_eq]
    exact holds.unfolds
  case distinct => exact holds.distinct
  case filled =>
    intro empty
    refine holds.filled ?_
    have nodes := congrArg Array.size keeps.nodes
    rw [Array.size_map, Array.size_map] at nodes
    simp only [Bool.and_eq_true, Array.isEmpty_iff_size_eq_zero] at empty ⊢
    refine ⟨nodes ▸ empty.1, ?_⟩
    by_contra some
    obtain ⟨mesh, member⟩ := keeps.filled ⟨_, Array.getElem_mem (Nat.pos_of_ne_zero some)⟩
    exact absurd (Array.size_pos_of_mem member) (by omega)
  case few =>
    rw [Skeleton.size_collect_eq names]
    exact holds.few
  case carried =>
    intro name member
    rw [count]
    exact holds.carried name ((names name).mp member)
  case buildable => exact keeps.buildable settings holds.buildable

theorem convertible (keeps : Keeps scene after) (holds : Convertible settings scene forest) :
    Convertible settings after forest := by
  refine ⟨keeps.constructible holds.toConstructible, ?_⟩
  have found := holds.animated
  simp only [← List.mem_map] at found ⊢
  rw [keeps.names_reached, animated_iff, keeps.clips, ← animated_iff]
  exact found

end Keeps

/-- Steps that treat every mesh alone change neither the hierarchy nor a name. -/
theorem keeps_of_meshwise {step : Step} (meshwise : step.Meshwise) (scene : Scene Single) :
    Keeps scene (step.apply scene) := by
  obtain ⟨f, meshes, reshaped⟩ := Step.exists_reshaped meshwise scene
  constructor
  case nodes =>
    cases step with
    | mirror | scale _ => exact Array.map_map ..
    | normals _ | tangents | mergeMaterials => rfl
    | flatten | mergeMeshes | pruneNodes => exact meshwise.elim
  case bones =>
    intro name
    simp only [meshes, Array.mem_map, exists_exists_and_eq_and, (reshaped _).names_eq]
  case filled =>
    rintro ⟨mesh, member⟩
    rw [meshes]
    exact ⟨f mesh, Array.mem_map_of_mem member⟩
  case buildable =>
    intro settings all
    rw [meshes]
    simp only [Array.forall_mem_map]
    exact fun mesh member => (reshaped mesh).buildable (all mesh member)
  case clips =>
    have moved (change : Channel Single → Channel Single)
        (same : ∀ channel, (change channel).node = channel.node) :
        (scene.clips.map fun clip => { clip with channels := clip.channels.map change }).map
          clipNames = scene.clips.map clipNames := by
      simp [clipNames, Function.comp_def, same]
    cases step with
    | mirror | scale _ => exact moved _ fun _ => rfl
    | normals _ | tangents | mergeMaterials => rfl
    | flatten | mergeMeshes | pruneNodes => exact meshwise.elim

theorem keeps_mergeMeshes (scene : Scene Single) : Keeps scene scene.mergeMeshes := by
  obtain ⟨placements, merged⟩ := scene.merged_mergeMeshes
  constructor
  case nodes =>
    rw [← Array.toList_inj, Array.toList_map, Array.toList_map]
    have listed := merged.nodes
    generalize scene.nodes.toList = befores at listed ⊢
    generalize scene.mergeMeshes.nodes.toList = afters at listed ⊢
    induction listed with
    | nil => rfl
    | cons relisted _ ih => rw [List.map_cons, List.map_cons, ih, relisted.same]; rfl
  case bones => exact merged.mem_names
  case filled =>
    rintro ⟨mesh, member⟩
    obtain ⟨index, inside, -⟩ := Scene.exists_mesh_eq member
    obtain ⟨group, -, -, made⟩ := merged.grouped.exists_of_placed (merged.complete index inside)
    exact ⟨_, made⟩
  case buildable => exact fun settings => merged.buildable
  case clips => rw [merged.clips]

/-! ## Steps that rebuild the hierarchy -/

/-- A placed mesh can be built as the mesh can. -/
theorem buildable_placeMesh {mesh : SourceMesh Single} (buildable : mesh.Buildable settings)
    (world : Geometry.Mat4 Single) : (Scene.placeMesh world mesh).Buildable settings := by
  have alike : SourceMesh.Alike mesh { Scene.placeMesh world mesh with bones := mesh.bones } := by
    rw [Scene.placeMesh]
    dsimp only
    split
    · exact ⟨rfl, Array.size_map .., .inr rfl, rfl, Option.map_eq_none_iff.mp⟩
    · exact ⟨rfl, Array.size_map .., .inl rfl, rfl, Option.map_eq_none_iff.mp⟩
  exact ⟨alike.faced_iff.mpr buildable.faced, alike.cornered_iff.mpr buildable.cornered,
    fun _ bone member => absurd member List.not_mem_nil⟩

/-- Placed meshes are those of the scene without their bones. -/
theorem of_mem_placedMeshes {mesh : SourceMesh Single} (member : mesh ∈ scene.placedMeshes) :
    ∃ world, ∃ source ∈ scene.meshes, mesh = Scene.placeMesh world source := by
  obtain ⟨position, -, placed⟩ := List.mem_flatMap.mp member
  split at placed
  case h_1 node world _ _ =>
    obtain ⟨index, -, made⟩ := List.mem_filterMap.mp placed
    obtain ⟨source, found, rfl⟩ := Option.map_eq_some_iff.mp made
    exact ⟨world, source, Array.mem_of_getElem? found, rfl⟩
  case h_2 => cases placed

namespace Constructible

/-- A flat scene has one node and no bones. -/
theorem flatten (holds : Constructible settings scene forest) :
    Constructible settings scene.flatten (.cons 0 .nil .nil) := by
  have boneless (name : String) : name ∉ (Skeleton.collect scene.flatten settings).names := by
    rw [Skeleton.mem_names_collect]
    rintro ⟨-, mesh, member, named⟩
    obtain ⟨world, source, -, rfl⟩ := of_mem_placedMeshes (List.mem_toArray.mp member)
    cases named
  constructor
  case unfolds =>
    have root : scene.flatten.links[0]? = some [] := by rw [Scene.links_getElem?]; rfl
    exact .inside root .nil .nil
  case distinct => exact List.nodup_singleton 0
  case filled => exact Bool.false_ne_true
  case few =>
    have none := List.eq_nil_iff_forall_not_mem.mpr boneless
    have size := congrArg List.length none
    rw [Skeleton.names, List.length_map] at size
    rw [Skeleton.size, size]
    exact Nat.zero_le _
  case carried => exact fun name member => absurd member (boneless name)
  case buildable =>
    intro mesh member
    obtain ⟨world, source, listed, rfl⟩ := of_mem_placedMeshes (List.mem_toArray.mp member)
    exact buildable_placeMesh (holds.buildable source listed) world

/-- Every bone node is left. -/
theorem pruneNodes (holds : Constructible settings scene forest) :
    Constructible settings scene.pruneNodes (scene.prunedForest forest) := by
  have bones : Skeleton.collect scene.pruneNodes settings = Skeleton.collect scene settings := rfl
  constructor
  case unfolds => exact Scene.unfolds_pruneNodes holds.unfolds holds.distinct
  case distinct => exact Scene.nodup_prunedForest holds.unfolds holds.distinct
  case filled =>
    intro empty
    refine holds.filled ?_
    simp only [Bool.and_eq_true, Array.isEmpty_iff] at empty ⊢
    refine ⟨?_, empty.2⟩
    by_contra rooted
    have within := Array.size_pos_iff.mpr rooted
    have found := Scene.pruneNodes_getElem? (Array.getElem?_eq_getElem within)
      (Scene.stays_root holds.unfolds holds.distinct within)
    rw [empty.1] at found
    cases found
  case few => exact holds.few
  case carried =>
    intro name member
    obtain ⟨-, mesh, listed, named⟩ := Skeleton.mem_names_collect.mp (bones ▸ member)
    rw [countP_reached_pruneNodes holds.unfolds holds.distinct, holds.carried name member]
    exact List.mem_append_left _
      (List.mem_flatMap.mpr ⟨mesh, Array.mem_toList_iff.mpr listed, named⟩)
  case buildable => exact holds.buildable

end Constructible

namespace Convertible

/-- A flat scene has no clips. -/
theorem flatten (holds : Convertible settings scene forest) :
    Convertible settings scene.flatten (.cons 0 .nil .nil) :=
  ⟨holds.toConstructible.flatten, fun _ member => absurd member List.not_mem_nil⟩

/-- Every node that is looked up by its name is left. -/
theorem pruneNodes (holds : Convertible settings scene forest) :
    Convertible settings scene.pruneNodes (scene.prunedForest forest) := by
  refine ⟨holds.toConstructible.pruneNodes, fun clip listed channel among => ?_⟩
  have needed : channel.node ∈ scene.protectedNames :=
    List.mem_append_right _ (List.mem_flatMap.mpr ⟨clip, listed, List.mem_map_of_mem among⟩)
  have positive (sources : List (SourceNode Single)) :
      0 < sources.countP (·.name = channel.node) ↔
        ∃ source ∈ sources, source.name = channel.node := by
    simp [List.countP_pos_iff]
  rw [← positive, countP_reached_pruneNodes holds.unfolds holds.distinct needed, positive]
  exact holds.animated clip listed channel among

/-- Every step leaves a scene that can be converted. -/
theorem apply (holds : Convertible settings scene forest) (step : Step) :
    ∃ after, Convertible settings (step.apply scene) after := by
  have meshwise (alone : step.Meshwise) : ∃ after, Convertible settings (step.apply scene) after :=
    ⟨forest, (keeps_of_meshwise alone scene).convertible holds⟩
  cases step with
  | mirror | scale _ | normals _ | tangents | mergeMaterials => exact meshwise True.intro
  | flatten => exact ⟨_, holds.flatten⟩
  | mergeMeshes => exact ⟨forest, (keeps_mergeMeshes scene).convertible holds⟩
  | pruneNodes => exact ⟨_, holds.pruneNodes⟩

theorem foldl_apply (holds : Convertible settings scene forest) (steps : List Step) :
    ∃ after, Convertible settings (steps.foldl Step.apply scene) after := by
  induction steps generalizing scene forest with
  | nil => exact ⟨forest, holds⟩
  | cons step steps ih =>
    obtain ⟨next, kept⟩ := holds.apply step
    exact ih kept

end Convertible

/-- Only flattening touches the names of clips and of what they move. -/
theorem clipNames_apply {step : Step} (nested : step ≠ .flatten) (scene : Scene Single) :
    (step.apply scene).clips.map clipNames = scene.clips.map clipNames := by
  have meshwise (alone : step.Meshwise) := (keeps_of_meshwise alone scene).clips
  cases step with
  | mirror | scale _ | normals _ | tangents | mergeMaterials => exact meshwise True.intro
  | flatten => exact absurd rfl nested
  | mergeMeshes => exact (keeps_mergeMeshes scene).clips
  | pruneNodes => rfl

theorem clipNames_foldl_apply {steps : List Step} (nested : .flatten ∉ steps)
    (scene : Scene Single) :
    (steps.foldl Step.apply scene).clips.map clipNames = scene.clips.map clipNames := by
  induction steps generalizing scene with
  | nil => rfl
  | cons step steps ih =>
    obtain ⟨first, others⟩ := List.ne_and_not_mem_of_not_mem_cons nested
    exact (ih others _).trans (clipNames_apply first.symm scene)

/-- A scene in the form of a tree that can be converted still can after processing. Without a change
of space that flattens it, its clips keep their names and their files' names, and every track moves
a node of the same name. -/
theorem exists_convert_process (unfolds : scene.links.Unfolds [0] forest)
    (distinct : forest.preorder.Nodup) {stem : String} {before : Converted}
    (success : convert scene settings stem = .ok before) :
    ∃ after, convert (scene.process settings) settings stem = .ok after ∧
      (settings.preTransform = false →
        List.Forall₂ (Corresponds before.model after.model) before.clips after.clips) := by
  have convertible := (exists_convert_iff_convertible unfolds distinct stem).mp ⟨before, success⟩
  obtain ⟨processed, holds⟩ := convertible.foldl_apply (Step.ofSettings settings)
  obtain ⟨after, converted⟩ :=
    (exists_convert_iff_convertible holds.unfolds holds.distinct stem).mpr holds
  refine ⟨after, converted, fun nested => ?_⟩
  have steps : .flatten ∉ Step.ofSettings settings := by
    rw [Step.flatten_mem_ofSettings, nested]
    exact Bool.false_ne_true
  obtain ⟨-, first, -⟩ := convert_eq_ok_iff.mp success
  obtain ⟨-, second, -⟩ := convert_eq_ok_iff.mp converted
  exact corresponds_of_convertClips (clipNames_foldl_apply steps scene) first second

/-- A rigged figure and two lamps, one of them below a node that nothing else needs. A clip moves
the first lamp, and pruning has to keep the branch for it. -/
def stroll : Scene Single where
  meshes := #[
    { name := "body"
      positions := #[0, 0, 0]
      faces := [[0, 1, 2]]
      bones := [⟨"hip", 1, [⟨0, 1⟩, ⟨2, 1⟩]⟩] },
    { name := "shade", positions := #[0, 0, 0], faces := [[2, 1, 0]] }]
  materials := #[.plain "skin", .plain "glass"]
  nodes := #[⟨"figure", 1, [0], [1, 3, 5, 6]⟩, ⟨"armature", 1, [], [2]⟩, ⟨"hip", 1, [], []⟩,
    ⟨"shelf", 1, [], [4]⟩, ⟨"lamp", 1, [], []⟩, ⟨"lamp", 1, [1], []⟩, ⟨"spare", 1, [], []⟩]
  clips := [⟨"sway", 0, 1, [{ node := "lamp" }, { node := "hip" }]⟩]

theorem exists_convert_process_stroll :
    stroll.links.Unfolds [0] (.cons 0 (.cons 1 (.cons 2 .nil .nil) (.cons 3 (.cons 4 .nil .nil)
      (.cons 5 .nil (.cons 6 .nil .nil)))) .nil) ∧
    ∃ before after, convert stroll {} "figure" = .ok before ∧
      convert (stroll.process {}) {} "figure" = .ok after ∧
      List.Forall₂ (Corresponds before.model after.model) before.clips after.clips := by
  have unfolds : stroll.links.Unfolds [0] (.cons 0 (.cons 1 (.cons 2 .nil .nil)
      (.cons 3 (.cons 4 .nil .nil) (.cons 5 .nil (.cons 6 .nil .nil)))) .nil) := by
    have links : stroll.links = #[[1, 3, 5, 6], [2], [], [4], [], [], []] := by decide +kernel
    rw [links]
    exact .inside rfl (.inside rfl (.inside rfl .nil .nil) (.inside rfl (.inside rfl .nil .nil)
      (.inside rfl .nil (.inside rfl .nil .nil)))) .nil
  have converts : ((convert stroll {} "figure").toOption).isSome = true := by decide +kernel
  cases success : convert stroll {} "figure" with
  | error cause => simp [success, Except.toOption] at converts
  | ok before =>
    obtain ⟨after, converted, corresponds⟩ := exists_convert_process unfolds (by decide) success
    exact ⟨unfolds, before, after, rfl, converted, corresponds rfl⟩

end SceneBaker.Build
