import SceneBaker.Proofs.Scene.Meshes
import SceneBaker.Proofs.Scene.Merge

/-! # Broken meshes under processing

Building refuses faces of the wrong size and references to vertices that are not there, and it runs
after processing. A face of the wrong size is refused all the same. A reference out of range is hidden
in two ways only: where vertices are taken apart, a weight on none of them is gone, and meshes that
are joined bring vertices that it may then lead to.
-/

set_option linter.dupNamespace false

namespace SceneBaker.Scene

open Number SceneBaker.Geometry Mesh Build

variable {α : Type}

/-! ## References -/

namespace SourceMesh

variable {mesh other after : SourceMesh α} {settings : Settings} {vertex : UInt32}

/-- A face has a vertex as its corner, or a weight that is in use is on it. -/
def Refers (settings : Settings) (mesh : SourceMesh α) (vertex : UInt32) : Prop :=
  (∃ face ∈ mesh.faces, vertex ∈ face) ∨
    settings.disableBones = false ∧ ∃ entry ∈ weightsOf mesh.bones, entry.2.vertex = vertex

/-- A mesh refers to a vertex that it does not have. -/
structure Dangles (settings : Settings) (mesh : SourceMesh α) (vertex : UInt32) : Prop where
  refers : mesh.Refers settings vertex
  outside : mesh.positions.size ≤ vertex.toNat

theorem exists_dangles
    (broken : ¬mesh.Cornered ∨ settings.disableBones = false ∧ ¬mesh.Weighted) :
    ∃ vertex, mesh.Dangles settings vertex := by
  rcases broken with broken | ⟨enabled, broken⟩
  · simp only [Cornered, not_forall, Nat.not_lt] at broken
    obtain ⟨face, member, corner, among, outside⟩ := broken
    exact ⟨corner, .inl ⟨face, member, among⟩, outside⟩
  · simp only [weighted_iff, not_forall, Nat.not_lt] at broken
    obtain ⟨entry, member, outside⟩ := broken
    exact ⟨entry.2.vertex, .inr ⟨enabled, entry, member, rfl⟩, outside⟩

theorem Dangles.not_buildable (dangles : mesh.Dangles settings vertex) :
    ¬mesh.Buildable settings := by
  intro buildable
  refine absurd dangles.outside (Nat.not_le.mpr ?_)
  rcases dangles.refers with ⟨face, member, among⟩ | ⟨enabled, entry, member, rfl⟩
  · exact buildable.cornered face member vertex among
  · exact weighted_iff.mp (buildable.weighted enabled) entry member

/-- Vertices that stay together keep what refers to them. -/
theorem Dangles.alike (dangles : mesh.Dangles settings vertex) (alike : Alike mesh after) :
    after.Dangles settings vertex := by
  refine ⟨?_, alike.size ▸ dangles.outside⟩
  rcases dangles.refers with ⟨face, member, among⟩ | weights
  · rcases alike.faces with same | turned
    · exact .inl ⟨face, same ▸ member, among⟩
    · exact .inl ⟨face.reverse, turned ▸ List.mem_map_of_mem member, List.mem_reverse.mpr among⟩
  · rw [← alike.weightsOf_eq] at weights
    exact .inr weights

theorem Refers.append_left (refers : mesh.Refers settings vertex) (other : SourceMesh α) :
    (mesh.append other).Refers settings vertex := by
  rcases refers with ⟨face, member, among⟩ | ⟨enabled, entry, member, on⟩
  · exact .inl ⟨face, List.mem_append_left _ member, among⟩
  · refine .inr ⟨enabled, entry, ?_, on⟩
    rw [bones_append, (perm_weightsOf_foldl_addBone _ _).mem_iff]
    exact List.mem_append_left _ member

/-- The references of a mesh move along with its vertices. -/
theorem Refers.append_right (refers : other.Refers settings vertex) (mesh : SourceMesh α) :
    (mesh.append other).Refers settings (vertex + UInt32.ofNat mesh.positions.size) := by
  rcases refers with ⟨face, member, among⟩ | ⟨enabled, entry, member, rfl⟩
  · exact .inl ⟨_, List.mem_append_right _ (List.mem_map_of_mem member), List.mem_map_of_mem among⟩
  · refine .inr ⟨enabled, (entry.1, { entry.2 with
      vertex := entry.2.vertex + UInt32.ofNat mesh.positions.size }), ?_, rfl⟩
    rw [bones_append, (perm_weightsOf_foldl_addBone _ _).mem_iff, weightsOf_movedBones]
    exact List.mem_append_right _ (List.mem_map_of_mem member)

/-- Flat normals drop the weights on a vertex that a mesh does not have. -/
structure Drops (settings : Settings) (mesh : SourceMesh α) (vertex : UInt32) : Prop where
  enabled : settings.disableNormals = false
  flat : settings.normalMode = .flat
  flattens : mesh.Flattens
  weight : ∀ face ∈ mesh.faces, vertex ∉ face

end SourceMesh

namespace Scene

variable {scene : Scene α} {settings : Settings} {index : Nat} {vertex : UInt32}

/-- Where meshes are joined, a reference moves behind the vertices of the meshes in front. -/
theorem refers_joined (refers : (scene.mesh index).Refers settings vertex) (front back : List Nat) :
    (scene.joined (front ++ index :: back)).Refers settings
      (vertex + UInt32.ofNat (scene.vertexCount front)) := by
  induction back using List.reverseRecOn with
  | nil =>
    by_cases first : front = []
    · subst first
      simpa [vertexCount, joined] using refers
    · rw [joined_append_singleton first, ← size_joined]
      exact refers.append_right _
  | append_singleton back other ih =>
    rw [← List.cons_append, ← List.append_assoc, joined_append_singleton (by simp)]
    exact ih.append_left _

/-- Meshes that merging joins, in this order: one node lists them, nothing mentions one of them a
second time, and they agree in their key. -/
structure Joins (scene : Scene α) (group : List Nat) : Prop where
  made : scene.joined group ∈ scene.mergeMeshes.meshes
  several : 1 < group.length
  distinct : group.Nodup
  listed : ∃ node ∈ scene.nodes, ∀ index ∈ group, index ∈ node.meshes
  single : ∀ index ∈ group, (scene.nodes.toList.flatMap (·.meshes)).count index = 1
  agree : Agree scene group

/-- Among meshes that are joined, a reference leads to a vertex of one of them. -/
def Leads (scene : Scene α) (index : Nat) (vertex : UInt32) : Prop :=
  ∃ front back, scene.Joins (front ++ index :: back) ∧
    (vertex + UInt32.ofNat (scene.vertexCount front)).toNat <
      scene.vertexCount (front ++ index :: back)

/-- A group of several meshes is one that merging joins. -/
theorem joins_membersAt {mentions : Nat → Nat} {placements : List (Nat × Nat)} {position : Nat}
    (merged : Merged scene scene.mergeMeshes mentions placements)
    (counted : ∀ index < scene.meshes.size,
      mentions index = (scene.nodes.toList.flatMap (·.meshes)).count index)
    (several : 1 < (membersAt placements position).length) :
    scene.Joins (membersAt placements position) := by
  have distinct := merged.grouped.nodup_membersAt position
  have once : ∀ index ∈ membersAt placements position, mentions index = 1 := by
    intro index member
    by_contra many
    rw [merged.grouped.membersAt_eq_singleton (mem_membersAt.mp member) many] at several
    exact absurd several (by simp)
  have inside : ∀ index ∈ membersAt placements position, index < scene.meshes.size :=
    fun index member => (merged.grouped.inside _ (mem_membersAt.mp member)).1
  have single : ∀ index ∈ membersAt placements position,
      (scene.nodes.toList.flatMap (·.meshes)).count index = 1 := fun index member =>
    (counted index (inside index member)).symm.trans (once index member)
  obtain ⟨first, member⟩ := List.exists_mem_of_length_pos (Nat.zero_lt_of_lt several)
  have below := (merged.grouped.inside _ (mem_membersAt.mp member)).2
  refine ⟨Array.mem_of_getElem? (merged.grouped.made position below).2, several, distinct, ?_, single,
    merged.grouped.agree_membersAt position⟩
  -- The node that mentions one member lists the group, and so it mentions all of them.
  have mentioned := List.count_pos_iff.mp ((single first member).symm ▸ Nat.one_pos)
  obtain ⟨node, among, listed⟩ := List.mem_flatMap.mp mentioned
  obtain ⟨place, within, rfl⟩ := Array.mem_iff_getElem.mp (Array.mem_toList_iff.mp among)
  obtain ⟨before, later, found, -, relisted⟩ := merged.exists_relisted within
  obtain rfl := Option.some.inj ((Array.getElem?_eq_getElem within).symm.trans found)
  obtain ⟨other, lists, placed⟩ := (relisted.members first).mpr ⟨listed, inside first member⟩
  obtain rfl := merged.grouped.position_unique placed (mem_membersAt.mp member)
  refine ⟨_, Array.getElem_mem within, fun index among => ?_⟩
  exact ((relisted.members index).mp ⟨_, lists, mem_membersAt.mp among⟩).1

/-- Merging leaves a reference out of range, unless it leads to a vertex that came to its mesh. -/
theorem leads_or_exists_dangles (inside : index < scene.meshes.size)
    (dangles : (scene.mesh index).Dangles settings vertex) :
    scene.Leads index vertex ∨
      ∃ mesh ∈ scene.mergeMeshes.meshes, ∃ moved, mesh.Dangles settings moved := by
  obtain ⟨placements, merged⟩ := scene.merged_mergeMeshes
  obtain ⟨⟨index, position⟩, member, rfl⟩ := List.mem_map.mp (merged.complete index inside)
  obtain ⟨-, made⟩ := merged.grouped.made position (merged.grouped.inside _ member).2
  obtain ⟨front, back, group⟩ := List.append_of_mem (mem_membersAt.mpr member)
  have refers := refers_joined dangles.refers front back
  rw [group] at made
  by_cases outside : scene.vertexCount (front ++ index :: back) ≤
      (vertex + UInt32.ofNat (scene.vertexCount front)).toNat
  · exact .inr ⟨_, Array.mem_of_getElem? made, _, refers, (size_joined ..).trans_le outside⟩
  · refine .inl ⟨front, back, ?_, Nat.not_le.mp outside⟩
    rw [← group]
    refine joins_membersAt merged (fun index inside => mentions_eq inside) ?_
    rw [group]
    by_contra few
    simp only [List.length_append, List.length_cons] at few
    obtain rfl : front = [] := List.eq_nil_of_length_eq_zero (by omega)
    obtain rfl : back = [] := List.eq_nil_of_length_eq_zero (by omega)
    exact outside (by simpa [vertexCount] using dangles.outside)

end Scene

/-! ## What steps do not mend -/

/-- All faces fit the primitives of their meshes. -/
def Scene.Faced (scene : Scene Single) : Prop := ∀ mesh ∈ scene.meshes, mesh.Faced

namespace Step

variable {scene : Scene Single} {settings : Settings}

theorem faced_of_apply {step : Step} (nested : step ≠ .flatten) (faced : (step.apply scene).Faced) :
    scene.Faced := by
  have meshwise (alone : step.Meshwise) : scene.Faced := by
    obtain ⟨f, meshes, reshaped⟩ := exists_reshaped alone scene
    intro mesh member
    refine (reshaped mesh).faced_iff.mp (faced _ ?_)
    rw [meshes]
    exact Array.mem_map_of_mem member
  cases step with
  | mirror | scale _ | normals _ | tangents | mergeMaterials => exact meshwise True.intro
  | flatten => exact absurd rfl nested
  | mergeMeshes =>
    obtain ⟨placements, merged⟩ := scene.merged_mergeMeshes
    exact merged.faced_iff.mp faced
  | pruneNodes => exact faced

/-- What no step brings about is not brought about by all of them. -/
theorem of_foldl_apply {P : Scene Single → Prop} {steps : List Step}
    (reflects : ∀ step ∈ steps, ∀ scene, P (step.apply scene) → P scene)
    (holds : P (steps.foldl apply scene)) : P scene := by
  induction steps generalizing scene with
  | nil => exact holds
  | cons step steps ih =>
    obtain ⟨first, others⟩ := List.forall_mem_cons.mp reflects
    exact first scene (ih others holds)

/-- Meshes that no step takes apart stay as they are but for the direction of their faces. -/
theorem exists_alike_foldl {steps : List Step} (meshwise : ∀ step ∈ steps, step.Meshwise)
    {index : Nat} {mesh : SourceMesh Single} (found : scene.meshes[index]? = some mesh)
    (whole : normals .flat ∈ steps → ¬mesh.Flattens) :
    ∃ after, (steps.foldl apply scene).meshes[index]? = some after ∧
      SourceMesh.Alike mesh after := by
  induction steps generalizing scene mesh with
  | nil => exact ⟨mesh, found, .refl mesh⟩
  | cons step steps ih =>
    obtain ⟨first, others⟩ := List.forall_mem_cons.mp meshwise
    obtain ⟨f, meshes, alike⟩ := exists_alike first scene
    have one := alike mesh fun flat => whole (flat ▸ List.mem_cons_self)
    have next : (step.apply scene).meshes[index]? = some (f mesh) := by
      rw [meshes, Array.getElem?_map, found, Option.map_some]
    obtain ⟨after, last, rest⟩ := ih others next fun flat apart =>
      whole (List.mem_cons_of_mem step flat) (one.flattens apart)
    exact ⟨after, last, one.trans rest⟩

end Step

variable {scene : Scene Single} {settings : Settings}

theorem Scene.faced_of_process (nested : settings.preTransform = false)
    (faced : (scene.process settings).Faced) : scene.Faced := by
  refine Step.of_foldl_apply (fun step member scene => Step.faced_of_apply ?_) faced
  rintro rfl
  rw [Step.flatten_mem_ofSettings, nested] at member
  cases member

namespace Scene

/-- The scene as it is before meshes are merged and nodes are pruned. -/
def shaped (scene : Scene Single) (settings : Settings) : Scene Single :=
  scene.process { settings with optimizeMeshes := false, optimizeNodes := false }

theorem meshes_process (scene : Scene Single) (settings : Settings) :
    (scene.process settings).meshes = if settings.optimizeMeshes then
      (scene.shaped settings).mergeMeshes.meshes else (scene.shaped settings).meshes := by
  simp only [shaped, process, Step.ofSettings, List.foldl_append]
  cases settings.optimizeMeshes <;> cases settings.optimizeNodes <;> rfl

theorem meshwise_of_shaped (nested : settings.preTransform = false) : ∀ step ∈ Step.ofSettings
    { settings with optimizeMeshes := false, optimizeNodes := false }, step.Meshwise := by
  intro step member
  simp only [Step.ofSettings, nested, List.mem_append, List.mem_ite_nil_right, List.mem_singleton,
    Bool.false_eq_true, false_and, or_false] at member
  rcases member with ((((⟨-, rfl⟩ | ⟨-, rfl⟩) | ⟨-, rfl⟩) | ⟨-, rfl⟩) | ⟨-, rfl⟩) <;> trivial

end Scene

/-- A model is not built from a mesh that is out of order. -/
theorem exists_error_of_not_buildable {mesh : SourceMesh Single} (member : mesh ∈ scene.meshes)
    (broken : ¬mesh.Buildable settings) : ∃ cause, buildModel scene settings = .error cause := by
  cases result : buildModel scene settings with
  | error cause => exact ⟨cause, rfl⟩
  | ok model => exact absurd ((exists_buildModel_iff.mp ⟨model, result⟩).2.2 mesh member) broken

/-- A reference out of range that is a dropped weight or leads to a vertex of a joined mesh is
hidden; any other one is refused after processing. -/
theorem drops_or_leads_or_exists_error (nested : settings.preTransform = false) {index : Nat}
    {mesh : SourceMesh Single} {vertex : UInt32} (found : scene.meshes[index]? = some mesh)
    (dangles : mesh.Dangles settings vertex) :
    mesh.Drops settings vertex ∨
      settings.optimizeMeshes = true ∧ (scene.shaped settings).Leads index vertex ∨
      ∃ cause, buildModel (scene.process settings) settings = .error cause := by
  refine Classical.or_iff_not_imp_left.mpr fun kept => ?_
  have whole : Step.normals .flat ∈ Step.ofSettings
      { settings with optimizeMeshes := false, optimizeNodes := false } → ¬mesh.Flattens := by
    intro member flattens
    obtain ⟨enabled, flat⟩ := Step.of_normals_mem_ofSettings member
    refine kept ⟨enabled, flat.symm, flattens, fun face member among => ?_⟩
    have inside := (SourceMesh.flattens_iff.mp flattens).2.2.2 face member vertex among
    exact absurd dangles.outside (Nat.not_le.mpr inside)
  obtain ⟨after, present, alike⟩ :=
    Step.exists_alike_foldl (Scene.meshwise_of_shaped nested) found whole
  have dangles := dangles.alike alike
  have meshes := scene.meshes_process settings
  by_cases joined : settings.optimizeMeshes = true
  · rw [if_pos joined] at meshes
    obtain ⟨inside, -⟩ := Array.getElem?_eq_some_iff.mp present
    rw [← Scene.mesh_eq present] at dangles
    refine (Scene.leads_or_exists_dangles inside dangles).imp (⟨joined, ·⟩) ?_
    rintro ⟨made, member, moved, dangles⟩
    exact exists_error_of_not_buildable (meshes ▸ member) dangles.not_buildable
  · rw [if_neg joined] at meshes
    refine .inr (exists_error_of_not_buildable ?_ dangles.not_buildable)
    exact meshes ▸ Array.mem_of_getElem? present

/-- Without a change of space, processing never hides a face of the wrong size. References out of
range it does not hide either as long as meshes stay apart and vertices shared; otherwise it hides
those weights that flat normals drop and those references that lead to a vertex of a mesh that theirs
is joined with. -/
theorem exists_error_process (nested : settings.preTransform = false) :
    ((∃ name found expected,
        buildModel scene settings = .error (.unsupportedFace name found expected)) →
      ∃ cause, buildModel (scene.process settings) settings = .error cause) ∧
    (settings.optimizeMeshes = false →
      (settings.normalMode = .flat →
        settings.disableNormals = true ∨ settings.disableBones = true) →
      (∃ name vertex count,
        buildModel scene settings = .error (.vertexOutOfRange name vertex count)) →
      ∃ cause, buildModel (scene.process settings) settings = .error cause) ∧
    ∀ index mesh vertex, scene.meshes[index]? = some mesh → mesh.Dangles settings vertex →
      mesh.Drops settings vertex ∨
        settings.optimizeMeshes = true ∧ (scene.shaped settings).Leads index vertex ∨
        ∃ cause, buildModel (scene.process settings) settings = .error cause := by
  refine ⟨?_, ?_, fun index mesh vertex => drops_or_leads_or_exists_error nested⟩
  · rintro ⟨name, found, expected, failed⟩
    obtain ⟨mesh, member, wrong⟩ := (of_buildModel_eq_error failed).1 ⟨_, _, _, rfl⟩
    have broken : ¬(scene.process settings).Faced := fun faced =>
      wrong (Scene.faced_of_process nested faced mesh member)
    simp only [Scene.Faced, not_forall] at broken
    obtain ⟨made, member, wrong⟩ := broken
    exact exists_error_of_not_buildable member fun buildable => wrong buildable.faced
  · rintro separate shared ⟨name, vertex, count, failed⟩
    obtain ⟨mesh, member, broken⟩ := (of_buildModel_eq_error failed).2 ⟨_, _, _, rfl⟩
    obtain ⟨index, found⟩ := Array.mem_iff_getElem?.mp member
    obtain ⟨vertex, dangles⟩ := SourceMesh.exists_dangles broken
    rcases drops_or_leads_or_exists_error nested found dangles with drops | ⟨joined, -⟩ | failed
    · rcases shared drops.flat with disabled | disabled
      · exact absurd (drops.enabled.symm.trans disabled) Bool.false_ne_true
      · rcases dangles.refers with ⟨face, member, among⟩ | ⟨enabled, -⟩
        · exact absurd among (drops.weight face member)
        · exact absurd (enabled.symm.trans disabled) Bool.false_ne_true
    · exact absurd (separate.symm.trans joined) Bool.false_ne_true
    · exact failed

/-- A quadrilateral among triangles. -/
def quadrilateral : Scene Single where
  meshes := #[{ name := "floor", positions := #[0, 0, 0, 0], faces := [[0, 1, 2, 3]] }]
  materials := #[.plain "wood"]
  nodes := #[⟨"root", 1, [0], []⟩]

/-- A triangle with a corner that only both meshes together have. -/
def overhanging : Scene Single where
  meshes := #[{ name := "floor", positions := #[0, 0, 0], faces := [[0, 1, 4]] },
    { name := "wall", positions := #[0, 0, 0], faces := [[0, 1, 2]] }]
  materials := #[.plain "wood"]
  nodes := #[⟨"root", 1, [0, 1], []⟩]

/-- A weight on a vertex that the mesh does not have. -/
def stray : Scene Single where
  meshes := #[{
    name := "skin"
    positions := #[0, 0, 0]
    faces := [[0, 1, 2]]
    bones := [⟨"hip", 1, [⟨9, 1⟩]⟩] }]
  materials := #[.plain "skin"]
  nodes := #[⟨"hip", 1, [0], []⟩]

/-- Only meshes are joined. -/
def joining : Settings where
  leftHanded := false
  normalMode := .none
  disableTangents := true
  optimizeMaterials := false
  optimizeNodes := false

/-- A single mesh is joined with none. -/
theorem not_leads_stray {index : Nat} {vertex : UInt32} :
    ¬(stray.shaped joining).Leads index vertex := by
  rintro ⟨front, back, joins, -⟩
  have same : stray.shaped joining = stray := rfl
  rw [same] at joins
  obtain ⟨node, among, lists⟩ := joins.listed
  obtain rfl : node = ⟨"hip", 1, [0], []⟩ := by simpa [stray] using among
  have alone : front ++ index :: back ⊆ [0] := lists
  exact absurd (joins.distinct.subperm alone).length_le (Nat.not_le.mpr joins.several)

theorem exists_error_process_quadrilateral :
    (buildModel quadrilateral {} = .error (.unsupportedFace "floor" 4 3) ∧
      ∃ cause, buildModel (quadrilateral.process {}) {} = .error cause) ∧
    (buildModel overhanging { optimizeMeshes := false } = .error (.vertexOutOfRange "floor" 4 3) ∧
      ∃ cause, buildModel (overhanging.process { optimizeMeshes := false })
        { optimizeMeshes := false } = .error cause) ∧
    buildModel stray joining = .error (.vertexOutOfRange "skin" 9 3) ∧
      (∃ mesh, stray.meshes[0]? = some mesh ∧ mesh.Dangles joining 9) ∧
      ∃ cause, buildModel (stray.process joining) joining = .error cause := by
  have face : buildModel quadrilateral {} = .error (.unsupportedFace "floor" 4 3) := by
    decide +kernel
  have corner : buildModel overhanging { optimizeMeshes := false } =
      .error (.vertexOutOfRange "floor" 4 3) := by
    decide +kernel
  have dangles : SourceMesh.Dangles joining stray.meshes[0] 9 := by
    refine ⟨.inr ⟨rfl, ("hip", ⟨9, 1⟩), List.mem_singleton_self _, rfl⟩, ?_⟩
    decide
  refine ⟨⟨face, (exists_error_process rfl).1 ⟨_, _, _, face⟩⟩, ⟨corner,
    (exists_error_process rfl).2.1 rfl (by decide) ⟨_, _, _, corner⟩⟩, by decide +kernel,
    ⟨_, rfl, dangles⟩, ?_⟩
  rcases (@exists_error_process stray joining rfl).2.2 0 stray.meshes[0] 9 rfl dangles with
    drops | ⟨-, leads⟩ | failed
  · exact absurd drops.flat (by decide)
  · exact absurd leads not_leads_stray
  · exact failed

/-- Only flat normals are made. -/
def flattening : Settings where
  leftHanded := false
  normalMode := .flat
  disableTangents := true
  optimizeMaterials := false
  optimizeMeshes := false
  optimizeNodes := false

/-- References out of range are hidden by joining meshes, and by taking vertices apart. -/
theorem exists_hidden :
    (buildModel overhanging joining = .error (.vertexOutOfRange "floor" 4 3) ∧
      ∃ model, buildModel (overhanging.process joining) joining = .ok model) ∧
    buildModel stray flattening = .error (.vertexOutOfRange "skin" 9 3) ∧
      ∃ model, buildModel (stray.process flattening) flattening = .ok model := by
  have success (scene : Scene Single) (settings : Settings)
      (built : ((buildModel scene settings).toOption).isSome = true) :
      ∃ model, buildModel scene settings = .ok model := by
    cases result : buildModel scene settings with
    | error cause => simp [result, Except.toOption] at built
    | ok model => exact ⟨model, rfl⟩
  exact ⟨⟨by decide +kernel, success _ _ (by decide +kernel)⟩,
    by decide +kernel, success _ _ (by decide +kernel)⟩

end SceneBaker.Scene
