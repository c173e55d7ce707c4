import SceneBaker.Proofs.Scene.Append
import SceneBaker.Scene.Processing

/-! # Meshes under processing

Most steps treat every mesh alone and leave alone what building depends on: the vertices that faces
and weights refer to, and the names of bones. Flat normals are the exception. They take the vertices
apart and build the faces anew, but only in a mesh whose faces are all triangles of its vertices.
-/

set_option linter.dupNamespace false

namespace SceneBaker.Scene

open Number SceneBaker.Geometry Mesh

variable {α : Type}

namespace SourceMesh

/-! ## Meshes of the same shape -/

/-- A bone without what a change of space does to it. -/
def bareBone (bone : SourceBone α) : String × List (VertexWeight α) := (bone.name, bone.weights)

/-- Two meshes with as many vertices, the same bones on them, and the same faces up to direction.
Normals may be new. -/
structure Alike (before after : SourceMesh α) : Prop where
  primitive : after.primitive = before.primitive
  size : after.positions.size = before.positions.size
  faces : after.faces = before.faces ∨ after.faces = before.faces.map List.reverse
  bones : after.bones.map bareBone = before.bones.map bareBone
  normals : after.normals = none → before.normals = none

namespace Alike

variable {before after : SourceMesh α}

protected theorem refl (mesh : SourceMesh α) : Alike mesh mesh := ⟨rfl, rfl, .inl rfl, rfl, id⟩

theorem trans {middle : SourceMesh α} (first : Alike before middle) (second : Alike middle after) :
    Alike before after where
  primitive := second.primitive.trans first.primitive
  size := second.size.trans first.size
  faces := by
    rcases first.faces with one | one <;> rcases second.faces with two | two <;>
      simp [one, two]
  bones := second.bones.trans first.bones
  normals := first.normals ∘ second.normals

theorem names_eq (alike : Alike before after) :
    after.bones.map (·.name) = before.bones.map (·.name) := by
  simpa [bareBone, Function.comp_def] using congrArg (List.map Prod.fst) alike.bones

theorem faced_iff (alike : Alike before after) : after.Faced ↔ before.Faced := by
  rw [Faced, Faced, alike.primitive]
  rcases alike.faces with same | turned
  · rw [same]
  · simp only [turned, List.forall_mem_map, List.length_reverse]

theorem cornered_iff (alike : Alike before after) : after.Cornered ↔ before.Cornered := by
  rw [Cornered, Cornered, alike.size]
  rcases alike.faces with same | turned
  · rw [same]
  · simp only [turned, List.forall_mem_map, List.mem_reverse]

theorem weightsOf_eq (alike : Alike before after) :
    weightsOf after.bones = weightsOf before.bones := by
  have bare (bones : List (SourceBone α)) : weightsOf bones =
      (bones.map bareBone).flatMap fun bone => bone.2.map (bone.1, ·) := by
    rw [List.flatMap_map]
    rfl
  rw [bare, bare, alike.bones]

theorem weighted_iff (alike : Alike before after) : after.Weighted ↔ before.Weighted := by
  rw [SourceMesh.weighted_iff, SourceMesh.weighted_iff, alike.weightsOf_eq, alike.size]

end Alike

/-- A mesh that was taken apart: its faces were valid, its new faces and weights are, and its bones
have their names. -/
structure Rebuilt (before after : SourceMesh α) : Prop where
  beforeFaced : before.Faced
  beforeCornered : before.Cornered
  faced : after.Faced
  cornered : after.Cornered
  weighted : after.Weighted
  names : after.bones.map (·.name) = before.bones.map (·.name)

/-- A mesh after a step that treats it alone. -/
def Reshaped (before after : SourceMesh α) : Prop := Alike before after ∨ Rebuilt before after

namespace Reshaped

variable {before after : SourceMesh α} {settings : Settings}

theorem names_eq (reshaped : Reshaped before after) :
    after.bones.map (·.name) = before.bones.map (·.name) := by
  rcases reshaped with alike | rebuilt
  · exact alike.names_eq
  · exact rebuilt.names

theorem faced_iff (reshaped : Reshaped before after) : after.Faced ↔ before.Faced := by
  rcases reshaped with alike | rebuilt
  · exact alike.faced_iff
  · exact iff_of_true rebuilt.faced rebuilt.beforeFaced

theorem cornered_iff (reshaped : Reshaped before after) : after.Cornered ↔ before.Cornered := by
  rcases reshaped with alike | rebuilt
  · exact alike.cornered_iff
  · exact iff_of_true rebuilt.cornered rebuilt.beforeCornered

theorem weighted (reshaped : Reshaped before after) (holds : before.Weighted) : after.Weighted := by
  rcases reshaped with alike | rebuilt
  · exact alike.weighted_iff.mpr holds
  · exact rebuilt.weighted

theorem buildable (reshaped : Reshaped before after) (holds : before.Buildable settings) :
    after.Buildable settings :=
  ⟨reshaped.faced_iff.mpr holds.faced, reshaped.cornered_iff.mpr holds.cornered,
    fun enabled => reshaped.weighted (holds.weighted enabled)⟩

theorem buildableIn {format other : VertexFormat} {skeleton : Build.Skeleton}
    (reshaped : Reshaped before after) (holds : before.BuildableIn format skeleton)
    (bones : other.bones = format.bones) : after.BuildableIn other skeleton := by
  refine ⟨reshaped.faced_iff.mpr holds.faced, reshaped.cornered_iff.mpr holds.cornered,
    fun stored => ?_, fun stored => reshaped.weighted (holds.weighted (bones ▸ stored))⟩
  have names : ∀ name ∈ before.bones.map (·.name), name ∈ skeleton.names :=
    List.forall_mem_map.mpr (holds.named (bones ▸ stored))
  rw [← reshaped.names_eq] at names
  exact List.forall_mem_map.mp names

end Reshaped

/-! ## Flat normals -/

variable {mesh : SourceMesh Single}

theorem isSome_triangle?_iff {mesh : SourceMesh α} {face : List UInt32} :
    (mesh.triangle? face).isSome = true ↔
      face.length = 3 ∧ ∀ corner ∈ face, corner.toNat < mesh.positions.size := by
  unfold triangle?
  split
  case h_1 a b c => simp
  case h_2 other =>
    refine iff_of_false Bool.false_ne_true fun fits => ?_
    obtain ⟨a, b, c, rfl⟩ := List.length_eq_three.mp fits.1
    exact other a b c rfl

/-- A mesh that flat normals take apart: triangles of its vertices, and no normals. -/
def Flattens (mesh : SourceMesh α) : Prop := mesh.lacksNormals = true ∧ mesh.allTriangles = true

theorem flattens_iff {mesh : SourceMesh α} : mesh.Flattens ↔
    mesh.normals = none ∧ mesh.primitive = .triangles ∧ mesh.Faced ∧ mesh.Cornered := by
  rw [Flattens, lacksNormals, allTriangles, Bool.and_eq_true, Option.isNone_iff_eq_none, beq_iff_eq,
    List.all_eq_true, and_assoc]
  refine and_congr_right fun _ => and_congr_right fun triangles => ?_
  have corners : mesh.primitive.corners = 3 := by rw [triangles]; rfl
  simp only [isSome_triangle?_iff, Faced, Cornered, corners, ← forall₂_and]

theorem Alike.flattens {before after : SourceMesh α} (alike : Alike before after)
    (flat : after.Flattens) : before.Flattens := by
  rw [flattens_iff] at flat ⊢
  obtain ⟨none, triangles, faced, cornered⟩ := flat
  exact ⟨alike.normals none, alike.primitive ▸ triangles, alike.faced_iff.mp faced,
    alike.cornered_iff.mp cornered⟩

/-- The copies of a vertex are those that have it as their source, in their order. -/
theorem getElem?_copies (count : Nat) (sources : List Nat) (vertex : Nat) :
    (copies count sources)[vertex]? = if vertex < count then
      some ((sources.zipIdx.filter (·.1 = vertex)).map fun entry => UInt32.ofNat entry.2)
      else none := by
  have folded (entries : List (Nat × Nat)) (start : Array (List UInt32)) :
      (entries.foldl (fun copies entry =>
        copies.modify entry.1 (· ++ [UInt32.ofNat entry.2])) start)[vertex]? =
      start[vertex]?.map
        (· ++ (entries.filter (·.1 = vertex)).map fun entry => UInt32.ofNat entry.2) := by
    induction entries generalizing start with
    | nil => simp
    | cons entry entries ih =>
      rw [List.foldl_cons, ih, Array.getElem?_modify]
      by_cases here : entry.1 = vertex <;> simp [here, Function.comp_def]
  refine (folded sources.zipIdx (Array.replicate count [])).trans ?_
  by_cases inside : vertex < count <;> simp [inside]

/-- Copies of a vertex stand among all copies. -/
theorem mem_copies {count : Nat} {sources : List Nat} {vertex : Nat} {copy : UInt32}
    (member : copy ∈ (copies count sources)[vertex]?.getD []) : copy.toNat < sources.length := by
  rw [getElem?_copies] at member
  split at member
  case isTrue =>
    obtain ⟨entry, among, rfl⟩ := List.mem_map.mp member
    have below : entry.2 < sources.length := by
      simpa using List.snd_lt_of_mem_zipIdx (List.mem_of_mem_filter among)
    exact (UInt32.toNat_ofNat' ▸ Nat.mod_le ..).trans_lt below
  case isFalse => cases member

/-- Flat normals are for meshes of valid triangles, which they leave valid. -/
theorem reshaped_withFlatNormals (lacks : mesh.lacksNormals = true) :
    Reshaped mesh mesh.withFlatNormals := by
  rw [withFlatNormals]
  split
  case isFalse => exact .inl (.refl mesh)
  case isTrue valid =>
    obtain ⟨-, primitive, faced, cornered⟩ := flattens_iff.mp ⟨lacks, valid⟩
    have size : (mesh.triangles.flatMap fun corners => [corners.1, corners.2.1, corners.2.2]).length =
        3 * mesh.triangles.length := by
      rw [List.length_flatMap]
      simp [Nat.mul_comm]
    refine .inr ⟨faced, cornered, ?_, ?_, ?_, ?_⟩
    · intro face member
      change face.length = mesh.primitive.corners
      obtain ⟨number, -, rfl⟩ := List.mem_map.mp member
      rw [primitive]
      rfl
    · intro face member corner among
      change corner.toNat < (List.map _ (mesh.triangles.flatMap fun corners =>
        [corners.1, corners.2.1, corners.2.2])).toArray.size
      rw [List.size_toArray, List.length_map, size]
      obtain ⟨number, below, rfl⟩ := List.mem_map.mp member
      rw [List.mem_range] at below
      simp only [List.mem_cons, List.not_mem_nil, or_false] at among
      have small (vertex : Nat) (inside : vertex < 3 * mesh.triangles.length) :
          (UInt32.ofNat vertex).toNat < 3 * mesh.triangles.length :=
        (UInt32.toNat_ofNat' ▸ Nat.mod_le ..).trans_lt inside
      rcases among with rfl | rfl | rfl <;> exact small _ (by omega)
    · intro bone member weight among
      change weight.vertex.toNat < (List.map _ _).toArray.size
      rw [List.size_toArray, List.length_map]
      obtain ⟨old, -, rfl⟩ := List.mem_map.mp member
      obtain ⟨source, -, copied⟩ := List.mem_flatMap.mp among
      obtain ⟨copy, made, rfl⟩ := List.mem_map.mp copied
      exact mem_copies made
    · change (List.map _ mesh.bones).map _ = _
      rw [List.map_map]
      rfl

/-- Normals of any kind. -/
theorem reshaped_withNormals (mode : NormalMode) (mesh : SourceMesh Single) :
    Reshaped mesh (mesh.withNormals mode) := by
  rw [withNormals.eq_def]
  split
  case isFalse => exact .inl (.refl mesh)
  case isTrue lacks =>
    cases mode with
    | none => exact .inl (.refl mesh)
    | flat => exact reshaped_withFlatNormals lacks
    | smooth => exact .inl ⟨rfl, rfl, .inl rfl, rfl, nofun⟩

theorem alike_withNormals {mode : NormalMode} (whole : mode = .flat → ¬mesh.Flattens) :
    Alike mesh (mesh.withNormals mode) := by
  rw [withNormals.eq_def]
  split
  case isFalse => exact .refl mesh
  case isTrue lacks =>
    cases mode with
    | none => exact .refl mesh
    | flat =>
      have other : ¬mesh.allTriangles = true := fun valid => whole rfl ⟨lacks, valid⟩
      dsimp only
      rw [withFlatNormals, if_neg other]
      exact .refl mesh
    | smooth => exact ⟨rfl, rfl, .inl rfl, rfl, nofun⟩

theorem alike_withTangents (mesh : SourceMesh Single) : Alike mesh mesh.withTangents := by
  rw [withTangents]
  split
  · exact ⟨rfl, rfl, .inl rfl, rfl, id⟩
  · exact .refl mesh

end SourceMesh

/-! ## Steps -/

namespace Step

/-- Steps that treat every mesh alone. -/
def Meshwise : Step → Prop
  | mirror | scale _ | normals _ | tangents | mergeMaterials => True
  | flatten | mergeMeshes | pruneNodes => False

/-- Only flat normals take meshes apart. -/
theorem exists_alike {step : Step} (meshwise : step.Meshwise) (scene : Scene Single) :
    ∃ f, (step.apply scene).meshes = scene.meshes.map f ∧
      ∀ mesh, (step = normals .flat → ¬SourceMesh.Flattens mesh) →
        SourceMesh.Alike mesh (f mesh) := by
  cases step with
  | flatten | mergeMeshes | pruneNodes => exact meshwise.elim
  | mirror =>
    refine ⟨_, rfl, fun mesh _ => ⟨rfl, Array.size_map .., .inr rfl, ?_, ?_⟩⟩
    · exact List.map_map ..
    · exact Option.map_eq_none_iff.mp
  | scale factor =>
    refine ⟨_, rfl, fun mesh _ => ⟨rfl, Array.size_map .., .inl rfl, ?_, id⟩⟩
    exact List.map_map ..
  | normals mode =>
    refine ⟨_, rfl, fun mesh whole => SourceMesh.alike_withNormals fun flat => whole ?_⟩
    rw [flat]
  | tangents => exact ⟨_, rfl, fun mesh _ => mesh.alike_withTangents⟩
  | mergeMaterials => exact ⟨_, rfl, fun mesh _ => ⟨rfl, rfl, .inl rfl, rfl, id⟩⟩

theorem exists_reshaped {step : Step} (meshwise : step.Meshwise) (scene : Scene Single) :
    ∃ f, (step.apply scene).meshes = scene.meshes.map f ∧
      ∀ mesh, SourceMesh.Reshaped mesh (f mesh) := by
  by_cases flat : step = normals .flat
  · subst flat
    exact ⟨_, rfl, SourceMesh.reshaped_withNormals .flat⟩
  · obtain ⟨f, meshes, alike⟩ := exists_alike meshwise scene
    exact ⟨f, meshes, fun mesh => .inl (alike mesh fun same => absurd same flat)⟩

variable {settings : Settings}

theorem flatten_mem_ofSettings : flatten ∈ ofSettings settings ↔ settings.preTransform = true := by
  simp [ofSettings]

theorem of_normals_mem_ofSettings {mode : NormalMode} (member : normals mode ∈ ofSettings settings) :
    settings.disableNormals = false ∧ mode = settings.normalMode := by
  simp [ofSettings] at member
  tauto

end Step

end SceneBaker.Scene
