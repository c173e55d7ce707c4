import SceneBaker.Proofs.Build.Drawing
import SceneBaker.Proofs.Scene.Faces

/-! # What joined meshes draw

What is drawn of a corner is read off what its vertex holds. So a mesh that was appended to another
one is drawn behind it, and the meshes of a group draw the same one by one and in one, as long as 32
bits can count their vertices.
-/

set_option linter.dupNamespace false

namespace SceneBaker.Scene

open Number SceneBaker.Geometry Mesh Build

variable {α : Type}

/-! ## Corners and primitives -/

/-- A mesh with an entry of every attribute and few influences for each of its vertices, whose faces
and weights refer to these vertices. -/
structure SourceMesh.Drawable (mesh : SourceMesh α) : Prop extends mesh.Fitted where
  cornered : mesh.Cornered
  weighted : mesh.Weighted
  slotted : mesh.Slotted

namespace SourceMesh

theorem Drawable.sound {mesh : SourceMesh α} (drawable : mesh.Drawable) : mesh.Sound :=
  ⟨drawable.toFitted, drawable.cornered, drawable.weighted⟩

theorem SameKind.vertexFormat_eq {mesh other : SourceMesh Single} (same : mesh.SameKind other)
    (settings : Settings) : vertexFormat mesh settings = vertexFormat other settings := by
  rw [vertexFormat, vertexFormat, hasNormals, hasNormals, same.normals, same.uv0, same.uv1,
    same.colors, same.hasTangents, same.hasBones]

end SourceMesh

section

variable {mesh other : SourceMesh Single} {settings : Settings}

/-- Vertices that hold the same are described the same. -/
theorem describedCorner_eq {first second : SourceMesh Single} {vertex place : Nat}
    (same : first.corner vertex = second.corner place)
    (format : vertexFormat first settings = vertexFormat second settings) :
    describedCorner settings first vertex = describedCorner settings second place := by
  have entry {β : Type} (index : Nat) (values : Option (Array β)) (default : β) :
      entryAt index values default = (attributeAt values index).getD default := rfl
  have place (mesh : SourceMesh Single) (index : Nat) :
      mesh.position index = mesh.positions[index]?.getD 0 := rfl
  rw [SourceMesh.corner, SourceMesh.corner, Corner.mk.injEq] at same
  obtain ⟨position, normal, uv0, uv1, color, tangent, bitangent, influences⟩ := same
  rw [describedCorner, describedCorner, DrawnCorner.mk.injEq, format]
  refine ⟨?_, Multiset.coe_eq_coe.mpr ?_⟩
  · simp only [cornerVertex, entry, place, position, normal, uv0, uv1, color, tangent, bitangent,
      Option.bind_none]
  · split
    · exact ((Multiset.coe_eq_coe.mp influences).filter _).map _
    · exact .refl _

variable (one : mesh.Drawable) (two : other.Drawable) (same : mesh.SameKind other)
  (few : mesh.positions.size + other.positions.size ≤ 2 ^ 32)

include one two same few

theorem SourceMesh.Drawable.append : (mesh.append other).Drawable := by
  refine ⟨one.toFitted.append two.toFitted same, one.cornered.append two.cornered,
    one.weighted.append two.weighted, fun vertex inside => ?_⟩
  rw [SourceMesh.positions_append, Array.size_append] at inside
  rcases Nat.lt_or_ge vertex mesh.positions.size with early | late
  · rw [influencesAt_append_left two.weighted few early]
    exact one.slotted vertex early
  · obtain ⟨place, rfl⟩ := Nat.exists_eq_add_of_le late
    rw [(perm_influencesAt_append_right one.weighted two.weighted few place).length_eq]
    exact two.slotted place (by omega)

/-- The primitives of an appended mesh are drawn behind those that were there. -/
theorem describedPrimitives_append (scene : Scene Single) :
    describedPrimitives settings scene (mesh.append other) =
      describedPrimitives settings scene mesh ++ describedPrimitives settings scene other := by
  have format : vertexFormat (mesh.append other) settings = vertexFormat mesh settings :=
    (SourceMesh.sameKind_iff.mpr
      (SourceMesh.mergeKey_append (SourceMesh.sameKind_iff.mp same))).vertexFormat_eq settings
  have material : (mesh.append other).material = mesh.material := rfl
  have primitive : (mesh.append other).primitive = mesh.primitive := rfl
  rw [describedPrimitives, SourceMesh.faces_append, List.map_append, List.map_map, format, material,
    primitive]
  refine congr (congrArg _ ?_) ?_
  · refine List.map_congr_left fun face among => ?_
    rw [DrawnPrimitive.mk.injEq]
    refine ⟨rfl, rfl, rfl, List.map_congr_left fun corner member => ?_⟩
    have inside := one.cornered face among corner (mem_wound.mp member)
    exact describedCorner_eq
      (SourceMesh.corner_append_left one.toFitted two.weighted few inside) format
  · refine List.map_congr_left fun face among => ?_
    rw [Function.comp_apply, DrawnPrimitive.mk.injEq, same.material, same.primitive,
      same.vertexFormat_eq settings]
    refine ⟨rfl, rfl, rfl, ?_⟩
    rw [wound_map, List.map_map]
    refine List.map_congr_left fun corner member => ?_
    have inside := two.cornered face among corner (mem_wound.mp member)
    rw [Function.comp_apply, toNat_add_ofNat inside few]
    exact describedCorner_eq (SourceMesh.corner_append_right one.sound two.sound same few _)
      (format.trans (same.vertexFormat_eq settings))

end

/-! ## Groups -/

/-- A group that was joined into one draws what its members draw one by one. -/
theorem describedPrimitives_joined {scene : Scene Single} {group : List Nat} (settings : Settings)
    (filled : group ≠ []) (agree : Agree scene group)
    (each : ∀ index ∈ group, (scene.mesh index).Drawable)
    (few : (scene.joined group).positions.size ≤ 2 ^ 32) :
    (scene.joined group).Drawable ∧
      describedPrimitives settings scene (scene.joined group) =
        group.flatMap fun index => describedPrimitives settings scene (scene.mesh index) := by
  refine Scene.joined_induction_sound (P := fun group mesh =>
    (∀ index ∈ group, (scene.mesh index).Drawable) → mesh.Drawable ∧
      describedPrimitives settings scene mesh =
        group.flatMap fun index => describedPrimitives settings scene (scene.mesh index))
    filled agree (fun index member => (each index member).sound) few ?_ ?_ each
  · exact fun index each => ⟨each index (List.mem_singleton_self _), by simp⟩
  · intro front index _ _ _ same fits made each
    obtain ⟨drawable, described⟩ :=
      made fun other member => each other (List.mem_append_left _ member)
    have last := each index (by simp)
    refine ⟨drawable.append last same fits, ?_⟩
    rw [describedPrimitives_append drawable last same fits, described, List.flatMap_append,
      List.flatMap_singleton]

end SceneBaker.Scene
