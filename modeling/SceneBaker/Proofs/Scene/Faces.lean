import SceneBaker.Proofs.Scene.Groups
import SceneBaker.Proofs.Scene.Influences
import Mathlib.Data.Multiset.Basic

/-! # Faces

A face is what a mesh says about it: the material, the kind of primitive and the attributes that are
there, and for every corner what the attributes hold and which bones move it. A mesh that was
appended to another one has its faces behind the others, and so the meshes of a group have the same
faces one by one and in one, as long as 32 bits can count their vertices.
-/

set_option linter.dupNamespace false

namespace SceneBaker.Scene

open Number SceneBaker.Geometry Mesh

variable {α β : Type}

/-! ## Attributes -/

/-- An attribute of as many entries as there are vertices, where it is there. -/
def Fits (count : Nat) (values : Option (Array β)) : Prop := ∀ array ∈ values, array.size = count

/-- The entry of a vertex, where the attribute is there and has one. -/
def attributeAt (values : Option (Array β)) (vertex : Nat) : Option β := values.bind (·[vertex]?)

theorem fits_iff {count : Nat} {values : Option (Array β)} :
    Fits count values ↔ ∀ size ∈ values.map Array.size, size = count := by
  cases values <;> simp [Fits]

namespace Fits

variable {first second vertex : Nat} {values others : Option (Array β)}

theorem extended (one : Fits first values) (other : Fits second others)
    (same : values.isSome = others.isSome) :
    Fits (first + second) (SourceMesh.extended values others) := by
  intro array member
  match values, others, same with
  | none, none, _ => cases member
  | some values, some others, _ =>
    cases member
    rw [Array.size_append, one values rfl, other others rfl]

theorem attributeAt_extended_left (fits : Fits first values) (others : Option (Array β))
    (inside : vertex < first) :
    attributeAt (SourceMesh.extended values others) vertex = attributeAt values vertex := by
  cases values with
  | none => rfl
  | some values =>
    cases others with
    | none => rfl
    | some others =>
      have within : vertex < values.size := by rwa [fits values rfl]
      exact Array.getElem?_append_left within

theorem attributeAt_extended_right (fits : Fits first values)
    (same : values.isSome = others.isSome) (vertex : Nat) :
    attributeAt (SourceMesh.extended values others) (first + vertex) =
      attributeAt others vertex := by
  match values, others, same with
  | none, none, _ => rfl
  | some values, some others, _ =>
    obtain rfl := fits values rfl
    simp only [attributeAt, SourceMesh.extended, Option.bind_some, Array.getElem?_append_right
      (Nat.le_add_right ..), Nat.add_sub_cancel_left]

end Fits

/-- How many entries each attribute has. -/
def SourceMesh.attributeSizes (mesh : SourceMesh α) : List (Option Nat) :=
  [mesh.normals.map Array.size, mesh.uv0.map Array.size, mesh.uv1.map Array.size,
    mesh.colors.map Array.size, mesh.tangents.map Array.size, mesh.bitangents.map Array.size]

/-- Every attribute of a mesh has an entry for every vertex, and tangents come with bitangents. -/
structure SourceMesh.Fitted (mesh : SourceMesh α) : Prop where
  normals : Fits mesh.positions.size mesh.normals
  uv0 : Fits mesh.positions.size mesh.uv0
  uv1 : Fits mesh.positions.size mesh.uv1
  colors : Fits mesh.positions.size mesh.colors
  tangents : Fits mesh.positions.size mesh.tangents
  bitangents : Fits mesh.positions.size mesh.bitangents
  paired : mesh.tangents.isSome = mesh.bitangents.isSome

/-- What two meshes with one key have in common. -/
structure SourceMesh.SameKind (mesh other : SourceMesh α) : Prop where
  material : mesh.material = other.material
  primitive : mesh.primitive = other.primitive
  normals : mesh.normals.isSome = other.normals.isSome
  uv0 : mesh.uv0.isSome = other.uv0.isSome
  uv1 : mesh.uv1.isSome = other.uv1.isSome
  colors : mesh.colors.isSome = other.colors.isSome
  hasTangents : mesh.hasTangents = other.hasTangents
  hasBones : mesh.hasBones = other.hasBones

namespace SourceMesh

theorem sameKind_iff {mesh other : SourceMesh α} :
    mesh.SameKind other ↔ mesh.mergeKey = other.mergeKey := by
  simp only [mergeKey, MergeKey.mk.injEq, List.cons.injEq, and_true]
  constructor
  · rintro ⟨material, primitive, normals, uv0, uv1, colors, tangents, bones⟩
    exact ⟨material, primitive, normals, uv0, uv1, colors, tangents, bones⟩
  · rintro ⟨material, primitive, normals, uv0, uv1, colors, tangents, bones⟩
    exact ⟨material, primitive, normals, uv0, uv1, colors, tangents, bones⟩

namespace SameKind

variable {mesh other : SourceMesh α}

theorem tangents (same : mesh.SameKind other) (one : mesh.Fitted) (two : other.Fitted) :
    mesh.tangents.isSome = other.tangents.isSome := by
  have both := same.hasTangents
  rwa [SourceMesh.hasTangents, SourceMesh.hasTangents, ← one.paired, ← two.paired, Bool.and_self,
    Bool.and_self] at both

theorem bitangents (same : mesh.SameKind other) (one : mesh.Fitted) (two : other.Fitted) :
    mesh.bitangents.isSome = other.bitangents.isSome := by
  rw [← one.paired, ← two.paired, same.tangents one two]

end SameKind

theorem Fitted.append {mesh other : SourceMesh α} (one : mesh.Fitted) (two : other.Fitted)
    (same : mesh.SameKind other) : (mesh.append other).Fitted := by
  have size : (mesh.append other).positions.size = mesh.positions.size + other.positions.size := by
    rw [positions_append, Array.size_append]
  constructor
  case normals => exact size ▸ one.normals.extended two.normals same.normals
  case uv0 => exact size ▸ one.uv0.extended two.uv0 same.uv0
  case uv1 => exact size ▸ one.uv1.extended two.uv1 same.uv1
  case colors => exact size ▸ one.colors.extended two.colors same.colors
  case tangents => exact size ▸ one.tangents.extended two.tangents (same.tangents one two)
  case bitangents => exact size ▸ one.bitangents.extended two.bitangents (same.bitangents one two)
  case paired =>
    rw [tangents_append, bitangents_append, isSome_extended, isSome_extended, one.paired]

end SourceMesh

/-! ## Corners -/

/-- All that is stored for a vertex. -/
structure Corner (α : Type) where
  position : Option (Vec3 α)
  normal : Option (Vec3 α)
  uv0 : Option (Vec2 α)
  uv1 : Option (Vec2 α)
  color : Option (Vec4 α)
  tangent : Option (Vec3 α)
  bitangent : Option (Vec3 α)
  /-- The bones that move it, by name, with their weights. -/
  influences : Multiset (String × α)

/-- What is drawn of a mesh at once. -/
structure Face (α : Type) where
  /-- Material, kind of primitive and the attributes that are there. -/
  key : MergeKey
  corners : List (Corner α)

namespace SourceMesh

def corner (mesh : SourceMesh α) (vertex : Nat) : Corner α where
  position := mesh.positions[vertex]?
  normal := attributeAt mesh.normals vertex
  uv0 := attributeAt mesh.uv0 vertex
  uv1 := attributeAt mesh.uv1 vertex
  color := attributeAt mesh.colors vertex
  tangent := attributeAt mesh.tangents vertex
  bitangent := attributeAt mesh.bitangents vertex
  influences := influencesAt mesh.bones vertex

/-- A face with what its vertices hold. -/
def face (mesh : SourceMesh α) (vertices : List UInt32) : Face α where
  key := mesh.mergeKey
  corners := vertices.map fun vertex => mesh.corner vertex.toNat

/-- All faces of a mesh. -/
def drawn (mesh : SourceMesh α) : List (Face α) := mesh.faces.map mesh.face

/-- A mesh with an entry of every attribute for each of its vertices, whose faces and weights refer
to these vertices. -/
structure Sound (mesh : SourceMesh α) : Prop extends mesh.Fitted where
  cornered : mesh.Cornered
  weighted : mesh.Weighted

section

variable {mesh other : SourceMesh α} {vertex : Nat}

theorem corner_append_left (fitted : mesh.Fitted) (weighted : other.Weighted)
    (few : mesh.positions.size + other.positions.size ≤ 2 ^ 32)
    (inside : vertex < mesh.positions.size) :
    (mesh.append other).corner vertex = mesh.corner vertex := by
  rw [corner, corner, Corner.mk.injEq]
  refine ⟨?_, fitted.normals.attributeAt_extended_left _ inside,
    fitted.uv0.attributeAt_extended_left _ inside, fitted.uv1.attributeAt_extended_left _ inside,
    fitted.colors.attributeAt_extended_left _ inside,
    fitted.tangents.attributeAt_extended_left _ inside,
    fitted.bitangents.attributeAt_extended_left _ inside, ?_⟩
  · rw [positions_append, Array.getElem?_append_left inside]
  · rw [influencesAt_append_left weighted few inside]

variable (one : mesh.Sound) (two : other.Sound) (same : mesh.SameKind other)
  (few : mesh.positions.size + other.positions.size ≤ 2 ^ 32)

include one two same

theorem Sound.append : (mesh.append other).Sound :=
  ⟨one.toFitted.append two.toFitted same, one.cornered.append two.cornered,
    one.weighted.append two.weighted⟩

include few

theorem corner_append_right (vertex : Nat) :
    (mesh.append other).corner (mesh.positions.size + vertex) = other.corner vertex := by
  have tangents := same.tangents one.toFitted two.toFitted
  have bitangents := same.bitangents one.toFitted two.toFitted
  rw [corner, corner, Corner.mk.injEq]
  refine ⟨?_, one.normals.attributeAt_extended_right same.normals _,
    one.uv0.attributeAt_extended_right same.uv0 _, one.uv1.attributeAt_extended_right same.uv1 _,
    one.colors.attributeAt_extended_right same.colors _,
    one.tangents.attributeAt_extended_right tangents _,
    one.bitangents.attributeAt_extended_right bitangents _, ?_⟩
  · rw [positions_append, Array.getElem?_append_right (Nat.le_add_right ..),
      Nat.add_sub_cancel_left]
  · exact Multiset.coe_eq_coe.mpr
      (perm_influencesAt_append_right one.weighted two.weighted few vertex)

/-- The faces of an appended mesh are drawn behind those that were there. -/
theorem drawn_append : (mesh.append other).drawn = mesh.drawn ++ other.drawn := by
  have key := mergeKey_append (sameKind_iff.mp same)
  rw [drawn, faces_append, List.map_append, List.map_map]
  refine congr (congrArg _ ?_) ?_
  · refine List.map_congr_left fun vertices member => ?_
    rw [face, face, key, Face.mk.injEq]
    refine ⟨rfl, List.map_congr_left fun vertex among => ?_⟩
    exact corner_append_left one.toFitted two.weighted few (one.cornered vertices member vertex among)
  · refine List.map_congr_left fun vertices member => ?_
    rw [Function.comp_apply, face, face, key, sameKind_iff.mp same, Face.mk.injEq, List.map_map]
    refine ⟨rfl, List.map_congr_left fun vertex among => ?_⟩
    rw [Function.comp_apply, toNat_add_ofNat (two.cornered vertices member vertex among) few]
    exact corner_append_right one two same few _

end

end SourceMesh

/-! ## Groups -/

/-- A group of sound meshes is made member by member, and there is room for every vertex. -/
theorem Scene.joined_induction_sound {scene : Scene α} {P : List Nat → SourceMesh α → Prop}
    {group : List Nat} (filled : group ≠ []) (agree : Agree scene group)
    (each : ∀ index ∈ group, (scene.mesh index).Sound)
    (few : (scene.joined group).positions.size ≤ 2 ^ 32)
    (single : ∀ index, P [index] (scene.mesh index))
    (step : ∀ front index, front ≠ [] → (scene.joined front).Sound → (scene.mesh index).Sound →
      (scene.joined front).SameKind (scene.mesh index) →
      (scene.joined front).positions.size + (scene.mesh index).positions.size ≤ 2 ^ 32 →
      P front (scene.joined front) →
      P (front ++ [index]) ((scene.joined front).append (scene.mesh index))) :
    P group (scene.joined group) := by
  suffices both : (scene.joined group).Sound ∧ P group (scene.joined group) from both.2
  refine joined_induction (P := fun group mesh =>
    (∀ index ∈ group, (scene.mesh index).Sound) → mesh.positions.size ≤ 2 ^ 32 →
      mesh.Sound ∧ P group mesh) filled agree ?_ ?_ each few
  · exact fun index each _ => ⟨each index (List.mem_singleton_self _), single index⟩
  · intro front index started key made each few
    rw [SourceMesh.positions_append, Array.size_append] at few
    obtain ⟨sound, holds⟩ :=
      made (fun other member => each other (List.mem_append_left _ member)) (by omega)
    have last := each index (by simp)
    have same := SourceMesh.sameKind_iff.mpr key
    exact ⟨sound.append last same, step front index started sound last same few holds⟩

/-- A group that was joined into one has the faces that its members have one by one. -/
theorem drawn_joined {scene : Scene α} {group : List Nat} (filled : group ≠ [])
    (agree : Agree scene group) (each : ∀ index ∈ group, (scene.mesh index).Sound)
    (few : (scene.joined group).positions.size ≤ 2 ^ 32) :
    (scene.joined group).drawn = group.flatMap fun index => (scene.mesh index).drawn := by
  refine Scene.joined_induction_sound (P := fun group mesh =>
    mesh.drawn = group.flatMap fun index => (scene.mesh index).drawn)
    filled agree each few (by simp) ?_
  intro front index _ one two same fits faces
  rw [SourceMesh.drawn_append one two same fits, faces, List.flatMap_append,
    List.flatMap_singleton]

end SceneBaker.Scene
