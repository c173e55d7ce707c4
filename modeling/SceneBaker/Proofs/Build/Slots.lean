import SceneBaker.Proofs.Build.Contract

/-! # Filled slots

A vertex has slots for four influences. The first four of its source vertex go into them, in the
order in which the bones of the mesh name them; what has no slot is lost, and a slot with the weight
zero counts as empty.
-/

namespace SceneBaker.Build

open Number SceneBaker.Geometry Mesh Model Scene

/-- The name of the bone with an index. -/
def Skeleton.name? (skeleton : Skeleton) (index : UInt32) : Option String :=
  (skeleton.bones.find? (·.index == index)).map (·.name)

/-- A vertex whose bone slots are empty. -/
def slotless (vertex : Vertex) : Vertex :=
  { vertex with boneIndices := ⟨0, 0, 0, 0⟩, boneWeights := ⟨0, 0, 0, 0⟩ }

/-- The influences in the slots of a vertex, by the names of bones. -/
def stored (skeleton : Skeleton) (vertex : Vertex) : List (Option String × Single) :=
  (vertex.influences.filter (·.2 ≠ 0)).map fun influence =>
    (skeleton.name? influence.1, influence.2)

/-- What is left of some influences: the first four, without those of weight zero. -/
def survivors (influences : List (String × Single)) : List (Option String × Single) :=
  ((influences.take maxInfluences).filter (·.2 ≠ 0)).map fun influence =>
    (some influence.1, influence.2)

/-- As long as there are slots for all influences, their order does not matter. -/
theorem perm_survivors {influences others : List (String × Single)}
    (few : influences.length ≤ maxInfluences) (same : others.Perm influences) :
    (survivors others).Perm (survivors influences) := by
  rw [survivors, survivors, List.take_of_length_le few,
    List.take_of_length_le (same.length_eq.trans_le few)]
  exact (same.filter _).map _

variable {scene : Scene Single} {settings : Settings} {source : SourceMesh Single}
  {influences : Option (Array Influences)} {vertex : Nat}

/-- A name is found behind the index that it has in the skeleton. -/
theorem Skeleton.name?_indexed {skeleton : Skeleton} {bones : List (SourceBone Single)}
    (collects : skeleton.Collects bones) (few : skeleton.size ≤ 2 ^ 32)
    {influence : String × Single} (known : influence.1 ∈ skeleton.names) :
    skeleton.name? (skeleton.indexed influence).1 = some influence.1 := by
  obtain ⟨bone, member, named⟩ := List.mem_map.mp known
  have lookup := collects.lookup_of_mem member
  rw [named] at lookup
  rw [indexed, lookup, Option.getD_some, name?]
  have found : (skeleton.bones.find? (·.index == bone.index)).isSome = true :=
    List.find?_isSome.mpr ⟨bone, member, beq_self_eq_true _⟩
  obtain ⟨other, first⟩ := Option.isSome_iff_exists.mp found
  have index : other.index = bone.index := by simpa using List.find?_some first
  have again := collects.lookup_of_mem (List.mem_of_find?_eq_some first)
  rw [index] at again
  rw [first, Option.map_some, collects.lookup_inj few again lookup]

/-- Filled slots are the influences, as long as there are no more than slots. -/
theorem filter_filled {own : Influences} (few : own.length ≤ maxInfluences) :
    own.filled.filter (·.2 ≠ 0) = own.filter (·.2 ≠ 0) := by
  have all := Influences.filled_take own
  rw [List.take_of_length_le few, List.take_append, List.take_of_length_le few] at all
  rw [all, List.filter_append, List.take_replicate, List.filter_replicate_of_neg (by simp),
    List.append_nil]

/-- A built corner stores the first influences of its source vertex. -/
theorem stored_cornerVertex
    (collected : Collected source (vertexFormat source settings) (Skeleton.collect scene settings)
      influences) (listed : source ∈ scene.meshes)
    (few : (Skeleton.collect scene settings).size ≤ 2 ^ 32)
    (inside : vertex < source.positions.size) :
    stored (Skeleton.collect scene settings) (cornerVertex source (vertexFormat source settings)
        influences settings vertex (source.position vertex)) =
      if (vertexFormat source settings).bones then survivors (influencesAt source.bones vertex)
      else [] := by
  have slots (own : Influences) (held : (influences.bind (·[vertex]?)).getD [] = own)
      (bound : own.length ≤ maxInfluences) :
      (cornerVertex source (vertexFormat source settings) influences settings vertex
        (source.position vertex)).influences.filter (·.2 ≠ 0) = own.filter (·.2 ≠ 0) := by
    rw [← filter_filled bound, ← held]
    rfl
  cases bones : (vertexFormat source settings).bones with
  | false =>
    rw [stored, slots [] (by rw [collected.boneless bones]; rfl) (Nat.zero_le _)]
    rfl
  | true =>
    obtain ⟨array, rfl, holds⟩ := collected.held bones
    have held : ((some array).bind (·[vertex]?)).getD [] =
        ((influencesAt source.bones vertex).take maxInfluences).map
          (Skeleton.collect scene settings).indexed := by
      rw [Option.bind_some, holds.2 vertex inside, Option.getD_some, List.map_take]
    have bound : (((influencesAt source.bones vertex).take maxInfluences).map
        (Skeleton.collect scene settings).indexed).length ≤ maxInfluences := by
      rw [List.length_map]
      exact List.length_take_le ..
    rw [stored, slots _ held bound, if_pos rfl, survivors, List.filter_map, List.map_map]
    refine List.map_congr_left fun influence member => ?_
    have among := List.mem_of_mem_take (List.mem_of_mem_filter member)
    rw [influencesAt, List.mem_flatMap] at among
    obtain ⟨bone, used, moved⟩ := among
    obtain ⟨weight, -, rfl⟩ := List.mem_map.mp moved
    have known := known_of_mem listed (bones_vertexFormat.mp bones).2 used
    have collects := Skeleton.collects_collect scene settings
    exact Prod.ext (Skeleton.name?_indexed collects few known) rfl

/-! ## Corners of built meshes -/

/-- The source vertices of a mesh, in the order in which its corners are built. -/
def corners {α : Type} (settings : Settings) (source : SourceMesh α) : List Nat :=
  source.faces.flatMap fun face => (wound settings face).map (·.toNat)

theorem lt_size_of_mem_corners {α : Type} {source : SourceMesh α} (cornered : source.Cornered)
    (member : vertex ∈ corners settings source) : vertex < source.positions.size := by
  obtain ⟨face, among, listed⟩ := List.mem_flatMap.mp member
  obtain ⟨corner, here, rfl⟩ := List.mem_map.mp listed
  exact cornered face among corner (mem_wound.mp here)

/-- A mesh with bones in use is built corner by corner. What is lost of a source vertex are the
influences behind the first four. -/
theorem exists_buildMesh_eq_ok (listed : source ∈ scene.meshes)
    (few : (Skeleton.collect scene settings).size ≤ 2 ^ 32) (buildable : source.Buildable settings)
    (enabled : settings.disableBones = false) : ∃ (mesh : Mesh.Mesh) (vertexAt : Nat → Vertex),
      buildMesh source (vertexFormat source settings) (Skeleton.collect scene settings) settings =
        .ok mesh ∧ mesh.vertices = (corners settings source).map vertexAt ∧
      ∀ vertex < source.positions.size,
        slotless (vertexAt vertex) = cornerVertex source (vertexFormat source settings) none settings
          vertex (source.position vertex) ∧
        stored (Skeleton.collect scene settings) (vertexAt vertex) =
          survivors (influencesAt source.bones vertex) := by
  obtain ⟨mesh, success⟩ := (exists_buildMesh_iff listed).mpr buildable
  have outcome := buildsTo_buildMesh source (vertexFormat source settings)
    (Skeleton.collect scene settings) settings
  rw [success] at outcome
  cases outcome with
  | built influences collected =>
    refine ⟨_, fun vertex => cornerVertex source (vertexFormat source settings) influences settings
      vertex (source.position vertex), success, ?_, fun vertex inside => ⟨rfl, ?_⟩⟩
    · rw [drawnMesh, corners, List.map_flatMap, ← List.flatMap_def]
      simp only [List.map_map]
      rfl
    · rw [stored_cornerVertex collected listed few inside]
      split
      case isTrue => rfl
      case isFalse bare =>
        have none : source.bones = [] := by
          by_contra some
          exact bare (bones_vertexFormat.mpr ⟨some, enabled⟩)
        rw [none]
        rfl

end SceneBaker.Build
