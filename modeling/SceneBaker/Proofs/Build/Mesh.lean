import SceneBaker.Build.Mesh
import SceneBaker.Proofs.Mesh.Recovery
import SceneBaker.Proofs.Steps

/-! # Built meshes

A vertex of a built mesh holds nothing outside the mesh's format, and the bones that move it are bones
of the skeleton; slots that no bone fills have weight zero. Every face has a corner, so a mesh has
vertices, and with them bounds, exactly if its source has faces.
-/

set_option linter.dupNamespace false

namespace SceneBaker.Build

open Number SceneBaker.Geometry Mesh Scene Steps

variable {source : SourceMesh Single} {skeleton : Skeleton} {format : VertexFormat}
  {settings : Settings} {influences : Option (Array Influences)}

/-! ## Influences -/

/-- Every influence is that of a bone. -/
def Influences.Of (influences : Influences) (skeleton : Skeleton) : Prop :=
  ∀ influence ∈ influences, ∃ bone ∈ skeleton.bones, bone.index = influence.1

theorem Influences.Of.add {influences : Influences} (known : influences.Of skeleton)
    {influence : UInt32 × Single} (bone : ∃ bone ∈ skeleton.bones, bone.index = influence.1) :
    (influences.add influence).Of skeleton := by
  rw [Influences.add]
  split
  case isTrue =>
    intro other member
    rcases List.mem_append.mp member with old | new
    · exact known other old
    · exact List.mem_singleton.mp new ▸ bone
  case isFalse => exact known

/-- Changing one list of influences. -/
private theorem of_modify {collected : Array Influences}
    (known : ∀ influences ∈ collected, influences.Of skeleton) (vertex : Nat)
    {influence : UInt32 × Single} (bone : ∃ bone ∈ skeleton.bones, bone.index = influence.1) :
    ∀ influences ∈ collected.modify vertex (·.add influence), influences.Of skeleton := by
  intro influences member
  obtain ⟨index, found⟩ := Array.mem_iff_getElem?.mp member
  rw [Array.getElem?_modify] at found
  split at found
  case isTrue =>
    obtain ⟨old, present, rfl⟩ := Option.map_eq_some_iff.mp found
    exact (known old (Array.mem_of_getElem? present)).add bone
  case isFalse => exact known _ (Array.mem_of_getElem? found)

/-- Only bones of the skeleton are collected. -/
theorem of_collectInfluences {collected : Array Influences}
    (success : collectInfluences source skeleton = .ok collected) :
    ∀ influences ∈ collected, influences.Of skeleton := by
  refine of_foldlM_eq_ok (P := fun collected => ∀ influences ∈ collected, influences.Of skeleton)
    ?_ ?_ success
  · intro before bone after known step
    split at step
    case h_1 => cases step
    case h_2 index lookup =>
      obtain ⟨found, first, rfl⟩ := Option.map_eq_some_iff.mp lookup
      have listed := List.mem_of_find?_eq_some first
      refine of_foldlM_eq_ok (P := fun collected => ∀ influences ∈ collected, influences.Of skeleton)
        ?_ known step
      intro before weight after known step
      split at step
      case isTrue =>
        cases step
        exact of_modify known _ ⟨found, listed, rfl⟩
      case isFalse => cases step
  · intro influences member
    obtain rfl := Array.eq_of_mem_replicate member
    simp [Influences.Of]

/-! ## Corners -/

/-- A pair of slots holds an influence or nothing. -/
private theorem slot_eq (own : Influences) (slot : Nat) :
    ((own.map (·.1)).getD slot 0, (own.map (·.2)).getD slot 0) = own.getD slot (0, 0) := by
  simp only [List.getD_eq_getElem?_getD, List.getElem?_map]
  cases own[slot]? <;> rfl

/-- The influences of a vertex are those of its source vertex, with nothing in the slots left. -/
theorem influences_cornerVertex {index : Nat} {position : Vec3 Single} {influence : UInt32 × Single}
    (member : influence ∈ (cornerVertex source format influences settings index position).influences) :
    influence ∈ (influences.bind (·[index]?)).getD [] ∨ influence = (0, 0) := by
  generalize own : (influences.bind (·[index]?)).getD [] = held
  have slot (slot : Nat) : held.getD slot (0, 0) ∈ held ∨ held.getD slot (0, 0) = (0, 0) := by
    rw [List.getD_eq_getElem?_getD]
    cases found : held[slot]? with
    | none => exact .inr rfl
    | some entry => exact .inl (List.mem_of_getElem? found)
  simp only [Vertex.influences, cornerVertex, own, slots, Vec4.toList, List.zip_cons_cons,
    List.zip_nil_left, slot_eq, List.mem_cons, List.not_mem_nil, or_false] at member
  rcases member with rfl | rfl | rfl | rfl <;> exact slot _

/-- A corner holds nothing outside the format. -/
theorem kept_cornerVertex (located : format.position = true)
    (still : format.bones = false → influences = none) (index : Nat) (position : Vec3 Single) :
    (cornerVertex source format influences settings index position).kept format =
      cornerVertex source format influences settings index position := by
  have idle : format.bones = false → (influences.bind (·[index]?)).getD [] = [] := by
    intro off
    rw [still off]
    rfl
  cases bones : format.bones with
  | true => simp +contextual [Vertex.kept, cornerVertex, located, bones, ite_and]
  | false => simp +contextual [Vertex.kept, cornerVertex, located, bones, idle bones, slots, ite_and]

/-! ## Faces and meshes -/

/-- A face gives a vertex for each of its corners, and it has corners. -/
theorem of_faceVertices {face : List UInt32} {vertices : List Vertex}
    (success : faceVertices source format influences settings face = .ok vertices) :
    vertices ≠ [] ∧ ∀ vertex ∈ vertices, ∃ index position,
      vertex = cornerVertex source format influences settings index position := by
  rw [faceVertices] at success
  split at success
  case isTrue => cases success
  case isFalse full =>
    have corners := mapM_eq_ok_iff.mp success
    have length : vertices.length = source.primitive.corners := by
      rw [← corners.length_eq, ← not_ne_iff.mp full]
      split
      case isTrue => exact List.length_reverse
      case isFalse => rfl
    constructor
    · rintro rfl
      cases primitive : source.primitive <;> simp [primitive, Primitive.corners] at length
    · intro vertex member
      obtain ⟨corner, -, made⟩ := exists_of_mem_forall₂ corners member
      split at made
      case h_1 position _ => exact ⟨_, _, (Except.ok.inj made).symm⟩
      case h_2 => cases made

/-- The steps of building a mesh. -/
theorem of_buildMesh {mesh : Mesh}
    (success : buildMesh source format skeleton settings = .ok mesh) : ∃ influences faces,
      (format.bones = false → influences = none) ∧
      (∀ collected, influences = some collected → collectInfluences source skeleton = .ok collected) ∧
      List.Forall₂ (fun face vertices =>
        faceVertices source format influences settings face = .ok vertices) source.faces faces ∧
      mesh = {
        material := source.material
        primitive := source.primitive
        bounds := Bounds.ofPoints? (faces.flatten.map (·.position))
        format
        vertices := faces.flatten } := by
  rw [buildMesh] at success
  split at success
  case isTrue on =>
    obtain ⟨influences, first, rest⟩ := bind_eq_ok_iff.mp success
    obtain ⟨collected, known, rfl⟩ := map_eq_ok_iff.mp first
    obtain ⟨faces, traversed, made⟩ := bind_eq_ok_iff.mp rest
    refine ⟨some collected, faces, ?_, ?_, mapM_eq_ok_iff.mp traversed, (Except.ok.inj made).symm⟩
    · intro off
      simp [on] at off
    · rintro _ ⟨⟩
      exact known
  case isFalse off =>
    obtain ⟨_, ⟨⟩, rest⟩ := bind_eq_ok_iff.mp success
    obtain ⟨faces, traversed, made⟩ := bind_eq_ok_iff.mp rest
    refine ⟨none, faces, fun _ => rfl, ?_, mapM_eq_ok_iff.mp traversed, (Except.ok.inj made).symm⟩
    rintro _ ⟨⟩

/-- A mesh as it is built from a source. -/
structure Built (source : SourceMesh Single) (skeleton : Skeleton) (mesh : Mesh) : Prop where
  material : mesh.material = source.material
  kept : ∀ vertex ∈ mesh.vertices, vertex.kept mesh.format = vertex
  influences : ∀ vertex ∈ mesh.vertices, ∀ influence ∈ vertex.influences,
    influence = (0, 0) ∨ ∃ bone ∈ skeleton.bones, bone.index = influence.1
  faceless : mesh.vertices = [] ↔ source.faces = []
  bounds : mesh.bounds = mesh.computedBounds?

theorem built_of_buildMesh {mesh : Mesh} (located : format.position = true)
    (success : buildMesh source format skeleton settings = .ok mesh) :
    Built source skeleton mesh := by
  obtain ⟨influences, faces, still, known, traversed, rfl⟩ := of_buildMesh success
  have corner (vertex : Vertex) (member : vertex ∈ faces.flatten) : ∃ index position,
      vertex = cornerVertex source format influences settings index position := by
    obtain ⟨vertices, listed, among⟩ := List.mem_flatten.mp member
    obtain ⟨face, -, made⟩ := exists_of_mem_forall₂ traversed listed
    exact (of_faceVertices made).2 vertex among
  constructor
  case material => rfl
  case kept =>
    intro vertex member
    obtain ⟨index, position, rfl⟩ := corner vertex member
    exact kept_cornerVertex located still index position
  case influences =>
    intro vertex member influence held
    obtain ⟨index, position, rfl⟩ := corner vertex member
    rcases influences_cornerVertex held with own | nothing
    · cases influences with
      | none => cases own
      | some collected =>
        rw [Option.bind_some] at own
        cases found : collected[index]? with
        | none => simp [found] at own
        | some listed =>
          rw [found, Option.getD_some] at own
          have bones := of_collectInfluences (known collected rfl)
          exact .inr (bones listed (Array.mem_of_getElem? found) influence own)
    · exact .inl nothing
  case faceless =>
    constructor
    · intro none
      cases faces with
      | nil => exact List.forall₂_nil_right_iff.mp traversed
      | cons vertices faces =>
        obtain ⟨face, -, made⟩ := exists_of_mem_forall₂ traversed List.mem_cons_self
        exact absurd (List.append_eq_nil_iff.mp none).1 (of_faceVertices made).1
    · intro none
      rw [none, List.forall₂_nil_left_iff] at traversed
      subst traversed
      rfl
  case bounds => rfl

/-- A built mesh after its file was read: without faces there is a box at the origin. -/
def reread (source : SourceMesh Single) (mesh : Mesh) : Mesh :=
  if source.faces.isEmpty then { mesh with bounds := some ⟨0, 0⟩ } else mesh

namespace Built

variable {mesh : Mesh}

/-- Without faces there is no box. -/
theorem bounds_eq_none_iff (built : Built source skeleton mesh) :
    mesh.bounds = none ↔ source.faces = [] := by
  rw [built.bounds, ← built.faceless, Mesh.computedBounds?]
  cases mesh.vertices with
  | nil => simp [Bounds.ofPoints?]
  | cons vertex vertices => simp [Bounds.ofPoints?]

theorem boxed_eq (built : Built source skeleton mesh) : mesh.boxed = reread source mesh := by
  cases own : mesh.bounds with
  | none =>
    have faceless := built.bounds_eq_none_iff.mp own
    rw [Mesh.boxed, Mesh.storedBounds, ← built.bounds, own, reread, faceless]
    rfl
  | some bounds =>
    have faces : source.faces ≠ [] := by
      intro none
      rw [built.bounds_eq_none_iff.mpr none] at own
      cases own
    rw [Mesh.boxed, Mesh.storedBounds, own, reread, if_neg (by simpa using faces), Option.some_or,
      Option.getD_some, ← own]

end Built

end SceneBaker.Build
