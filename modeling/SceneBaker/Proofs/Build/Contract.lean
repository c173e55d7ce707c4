import SceneBaker.Build.Model
import SceneBaker.Proofs.Build.Influences
import SceneBaker.Proofs.Build.NodeTree
import SceneBaker.Scene.Normals

/-! # When a model can be built

A mesh can be built if its faces have the corners of its primitive and refer to its vertices, as its
weights have to while bones are in use. A model can be built if every mesh can and every bone is
carried by one node. A failure names what is wrong.
-/

namespace SceneBaker.Scene.SourceMesh

open Number

variable {α : Type}

/-- Every face has the corners of the mesh's primitive. -/
def Faced (mesh : SourceMesh α) : Prop := ∀ face ∈ mesh.faces, face.length = mesh.primitive.corners

/-- Every corner of a face is a vertex that the mesh has. -/
def Cornered (mesh : SourceMesh α) : Prop :=
  ∀ face ∈ mesh.faces, ∀ corner ∈ face, corner.toNat < mesh.positions.size

/-- What a mesh needs so that it can be built. -/
structure Buildable (settings : Settings) (mesh : SourceMesh α) : Prop where
  faced : mesh.Faced
  cornered : mesh.Cornered
  weighted : settings.disableBones = false → mesh.Weighted

/-- What a mesh needs so that it can be built in some format, with some skeleton. -/
structure BuildableIn (format : Mesh.VertexFormat) (skeleton : Build.Skeleton)
    (mesh : SourceMesh α) : Prop where
  faced : mesh.Faced
  cornered : mesh.Cornered
  named : format.bones = true → ∀ bone ∈ mesh.bones, bone.name ∈ skeleton.names
  weighted : format.bones = true → mesh.Weighted

end SceneBaker.Scene.SourceMesh

namespace SceneBaker.Build

open Number SceneBaker.Geometry Mesh Model Scene Steps

variable {scene : Scene Single} {settings : Settings} {source : SourceMesh Single}
  {skeleton : Skeleton} {format : VertexFormat}

/-! ## Faces -/

/-- The corners of a face in the order in which they are drawn. -/
def wound (settings : Settings) (face : List UInt32) : List UInt32 :=
  if settings.invertWinding then face.reverse else face

@[simp]
theorem mem_wound {face : List UInt32} {corner : UInt32} :
    corner ∈ wound settings face ↔ corner ∈ face := by
  rw [wound]
  split
  · exact List.mem_reverse
  · exact Iff.rfl

@[simp]
theorem length_wound (settings : Settings) (face : List UInt32) :
    (wound settings face).length = face.length := by
  rw [wound]
  split
  · exact List.length_reverse
  · rfl

theorem wound_map (settings : Settings) (move : UInt32 → UInt32) (face : List UInt32) :
    wound settings (face.map move) = (wound settings face).map move := by
  rw [wound, wound]
  split
  · exact List.map_reverse.symm
  · rfl

/-- The vertices that a valid face becomes. -/
def drawnFace (source : SourceMesh Single) (format : VertexFormat)
    (influences : Option (Array Influences)) (settings : Settings) (face : List UInt32) :
    List Vertex :=
  (wound settings face).map fun corner =>
    cornerVertex source format influences settings corner.toNat (source.position corner.toNat)

/-- The vertex of one corner, if the mesh has it. -/
def cornerStep (source : SourceMesh Single) (format : VertexFormat)
    (influences : Option (Array Influences)) (settings : Settings) (corner : UInt32) :
    Except ConversionError Vertex :=
  match source.positions[corner.toNat]? with
  | some position => .ok (cornerVertex source format influences settings corner.toNat position)
  | none => .error (.vertexOutOfRange source.name corner source.positions.size)

/-- What the vertices of a face come to. -/
theorem faceVertices_cases (source : SourceMesh Single) (format : VertexFormat)
    (influences : Option (Array Influences)) (settings : Settings) (face : List UInt32) :
    (face.length = source.primitive.corners ∧
      (∀ corner ∈ face, corner.toNat < source.positions.size) ∧
      faceVertices source format influences settings face =
        .ok (drawnFace source format influences settings face)) ∨
    (face.length ≠ source.primitive.corners ∧
      faceVertices source format influences settings face =
        .error (.unsupportedFace source.name face.length source.primitive.corners)) ∨
    ∃ corner ∈ face, ¬corner.toNat < source.positions.size ∧
      faceVertices source format influences settings face =
        .error (.vertexOutOfRange source.name corner source.positions.size) := by
  by_cases full : face.length = source.primitive.corners
  · have vertices : faceVertices source format influences settings face =
        (wound settings face).mapM (cornerStep source format influences settings) := by
      rw [faceVertices, if_neg (not_not_intro full)]
      rfl
    cases result : faceVertices source format influences settings face with
    | ok made =>
      have inside : ∀ corner ∈ face, corner.toNat < source.positions.size := by
        have succeeds := exists_mapM_eq_ok_iff.mp ⟨made, vertices.symm.trans result⟩
        intro corner member
        obtain ⟨vertex, success⟩ := succeeds corner (mem_wound.mpr member)
        rw [cornerStep] at success
        split at success
        case h_1 found => exact (Array.getElem?_eq_some_iff.mp found).1
        case h_2 => cases success
      refine .inl ⟨full, inside, ?_⟩
      rw [← result, vertices]
      refine mapM_eq_ok_map fun corner member => ?_
      have found := Array.getElem?_eq_getElem (inside corner (mem_wound.mp member))
      rw [cornerStep, found, SourceMesh.position, found, Option.getD_some]
    | error cause =>
      obtain ⟨corner, member, failed⟩ := exists_of_mapM_eq_error (vertices.symm.trans result)
      refine .inr (.inr ⟨corner, mem_wound.mp member, ?_⟩)
      rw [cornerStep] at failed
      split at failed
      case h_1 => cases failed
      case h_2 absent =>
        cases failed
        exact ⟨Nat.not_lt.mpr (Array.getElem?_eq_none_iff.mp absent), rfl⟩
  · refine .inr (.inl ⟨full, ?_⟩)
    rw [faceVertices, if_pos full]
    rfl

/-- What the faces of a mesh come to. -/
theorem mapM_faceVertices_cases (source : SourceMesh Single) (format : VertexFormat)
    (influences : Option (Array Influences)) (settings : Settings) :
    (source.Faced ∧ source.Cornered ∧
      source.faces.mapM (faceVertices source format influences settings) =
        .ok (source.faces.map (drawnFace source format influences settings))) ∨
    (¬source.Faced ∧ ∃ found, source.faces.mapM (faceVertices source format influences settings) =
      .error (.unsupportedFace source.name found source.primitive.corners)) ∨
    ¬source.Cornered ∧ ∃ vertex,
      source.faces.mapM (faceVertices source format influences settings) =
        .error (.vertexOutOfRange source.name vertex source.positions.size) := by
  have outcome := faceVertices_cases source format influences settings
  cases result : source.faces.mapM (faceVertices source format influences settings) with
  | ok made =>
    have each : ∀ face ∈ source.faces, face.length = source.primitive.corners ∧
        (∀ corner ∈ face, corner.toNat < source.positions.size) ∧
        faceVertices source format influences settings face =
          .ok (drawnFace source format influences settings face) := by
      intro face member
      obtain ⟨vertices, success⟩ := exists_mapM_eq_ok_iff.mp ⟨made, result⟩ face member
      rcases outcome face with valid | ⟨-, failed⟩ | ⟨_, -, -, failed⟩
      · exact valid
      all_goals
        rw [success] at failed
        cases failed
    refine .inl ⟨fun face member => (each face member).1,
      fun face member => (each face member).2.1, ?_⟩
    rw [← result]
    exact mapM_eq_ok_map fun face member => (each face member).2.2
  | error cause =>
    obtain ⟨face, member, failed⟩ := exists_of_mapM_eq_error result
    rcases outcome face with ⟨-, -, success⟩ | ⟨wrong, same⟩ | ⟨corner, among, outside, same⟩
    · rw [success] at failed
      cases failed
    · rw [same] at failed
      cases failed
      exact .inr (.inl ⟨fun faced => wrong (faced face member), _, rfl⟩)
    · rw [same] at failed
      cases failed
      exact .inr (.inr ⟨fun cornered => outside (cornered face member corner among), _, rfl⟩)

/-! ## Meshes -/

/-- The mesh that a valid source becomes. -/
def drawnMesh (source : SourceMesh Single) (format : VertexFormat)
    (influences : Option (Array Influences)) (settings : Settings) : Mesh.Mesh :=
  let vertices := (source.faces.map (drawnFace source format influences settings)).flatten
  { material := source.material
    primitive := source.primitive
    bounds := Bounds.ofPoints? (vertices.map (·.position))
    format
    vertices }

/-- The influences that a mesh is built with: those of its own vertices, or none in a format without
bones. -/
structure Collected (source : SourceMesh Single) (format : VertexFormat) (skeleton : Skeleton)
    (influences : Option (Array Influences)) : Prop where
  boneless : format.bones = false → influences = none
  held : format.bones = true → ∃ collected, influences = some collected ∧
    Holds collected source.positions.size fun vertex =>
      (influencesAt source.bones vertex).map skeleton.indexed

/-- What building a mesh can come to, and when. -/
inductive BuildsTo (source : SourceMesh Single) (format : VertexFormat) (skeleton : Skeleton)
    (settings : Settings) : Except ConversionError Mesh.Mesh → Prop
  | built (influences : Option (Array Influences))
      (collected : Collected source format skeleton influences) (faced : source.Faced)
      (cornered : source.Cornered) (weighted : format.bones = true → source.Weighted) :
      BuildsTo source format skeleton settings (.ok (drawnMesh source format influences settings))
  | unsupportedFace (found : Nat) (wrong : ¬source.Faced) :
      BuildsTo source format skeleton settings
        (.error (.unsupportedFace source.name found source.primitive.corners))
  | vertexOutOfRange (vertex : UInt32)
      (outside : ¬source.Cornered ∨ format.bones = true ∧ ¬source.Weighted) :
      BuildsTo source format skeleton settings
        (.error (.vertexOutOfRange source.name vertex source.positions.size))
  | unknownBone (bone : String) (stored : format.bones = true)
      (unknown : ∃ bone ∈ source.bones, bone.name ∉ skeleton.names) :
      BuildsTo source format skeleton settings (.error (.unknownBone source.name bone))

/-- With its influences at hand, a mesh only depends on its faces. -/
theorem buildsTo_of_collected {influences : Option (Array Influences)}
    (collected : Collected source format skeleton influences)
    (weighted : format.bones = true → source.Weighted) :
    BuildsTo source format skeleton settings (do
      let faces ← source.faces.mapM (faceVertices source format influences settings)
      let vertices := faces.flatten
      return {
        material := source.material
        primitive := source.primitive
        bounds := Bounds.ofPoints? (vertices.map (·.position))
        format
        vertices }) := by
  rcases mapM_faceVertices_cases source format influences settings with
    ⟨faced, cornered, success⟩ | ⟨wrong, found, failed⟩ | ⟨outside, vertex, failed⟩
  · rw [success]
    exact .built influences collected faced cornered weighted
  · rw [failed]
    exact .unsupportedFace found wrong
  · rw [failed]
    exact .vertexOutOfRange vertex (.inl outside)

theorem buildsTo_buildMesh (source : SourceMesh Single) (format : VertexFormat)
    (skeleton : Skeleton) (settings : Settings) :
    BuildsTo source format skeleton settings (buildMesh source format skeleton settings) := by
  rw [buildMesh]
  cases bones : format.bones with
  | false =>
    exact buildsTo_of_collected ⟨fun _ => rfl, fun stored => by simp [bones] at stored⟩
      fun stored => by simp [bones] at stored
  | true =>
    rcases collectInfluences_cases source skeleton with
      ⟨clean, collected, success, holds⟩ | ⟨cause, others, listed, failed⟩
    · rw [success]
      exact buildsTo_of_collected
        ⟨fun bare => by simp [bones] at bare, fun _ => ⟨collected, rfl, holds⟩⟩
        fun _ => (offences_eq_nil_iff.mp clean).2
    · rw [failed]
      have member : cause ∈ offences source skeleton := listed ▸ List.mem_cons_self
      rcases mem_offences_iff.mp member with
        ⟨bone, among, unknown, rfl⟩ | ⟨bone, among, weight, held, outside, rfl⟩
      · exact .unknownBone bone.name bones ⟨bone, among, unknown⟩
      · refine .vertexOutOfRange weight.vertex (.inr ⟨bones, fun weighted => ?_⟩)
        exact outside (weighted bone among weight held)

/-- A mesh is built in a format with bones only if all its bones are known. -/
theorem named_of_buildMesh {mesh : Mesh.Mesh} (stored : format.bones = true)
    (success : buildMesh source format skeleton settings = .ok mesh) :
    ∀ bone ∈ source.bones, bone.name ∈ skeleton.names := by
  rw [buildMesh, if_pos stored] at success
  obtain ⟨influences, first, -⟩ := bind_eq_ok_iff.mp success
  obtain ⟨collected, collects, rfl⟩ := map_eq_ok_iff.mp first
  rcases collectInfluences_cases source skeleton with ⟨clean, -⟩ | ⟨cause, -, -, failed⟩
  · exact (offences_eq_nil_iff.mp clean).1
  · rw [failed] at collects
    cases collects

/-- A mesh is built exactly if it has what building needs. -/
theorem exists_buildMesh_eq_ok_iff : (∃ mesh, buildMesh source format skeleton settings = .ok mesh) ↔
    source.BuildableIn format skeleton := by
  have outcome := buildsTo_buildMesh source format skeleton settings
  constructor
  · rintro ⟨mesh, success⟩
    rw [success] at outcome
    cases outcome with
    | built influences collected faced cornered weighted =>
      exact ⟨faced, cornered, fun stored => named_of_buildMesh stored success, weighted⟩
  · intro buildable
    generalize buildMesh source format skeleton settings = result at outcome ⊢
    cases outcome with
    | built => exact ⟨_, rfl⟩
    | unsupportedFace found wrong => exact absurd buildable.faced wrong
    | vertexOutOfRange vertex outside =>
      rcases outside with outside | ⟨stored, outside⟩
      · exact absurd buildable.cornered outside
      · exact absurd (buildable.weighted stored) outside
    | unknownBone bone stored unknown =>
      obtain ⟨other, member, unknown⟩ := unknown
      exact absurd (buildable.named stored other member) unknown

/-! ## Models -/

/-- Bones that are in use are known to the skeleton of their scene. -/
theorem known_of_mem {bone : SourceBone Single} (listed : source ∈ scene.meshes)
    (enabled : settings.disableBones = false) (member : bone ∈ source.bones) :
    bone.name ∈ (Skeleton.collect scene settings).names := by
  rw [(Skeleton.collects_collect scene settings).names_eq, enabled, if_neg Bool.false_ne_true,
    List.mem_eraseDups]
  exact List.mem_map_of_mem (List.mem_flatMap.mpr ⟨source, Array.mem_toList_iff.mpr listed, member⟩)

theorem bones_vertexFormat : (vertexFormat source settings).bones = true ↔
    source.bones ≠ [] ∧ settings.disableBones = false := by
  simp [vertexFormat, SourceMesh.hasBones]

/-- A mesh of a scene is built if it can be. -/
theorem exists_buildMesh_iff (listed : source ∈ scene.meshes) :
    (∃ mesh, buildMesh source (vertexFormat source settings) (Skeleton.collect scene settings)
      settings = .ok mesh) ↔ source.Buildable settings := by
  rw [exists_buildMesh_eq_ok_iff]
  constructor
  · intro buildable
    refine ⟨buildable.faced, buildable.cornered, fun enabled bone member => ?_⟩
    have some : source.bones ≠ [] := List.ne_nil_of_mem member
    exact buildable.weighted (bones_vertexFormat.mpr ⟨some, enabled⟩) bone member
  · intro buildable
    refine ⟨buildable.faced, buildable.cornered, fun stored bone member => ?_, fun stored => ?_⟩
    · exact known_of_mem listed (bones_vertexFormat.mp stored).2 member
    · exact buildable.weighted (bones_vertexFormat.mp stored).2

/-- The steps of building a model. -/
theorem buildModel_eq_ok_iff {model : Model} : buildModel scene settings = .ok model ↔
    ¬(scene.nodes.isEmpty && scene.meshes.isEmpty) = true ∧ ∃ tree meshes,
      nodeTree scene (Skeleton.collect scene settings) = .ok tree ∧
      (scene.meshes.toList.mapM fun source => buildMesh source (vertexFormat source settings)
        (Skeleton.collect scene settings) settings) = .ok meshes ∧
      { meshes
        nodes := tree
        skeleton := (Skeleton.collect scene settings).bones
        materials := (scene.materials.map (·.name)).toList } = model := by
  rw [buildModel]
  split
  case isTrue empty =>
    constructor
    · rintro ⟨⟩
    · exact fun ⟨filled, _⟩ => absurd empty filled
  case isFalse filled =>
    constructor
    · intro success
      obtain ⟨tree, planted, rest⟩ := bind_eq_ok_iff.mp success
      obtain ⟨meshes, traversed, made⟩ := bind_eq_ok_iff.mp rest
      exact ⟨filled, tree, meshes, planted, traversed, Except.ok.inj made⟩
    · rintro ⟨-, tree, meshes, planted, traversed, rfl⟩
      exact bind_eq_ok_iff.mpr ⟨tree, planted, bind_eq_ok_iff.mpr ⟨meshes, traversed, rfl⟩⟩

/-- A model is built if there is something to build it from, its bones have their nodes and its
meshes can be built. -/
theorem exists_buildModel_iff : (∃ model, buildModel scene settings = .ok model) ↔
    ¬(scene.nodes.isEmpty && scene.meshes.isEmpty) = true ∧
      (∃ tree, nodeTree scene (Skeleton.collect scene settings) = .ok tree) ∧
      ∀ source ∈ scene.meshes, source.Buildable settings := by
  have meshes : (∃ meshes, (scene.meshes.toList.mapM fun source =>
        buildMesh source (vertexFormat source settings) (Skeleton.collect scene settings) settings) =
          .ok meshes) ↔ ∀ source ∈ scene.meshes, source.Buildable settings := by
    rw [exists_mapM_eq_ok_iff]
    simp only [Array.mem_toList_iff]
    exact forall₂_congr fun source listed => exists_buildMesh_iff listed
  rw [← meshes]
  constructor
  · rintro ⟨model, success⟩
    obtain ⟨filled, tree, meshes, planted, traversed, -⟩ := buildModel_eq_ok_iff.mp success
    exact ⟨filled, ⟨tree, planted⟩, meshes, traversed⟩
  · rintro ⟨filled, ⟨tree, planted⟩, meshes, traversed⟩
    exact ⟨_, buildModel_eq_ok_iff.mpr ⟨filled, tree, meshes, planted, traversed, rfl⟩⟩

/-- A node tree only fails over its bones. -/
theorem of_nodeTree_eq_error {cause : ConversionError}
    (failed : nodeTree scene skeleton = .error cause) :
    (∃ bone, cause = .duplicateBoneNode bone) ∨ ∃ bone, cause = .boneWithoutNode bone := by
  have numbering : numberNodes skeleton [] (UInt32.ofNat skeleton.size) ((visits scene).map (·.1)) =
      .error cause := map_eq_error_iff.mp failed
  rcases of_numberNodes_eq_error numbering with
    ⟨_, source, _, _, -, -, -, -, rfl⟩ | ⟨-, bone, _, -, rfl⟩
  · exact .inl ⟨_, rfl⟩
  · exact .inr ⟨_, rfl⟩

/-- A failure over a face or a vertex is that of a mesh. -/
theorem of_buildModel_eq_error {cause : ConversionError}
    (failed : buildModel scene settings = .error cause) :
    ((∃ name found expected, cause = .unsupportedFace name found expected) →
      ∃ source ∈ scene.meshes, ¬source.Faced) ∧
    ((∃ name vertex count, cause = .vertexOutOfRange name vertex count) →
      ∃ source ∈ scene.meshes,
        ¬source.Cornered ∨ settings.disableBones = false ∧ ¬source.Weighted) := by
  rw [buildModel] at failed
  split at failed
  case isTrue =>
    cases failed
    simp
  case isFalse =>
    rcases bind_eq_error_iff.mp failed with planted | ⟨tree, -, rest⟩
    · rcases of_nodeTree_eq_error planted with ⟨bone, rfl⟩ | ⟨bone, rfl⟩ <;> simp
    rcases bind_eq_error_iff.mp rest with traversed | ⟨_, -, ⟨⟩⟩
    obtain ⟨source, listed, refused⟩ := exists_of_mapM_eq_error traversed
    rw [Array.mem_toList_iff] at listed
    have outcome := buildsTo_buildMesh source (vertexFormat source settings)
      (Skeleton.collect scene settings) settings
    rw [refused] at outcome
    cases outcome with
    | unsupportedFace found wrong => exact ⟨fun _ => ⟨source, listed, wrong⟩, by simp⟩
    | vertexOutOfRange vertex outside =>
      refine ⟨by simp, fun _ => ⟨source, listed, ?_⟩⟩
      exact outside.imp_right fun ⟨stored, outside⟩ => ⟨(bones_vertexFormat.mp stored).2, outside⟩
    | unknownBone bone stored unknown => simp

end SceneBaker.Build
