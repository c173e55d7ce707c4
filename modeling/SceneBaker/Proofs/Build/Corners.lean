import SceneBaker.Proofs.Scene.Faces

/-! # Built corners

A mesh is built exactly if its faces and, while bones are stored, its bones and weights refer to what
is there. It then has one vertex for each corner of each face. What a corner becomes depends on what
the mesh says about the corner's source vertex and on nothing else in the mesh, so meshes that say
the same about their vertices are built alike, and a mesh whose faces are drawn the other way around
has the same vertices, those of each face in reverse.
-/

namespace SceneBaker.Scene

open Number SceneBaker.Geometry

/-- What a mesh says about one of its vertices: its entries in the attributes, and its influences in
the order in which bones and weights name it. -/
structure VertexData where
  position : Vec3 Single
  normal : Option (Vec3 Single)
  uv0 : Option (Vec2 Single)
  uv1 : Option (Vec2 Single)
  color : Option (Vec4 Single)
  tangent : Option (Vec3 Single)
  bitangent : Option (Vec3 Single)
  influences : List (String × Single)

namespace SourceMesh

def vertexData (mesh : SourceMesh Single) (vertex : Nat) : VertexData where
  position := mesh.position vertex
  normal := attributeAt mesh.normals vertex
  uv0 := attributeAt mesh.uv0 vertex
  uv1 := attributeAt mesh.uv1 vertex
  color := attributeAt mesh.colors vertex
  tangent := attributeAt mesh.tangents vertex
  bitangent := attributeAt mesh.bitangents vertex
  influences := influencesAt mesh.bones vertex

/-- A mesh of one vertex, with its attributes. -/
def ofVertex (data : VertexData) : SourceMesh Single where
  positions := #[data.position]
  normals := data.normal.map fun value => #[value]
  uv0 := data.uv0.map fun value => #[value]
  uv1 := data.uv1.map fun value => #[value]
  colors := data.color.map fun value => #[value]
  tangents := data.tangent.map fun value => #[value]
  bitangents := data.bitangent.map fun value => #[value]

end SourceMesh

end SceneBaker.Scene

namespace SceneBaker.Build

open Number SceneBaker.Geometry Mesh Scene

variable {source : SourceMesh Single} {format : VertexFormat} {skeleton : Skeleton}
  {settings : Settings} {influences : Option (Array Influences)}

/-! ## Corners -/

/-- The vertex that a corner becomes, whichever way around its face is drawn: the first four of its
influences go into its slots. -/
def cornerOf (format : VertexFormat) (skeleton : Skeleton) (settings : Settings)
    (data : VertexData) : Vertex :=
  let own : Influences := (data.influences.map skeleton.indexed).take maxInfluences
  cornerVertex (.ofVertex data) format (if format.bones then some #[own] else none)
    { settings with invertWinding := false } 0 data.position

/-- The vertices that the corners of a face become, in the order in which they are drawn. -/
def cornersOf (source : SourceMesh Single) (format : VertexFormat) (skeleton : Skeleton)
    (settings : Settings) (face : List UInt32) : List Vertex :=
  (wound settings face).map fun corner =>
    cornerOf format skeleton settings (source.vertexData corner.toNat)

theorem entryAt_single {β : Type} (value : Option β) (default : β) :
    entryAt 0 (value.map fun value => #[value]) default = value.getD default := by
  cases value <;> rfl

/-- A corner only reads what the mesh says about its vertex. -/
theorem cornerVertex_eq (collected : Collected source format skeleton influences) {vertex : Nat}
    (inside : vertex < source.positions.size) :
    cornerVertex source format influences settings vertex (source.position vertex) =
      cornerOf format skeleton settings (source.vertexData vertex) := by
  have own : (influences.bind (·[vertex]?)).getD [] =
      ((if format.bones then some #[((influencesAt source.bones vertex).map
        skeleton.indexed).take maxInfluences] else none : Option (Array Influences)).bind
        (·[0]?)).getD [] := by
    cases bones : format.bones with
    | false => rw [collected.boneless bones, if_neg Bool.false_ne_true]; rfl
    | true =>
      obtain ⟨array, rfl, holds⟩ := collected.held bones
      rw [Option.bind_some, holds.2 vertex inside, if_pos rfl]
      rfl
  simp only [cornerVertex, cornerOf, SourceMesh.ofVertex, SourceMesh.vertexData, entryAt_single, own]
  rfl

theorem drawnFace_eq (collected : Collected source format skeleton influences) {face : List UInt32}
    (inside : ∀ corner ∈ face, corner.toNat < source.positions.size) :
    drawnFace source format influences settings face =
      cornersOf source format skeleton settings face :=
  List.map_congr_left fun corner member =>
    cornerVertex_eq collected (inside corner (mem_wound.mp member))

/-! ## Meshes -/

/-- The mesh of all corners of a source. -/
def expanded (source : SourceMesh Single) (format : VertexFormat) (skeleton : Skeleton)
    (settings : Settings) : Mesh.Mesh :=
  let vertices := source.faces.flatMap (cornersOf source format skeleton settings)
  { material := source.material
    primitive := source.primitive
    bounds := Bounds.ofPoints? (vertices.map (·.position))
    format
    vertices }

/-- A mesh is built from what has all that building needs, corner by corner. -/
theorem buildMesh_eq_ok_iff {mesh : Mesh.Mesh} :
    buildMesh source format skeleton settings = .ok mesh ↔
      source.BuildableIn format skeleton ∧ expanded source format skeleton settings = mesh := by
  have made {built : Mesh.Mesh} (success : buildMesh source format skeleton settings = .ok built) :
      expanded source format skeleton settings = built := by
    have outcome := buildsTo_buildMesh source format skeleton settings
    rw [success] at outcome
    cases outcome with
    | built influences collected faced cornered =>
      rw [expanded, drawnMesh, List.flatMap_def, List.map_congr_left fun face member =>
        drawnFace_eq collected (cornered face member)]
  constructor
  · intro success
    exact ⟨exists_buildMesh_eq_ok_iff.mp ⟨mesh, success⟩, made success⟩
  · rintro ⟨buildable, rfl⟩
    obtain ⟨built, success⟩ : ∃ built, buildMesh source format skeleton settings = .ok built :=
      exists_buildMesh_eq_ok_iff.mpr buildable
    rw [success, made success]

/-! ## Winding -/

/-- The same settings with faces drawn the other way around. -/
def turned (settings : Settings) : Settings :=
  { settings with invertWinding := !settings.invertWinding }

theorem wound_turned (settings : Settings) (face : List UInt32) :
    wound (turned settings) face = (wound settings face).reverse := by
  rw [wound, wound, turned]
  cases settings.invertWinding with
  | false => rfl
  | true => exact face.reverse_reverse.symm

theorem cornersOf_turned (face : List UInt32) :
    cornersOf source format skeleton (turned settings) face =
      (cornersOf source format skeleton settings face).reverse := by
  rw [cornersOf, wound_turned, List.map_reverse]
  rfl

/-- A mesh is built exactly if its faces have the corners of its primitive, their corners are vertices
that the mesh has and, in a format with bones, its bones are known and its weights are of vertices
that it has. It is built face by face and corner by corner, and with faces drawn the other way around
the vertices of each face come in reverse. -/
theorem buildMesh_faceByFace (source : SourceMesh Single) (format : VertexFormat)
    (skeleton : Skeleton) (settings : Settings) :
    ((∃ mesh, buildMesh source format skeleton settings = .ok mesh) ↔
      (∀ face ∈ source.faces, face.length = source.primitive.corners) ∧
      (∀ face ∈ source.faces, ∀ corner ∈ face, corner.toNat < source.positions.size) ∧
      (format.bones = true →
        (∀ bone ∈ source.bones, bone.name ∈ skeleton.names) ∧
        ∀ bone ∈ source.bones, ∀ weight ∈ bone.weights,
          weight.vertex.toNat < source.positions.size)) ∧
    ∀ mesh, buildMesh source format skeleton settings = .ok mesh →
      mesh.vertices = source.faces.flatMap (fun face => (wound settings face).map fun corner =>
        cornerOf format skeleton settings (source.vertexData corner.toNat)) ∧
      ∃ other, buildMesh source format skeleton (turned settings) = .ok other ∧
        other.vertices = source.faces.flatMap fun face => ((wound settings face).map fun corner =>
          cornerOf format skeleton settings (source.vertexData corner.toNat)).reverse := by
  refine ⟨?_, fun mesh success => ?_⟩
  · rw [exists_buildMesh_eq_ok_iff]
    constructor
    · rintro ⟨faced, cornered, named, weighted⟩
      exact ⟨faced, cornered, fun stored => ⟨named stored, weighted stored⟩⟩
    · rintro ⟨faced, cornered, boned⟩
      exact ⟨faced, cornered, fun stored => (boned stored).1, fun stored => (boned stored).2⟩
  · obtain ⟨buildable, rfl⟩ := buildMesh_eq_ok_iff.mp success
    refine ⟨rfl, _, buildMesh_eq_ok_iff.mpr ⟨buildable, rfl⟩, ?_⟩
    exact List.flatMap_congr fun face _ => cornersOf_turned face

/-- Two rails between three posts; only the first two posts have texture coordinates. -/
def fence : SourceMesh Single where
  primitive := .lines
  positions := #[0, ⟨1, 0, 0⟩, ⟨1, 1, 0⟩]
  uv0 := some #[0, ⟨1, 0⟩]
  faces := [[0, 1], [2, 1]]
  bones := [⟨"gate", 1, [⟨1, 1⟩, ⟨2, 0⟩]⟩]

theorem buildMesh_faceByFace_fence :
    let format : VertexFormat := { VertexFormat.positionOnly with uv0 := true, bones := true }
    let skeleton : Skeleton := ⟨[⟨"gate", 7, 1⟩]⟩
    let corner (vertex : Nat) := cornerOf format skeleton {} (fence.vertexData vertex)
    (∀ face ∈ fence.faces, face.length = fence.primitive.corners) ∧
    (∀ face ∈ fence.faces, ∀ corner ∈ face, corner.toNat < fence.positions.size) ∧
    (∀ bone ∈ fence.bones, bone.name ∈ skeleton.names) ∧
    (∀ bone ∈ fence.bones, ∀ weight ∈ bone.weights, weight.vertex.toNat < fence.positions.size) ∧
    ∃ mesh other, buildMesh fence format skeleton {} = .ok mesh ∧
      mesh.vertices = [corner 0, corner 1, corner 2, corner 1] ∧
      buildMesh fence format skeleton (turned {}) = .ok other ∧
      other.vertices = [corner 1, corner 0, corner 1, corner 2] := by
  intro format skeleton corner
  have faced : ∀ face ∈ fence.faces, face.length = fence.primitive.corners := by decide
  have cornered : ∀ face ∈ fence.faces, ∀ corner ∈ face, corner.toNat < fence.positions.size := by
    simp [fence]
  have named : ∀ bone ∈ fence.bones, bone.name ∈ skeleton.names := by decide
  have weighted : ∀ bone ∈ fence.bones, ∀ weight ∈ bone.weights,
      weight.vertex.toNat < fence.positions.size := by decide
  obtain ⟨accepts, expands⟩ := buildMesh_faceByFace fence format skeleton {}
  obtain ⟨mesh, success⟩ := accepts.mpr ⟨faced, cornered, fun _ => ⟨named, weighted⟩⟩
  obtain ⟨vertices, other, succeeds, reversed⟩ := expands mesh success
  exact ⟨faced, cornered, named, weighted, mesh, other, success, vertices, succeeds, reversed⟩

end SceneBaker.Build
