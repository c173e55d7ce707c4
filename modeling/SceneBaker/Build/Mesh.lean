import SceneBaker.Build.Skeleton

/-! # Building meshes

Every face corner of a source mesh becomes a vertex of its own. A vertex holds the attributes of the
mesh's format and the first four influences of its source vertex, in the order in which bones and
weights name it.
-/

namespace SceneBaker.Build

open Number SceneBaker.Geometry Mesh Scene

/-- The attributes that a source mesh has and the settings keep. -/
def vertexFormat (mesh : SourceMesh Single) (settings : Settings) : VertexFormat where
  position := true
  normal := mesh.hasNormals && !settings.disableNormals
  uv0 := mesh.uv0.isSome && !settings.disableUv
  uv1 := mesh.uv1.isSome && !settings.disableUv2
  color := mesh.colors.isSome && !settings.disableVertexColors
  tangent := mesh.hasTangents && !(settings.disableNormals || settings.disableTangents)
  bones := mesh.hasBones && !settings.disableBones
  ids := false

/-- Bone indices and weights of one vertex, at most four. -/
abbrev Influences : Type := List (UInt32 × Single)

/-- Add an influence while there is room. -/
def Influences.add (influences : Influences) (influence : UInt32 × Single) : Influences :=
  if influences.length < maxInfluences then influences ++ [influence] else influences

/-- Influences of every vertex, in the order in which bones and weights name it. -/
def collectInfluences (mesh : SourceMesh Single) (skeleton : Skeleton) :
    Except ConversionError (Array Influences) :=
  mesh.bones.foldlM
    (fun influences bone =>
      match skeleton.indexOf? bone.name with
      | none => .error (.unknownBone mesh.name bone.name)
      | some index =>
        bone.weights.foldlM
          (fun (influences : Array Influences) weight =>
            if weight.vertex.toNat < influences.size then
              .ok (influences.modify weight.vertex.toNat (·.add (index, weight.weight)))
            else .error (.vertexOutOfRange mesh.name weight.vertex mesh.positions.size))
          influences)
    (Array.replicate mesh.positions.size [])

/-- Four slots, filled from the front. -/
def slots {α : Type} (values : List α) (rest : α) : Vec4 α :=
  ⟨values.getD 0 rest, values.getD 1 rest, values.getD 2 rest, values.getD 3 rest⟩

/-- Turn texture coordinates around as the settings ask. -/
def flipUv (settings : Settings) (uv : Vec2 Single) : Vec2 Single :=
  ⟨if settings.flipUvHorizontally then 1 - uv.x else uv.x,
    if settings.flipUvVertically then 1 - uv.y else uv.y⟩

/-- The entry of a vertex in an attribute array, or the default where there is none. -/
def entryAt {β : Type} (index : Nat) (values : Option (Array β)) (default : β) : β :=
  (values.bind (·[index]?)).getD default

/-- The vertex for a corner: the attributes of one source vertex. -/
def cornerVertex (source : SourceMesh Single) (format : VertexFormat)
    (influences : Option (Array Influences)) (settings : Settings) (index : Nat)
    (position : Vec3 Single) : Vertex :=
  let stored := entryAt index source.normals 0
  let normal := if settings.flipNormals then -stored else stored
  let tangent := entryAt index source.tangents 0
  let bitangent := entryAt index source.bitangents 0
  let own : Influences := (influences.bind (·[index]?)).getD []
  { position
    normal := if format.normal then normal else 0
    uv0 := if format.uv0 then flipUv settings (entryAt index source.uv0 0) else 0
    uv1 := if format.uv1 then flipUv settings (entryAt index source.uv1 0) else 0
    color := if format.color then packColor (entryAt index source.colors ⟨1, 1, 1, 1⟩) else 0
    tangent := if format.tangent then tangent else 0
    bitangentSign :=
      if format.tangent && (normal.cross tangent).dot bitangent < 0 then -1 else 1
    boneIndices := slots (own.map (·.1)) 0
    boneWeights := slots (own.map (·.2)) 0 }

/-- The vertices of a face, in the order of its corners or against it. -/
def faceVertices (source : SourceMesh Single) (format : VertexFormat)
    (influences : Option (Array Influences)) (settings : Settings) (face : List UInt32) :
    Except ConversionError (List Vertex) := do
  let expected := source.primitive.corners
  if face.length ≠ expected then
    throw (.unsupportedFace source.name face.length expected)
  (if settings.invertWinding then face.reverse else face).mapM fun corner =>
    match source.positions[corner.toNat]? with
    | some position =>
      .ok (cornerVertex source format influences settings corner.toNat position)
    | none => .error (.vertexOutOfRange source.name corner source.positions.size)

/-- Build a mesh in a format. -/
def buildMesh (source : SourceMesh Single) (format : VertexFormat) (skeleton : Skeleton)
    (settings : Settings) : Except ConversionError Mesh := do
  let influences ←
    if format.bones then some <$> collectInfluences source skeleton else pure none
  let faces ← source.faces.mapM (faceVertices source format influences settings)
  let vertices := faces.flatten
  return {
    material := source.material
    primitive := source.primitive
    bounds := Bounds.ofPoints? (vertices.map (·.position))
    format
    vertices }

end SceneBaker.Build
