import SceneBaker.Gltf.Document
import SceneBaker.Gltf.Record

/-! # Reading documents

The members of each kind of record. Members that the document needs no further are still checked.
-/

namespace SceneBaker.Gltf

open Number SceneBaker.Geometry Json

namespace Schema

/-! ## Buffers, views and accessors -/

def buffer? (value : Value) : Option Document.Buffer := do
  let members ← record? ["byteLength", "name", "uri"] additions value
  let _ ← name? members
  return {
    length := ← members.withDefault? "byteLength" Value.nat? 0
    uri := ← members.optional? "uri" Value.text? }

/-- The least and the greatest distance between items. -/
def strideRange : Nat × Nat := (4, 252)

def stride? (value : Value) : Option Nat := do
  let stride ← value.nat?
  if strideRange.1 ≤ stride ∧ stride ≤ strideRange.2 then some stride else none

/-- What a view may be bound to: vertices or indices. -/
def targets : List Nat := [34962, 34963]

def view? (counts : Counts) (value : Value) : Option Document.View := do
  let members ← record?
    ["buffer", "byteLength", "byteOffset", "byteStride", "name", "target"] additions value
  let _ ← name? members
  let _ ← members.optional? "target" (codeOf? targets)
  return {
    buffer := ← members.required? "buffer" (index? counts .buffers)
    offset := (← members.optional? "byteOffset" Value.nat?).getD 0
    length := ← members.required? "byteLength" Value.nat?
    stride := ← members.optional? "byteStride" stride? }

/-- The forms of indices. -/
def indexCodes : List (Nat × Component) :=
  Component.codes.filter fun (_, component) =>
    component == .uint8 || component == .uint16 || component == .uint32

/-- A view and an offset in it. -/
def place? (counts : Counts) (members : Members) : Option (Nat × Nat) := do
  return (← members.required? "bufferView" (index? counts .bufferViews),
    ← members.withDefault? "byteOffset" Value.nat? 0)

def sparse? (counts : Counts) (value : Value) : Option Document.Sparse := do
  let members ← record? ["count", "indices", "values"] additions value
  let indices ← members.required? "indices"
    (record? ["bufferView", "byteOffset", "componentType"] additions)
  let values ← members.required? "values"
    (record? ["bufferView"] ("byteOffset" :: additions))
  let (indexView, indexOffset) ← place? counts indices
  let (valueView, valueOffset) ← place? counts values
  return {
    count := ← members.required? "count" Value.nat?
    indexView, indexOffset
    indexComponent := ← indices.required? "componentType" (code? indexCodes)
    valueView, valueOffset }

/-- Whether a bound is given as three numbers. -/
def isCorner (bound : Option Value) : Bool := (bound.bind vec3?).isSome

/-- How many brackets of a bound may lie in one another: three more lie around it. -/
def boundDepth : Nat := Json.maxDepth - 3

/-- An accessor has a view or replaced items. -/
def accessor? (counts : Counts) (value : Value) : Option Document.Accessor := do
  let members ← record?
    ["bufferView", "byteOffset", "count", "componentType", "extensions", "extras", "type",
      "min", "max", "name"] ["normalized", "sparse"] value
  let _ ← name? members
  let _ ← members.withDefault? "normalized" Value.boolean? false
  let view ← members.optional? "bufferView" (index? counts .bufferViews)
  let sparse ← members.optional? "sparse" (sparse? counts)
  if view.isNone && sparse.isNone then none
  else
    return {
      view
      offset := (← members.optional? "byteOffset" Value.nat?).getD 0
      count := ← members.required? "count" Value.nat?
      component := ← members.required? "componentType" (code? Component.codes)
      dimensions := ← members.required? "type" (keyword? Dimensions.names)
      bounded := isCorner (← members.optional? "min" (Value.plain? boundDepth))
        && isCorner (← members.optional? "max" (Value.plain? boundDepth))
      sparse }

/-! ## Materials and what they refer to -/

/-- A reference to a texture, with the factors that it may have. -/
def texture? (counts : Counts) (factors : List String) (value : Value) : Option Unit := do
  let members ← record? ["index"] (factors ++ "texCoord" :: additions) value
  let _ ← members.required? "index" (index? counts .textures)
  let _ ← factors.mapM fun name => members.withDefault? name Value.single? 1
  let set ← members.withDefault? "texCoord" Value.nat? 0
  if set < 2 ^ 32 then some () else none

/-- The base color of a material. -/
def surface? (counts : Counts) (value : Value) : Option (Vec4 Single) := do
  let members ← record?
    [] (["baseColorFactor", "baseColorTexture", "metallicFactor", "roughnessFactor",
      "metallicRoughnessTexture"] ++ additions) value
  let _ ← members.optional? "baseColorTexture" (texture? counts [])
  let _ ← members.withDefault? "metallicFactor" Value.single? 1
  let _ ← members.withDefault? "roughnessFactor" Value.single? 1
  let _ ← members.optional? "metallicRoughnessTexture" (texture? counts [])
  members.withDefault? "baseColorFactor" vec4? ⟨1, 1, 1, 1⟩

def alphaModes : List String := ["OPAQUE", "MASK", "BLEND"]

def material? (counts : Counts) (value : Value) : Option Document.Material := do
  let members ← record?
    [] (["alphaCutoff", "alphaMode", "doubleSided", "name", "pbrMetallicRoughness",
      "normalTexture", "occlusionTexture", "emissiveTexture", "emissiveFactor"] ++ additions) value
  let _ ← members.optional? "alphaCutoff" Value.single?
  let _ ← members.withDefault? "alphaMode" (keywordOf? alphaModes) ""
  let _ ← members.withDefault? "doubleSided" Value.boolean? false
  let _ ← members.optional? "normalTexture" (texture? counts ["scale"])
  let _ ← members.optional? "occlusionTexture" (texture? counts ["strength"])
  let _ ← members.optional? "emissiveTexture" (texture? counts [])
  let _ ← members.withDefault? "emissiveFactor" vec3? 0
  return {
    name := ← name? members
    baseColor := ← members.withDefault? "pbrMetallicRoughness" (surface? counts) ⟨1, 1, 1, 1⟩ }

def image? (counts : Counts) (value : Value) : Option Document.Image := do
  let members ← record? ["bufferView", "mimeType", "name", "uri"] additions value
  let _ ← name? members
  return {
    view := ← members.optional? "bufferView" (index? counts .bufferViews)
    mediaType := ← members.optional? "mimeType" Value.text?
    uri := ← members.optional? "uri" Value.text? }

def textureOfImage? (counts : Counts) (value : Value) : Option Unit := do
  let members ← record? ["name", "sampler", "source"] additions value
  let _ ← name? members
  let _ ← members.optional? "sampler" (index? counts .samplers)
  let _ ← members.required? "source" (index? counts .images)

/-- How textures are looked up. -/
def filters : List Nat := [9728, 9729]

/-- How textures are looked up from far away. -/
def farFilters : List Nat := filters ++ [9984, 9985, 9986, 9987]

/-- How textures go on beyond their edges. -/
def wrappings : List Nat := [33071, 33648, 10497]

def textureSampler? (value : Value) : Option Unit := do
  let members ← record? [] (["magFilter", "minFilter", "name", "wrapS", "wrapT"] ++ additions) value
  let _ ← name? members
  let _ ← members.optional? "magFilter" (codeOf? filters)
  let _ ← members.optional? "minFilter" (codeOf? farFilters)
  let _ ← members.withDefault? "wrapS" (codeOf? wrappings) 0
  let _ ← members.withDefault? "wrapT" (codeOf? wrappings) 0

/-! ## Meshes, skins and nodes -/

/-- The modes with their codes. -/
def modeCodes : List (Nat × Mode) := Mode.all.zipIdx.map fun (mode, code) => (code, mode)

/-- Accessors by attribute; of an attribute that comes more than once, the last entry counts. -/
def attributes? (counts : Counts) (value : Value) : Option (List (Attribute × Nat)) := do
  let members ← value.members?
  let entries ← members.mapM fun (name, value) => do
    return (← Attribute.ofName? name, ← word? value)
  let last := entries.reverse.eraseDupsBy fun a b => a.1 == b.1
  if last.all fun (_, position) => position < counts .accessors then some last else none

/-- Accessors of a changed form of a part. -/
def morph? (counts : Counts) (value : Value) : Option Unit := do
  let members ← members? ["POSITION", "NORMAL", "TANGENT"] [] value
  let _ ← members.optional? "POSITION" (index? counts .accessors)
  let _ ← members.optional? "NORMAL" (index? counts .accessors)
  let _ ← members.optional? "TANGENT" (index? counts .accessors)

def part? (counts : Counts) (value : Value) : Option Document.Part := do
  let members ← record?
    ["attributes", "extensions", "extras", "indices", "material", "mode", "targets"] [] value
  let _ ← members.optional? "targets" (·.list? (morph? counts))
  return {
    attributes := ← members.required? "attributes" (attributes? counts)
    indices := ← members.optional? "indices" (index? counts .accessors)
    material := ← members.optional? "material" (index? counts .materials)
    mode := ← members.withDefault? "mode" (code? modeCodes) .triangles }

def mesh? (counts : Counts) (value : Value) : Option Document.Mesh := do
  let members ← record? ["extensions", "extras", "name", "primitives", "weights"] [] value
  let _ ← members.optional? "weights" (·.list? Value.single?)
  return {
    name := ← name? members
    parts := ← members.required? "primitives" (·.list? (part? counts)) }

def skin? (counts : Counts) (value : Value) : Option Document.Skin := do
  let members ← record?
    ["extensions", "extras", "inverseBindMatrices", "joints", "name", "skeleton"] [] value
  let _ ← name? members
  let _ ← members.optional? "skeleton" (index? counts .nodes)
  return {
    inverseBinds := ← members.optional? "inverseBindMatrices" (index? counts .accessors)
    joints := ← members.required? "joints" (·.list? (index? counts .nodes)) }

/-- A matrix, or else a scale, a rotation and a translation. -/
def transform? (members : Members) : Option (Mat4 Single) := do
  let matrix ← members.optional? "matrix" mat4?
  let translation ← members.optional? "translation" vec3?
  let rotation ← members.optional? "rotation" vec4?
  let scale ← members.optional? "scale" vec3?
  let q := rotation.getD ⟨0, 0, 0, 1⟩
  return matrix.getD
    (Mat4.compose (translation.getD 0) ⟨q.x, q.y, q.z, q.w⟩ (scale.getD ⟨1, 1, 1⟩))

def node? (counts : Counts) (value : Value) : Option Document.Node := do
  let members ← record?
    ["camera", "children", "extensions", "extras", "matrix", "mesh", "name", "rotation",
      "scale", "translation", "skin", "weights"] [] value
  let _ ← members.optional? "camera" (index? counts .cameras)
  let _ ← members.optional? "weights" (·.list? Value.single?)
  return {
    name := ← name? members
    transform := ← transform? members
    children := (← members.optional? "children" (·.list? (index? counts .nodes))).getD []
    mesh := ← members.optional? "mesh" (index? counts .meshes)
    skin := ← members.optional? "skin" (index? counts .skins) }

/-- The nodes at the top of a scene. -/
def scene? (counts : Counts) (value : Value) : Option (List Nat) := do
  let members ← record? ["extensions", "extras", "name", "nodes"] [] value
  let _ ← name? members
  members.required? "nodes" (·.list? (index? counts .nodes))

/-! ## Cameras -/

def orthographic? (value : Value) : Option Unit := do
  let members ← record? ["xmag", "ymag", "zfar", "znear"] additions value
  let _ ← members.required? "xmag" Value.single?
  let _ ← members.required? "ymag" Value.single?
  let _ ← members.required? "zfar" Value.single?
  let _ ← members.required? "znear" Value.single?

def perspective? (value : Value) : Option Unit := do
  let members ← record? ["aspectRatio", "yfov", "zfar", "znear"] additions value
  let _ ← members.optional? "aspectRatio" Value.single?
  let _ ← members.required? "yfov" Value.single?
  let _ ← members.optional? "zfar" Value.single?
  let _ ← members.required? "znear" Value.single?

/-- A camera has one of the two projections. -/
def camera? (value : Value) : Option Unit := do
  let members ← record? ["name", "orthographic", "perspective", "type"] additions value
  let _ ← name? members
  let _ ← members.required? "type" (keywordOf? ["orthographic", "perspective"])
  let parallel ← members.optional? "orthographic" orthographic?
  let central ← members.optional? "perspective" perspective?
  if parallel.isNone && central.isNone then none else some ()

/-! ## Animations -/

def sampler? (counts : Counts) (value : Value) : Option Document.Sampler := do
  let members ← record? ["extensions", "extras", "input", "interpolation", "output"] [] value
  return {
    input := ← members.required? "input" (index? counts .accessors)
    output := ← members.required? "output" (index? counts .accessors)
    interpolation :=
      ← members.withDefault? "interpolation" (keyword? Interpolation.names) .linear }

/-- A channel. Whether its node exists and its property is known matters once the channel is used. -/
def channel? (value : Value) : Option Document.Channel := do
  let members ← record? ["sampler", "target"] additions value
  let target ← members.required? "target" (record? ["extensions", "extras", "node", "path"] [])
  return {
    sampler := ← members.required? "sampler" word?
    node := ← target.required? "node" word?
    property := Property.names.lookup (← target.required? "path" Value.text?) }

def animation? (counts : Counts) (value : Value) : Option Document.Animation := do
  let members ← record? ["extensions", "extras", "channels", "name", "samplers"] [] value
  let samplers ← members.required? "samplers" (·.list? (sampler? counts))
  let channels ← members.required? "channels" (·.list? channel?)
  if channels.all fun channel => channel.sampler < samplers.length then
    return ⟨← name? members, samplers, channels⟩
  else none

/-! ## Documents -/

def asset? (value : Value) : Option Unit := do
  let members ← record?
    ["copyright", "extensions", "extras", "generator", "minVersion", "version"] [] value
  let _ ← members.required? "version" Value.text?
  let _ ← members.optional? "copyright" Value.text?
  let _ ← members.optional? "generator" Value.text?
  let _ ← members.optional? "minVersion" Value.text?

/-- A list of a document; without it there are no entries. -/
def entries? {α : Type} (members : Members) (name : String) (item? : Value → Option α) :
    Option (List α) :=
  members.withDefault? name (·.list? item?) []

/-- Members of which nothing is kept. No extension may be required. -/
def unused? (members : Members) (counts : Counts) : Option Unit := do
  let _ ← members.required? "asset" asset?
  let _ ← entries? members "extensionsUsed" Value.text?
  let _ ← entries? members "cameras" camera?
  let _ ← entries? members "samplers" textureSampler?
  let _ ← entries? members "textures" (textureOfImage? counts)
  let required ← entries? members "extensionsRequired" Value.text?
  if required.isEmpty then some () else none

end Schema

namespace Document

/-- Whether every part of a mesh has positions with bounds. -/
def positionsBounded (document : Document) : Bool :=
  document.meshes.all fun mesh => mesh.parts.all fun part =>
    ((part.attributes.lookup .position).bind (document.accessors[·]?)).any (·.bounded)

open Schema

/-- The members of documents. -/
def neededMembers : List String :=
  ["accessors", "animations", "asset", "buffers", "bufferViews", "scene"]

/-- The members of documents that lists of their values may go on with. -/
def moreMembers : List String :=
  additions ++ ["extensionsUsed", "extensionsRequired", "cameras", "images", "materials", "meshes",
    "nodes", "samplers", "scenes", "skins", "textures"]

def ofJson? (value : Value) : Option Document := do
  let members ← record? neededMembers moreMembers value
  let counts := Counts.ofMembers members
  unused? members counts
  let document : Document := {
    buffers := (← entries? members "buffers" buffer?).toArray
    views := (← entries? members "bufferViews" (view? counts)).toArray
    accessors := (← entries? members "accessors" (accessor? counts)).toArray
    images := ← entries? members "images" (image? counts)
    materials := (← entries? members "materials" (material? counts)).toArray
    meshes := (← entries? members "meshes" (mesh? counts)).toArray
    skins := (← entries? members "skins" (skin? counts)).toArray
    nodes := (← entries? members "nodes" (node? counts)).toArray
    animations := ← entries? members "animations" (animation? counts)
    scenes := (← entries? members "scenes" (scene? counts)).toArray
    scene := ← members.optional? "scene" (index? counts .scenes) }
  if document.positionsBounded then some document else none

end Document

end SceneBaker.Gltf
