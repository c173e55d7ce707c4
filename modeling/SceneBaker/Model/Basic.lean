import SceneBaker.Model.Tree

/-! # Models

A model holds meshes, a node tree, a skeleton and the names of its materials. `validate` checks
every stored index against the table it refers to; decoding ends with that check. Bone names are
not stored and come back from the bone nodes.
-/

namespace SceneBaker.Model

open Number SceneBaker.Geometry Binary Mesh

structure Bone where
  name : String := ""
  /-- The index of the node of the same name. -/
  index : UInt32 := 0
  /-- From model space to bone space. -/
  offset : DualQuat Single := 1
deriving DecidableEq

namespace Bone

instance : Inhabited Bone := ⟨{}⟩

def encode (bone : Bone) : Output := .index bone.index ++ .dualQuat bone.offset

/-- A bone without its name. -/
def decode : Reader Bone := do
  let index ← Reader.index .bone
  return { index, offset := ← Reader.dualQuat }

end Bone

structure Model where
  /-- The revision of the file that the model was read from. -/
  version : Version := .current
  /-- The one format of all meshes, in files before per-mesh formats. -/
  sharedFormat : Option VertexFormat := none
  meshes : List Mesh := []
  nodes : NodeTree := .empty
  skeleton : List Bone := []
  materials : List String := []
deriving DecidableEq

namespace Model

instance : Inhabited Model := ⟨{}⟩

def nodeCount (model : Model) : UInt32 := UInt32.ofNat model.nodes.size

def boneCount (model : Model) : UInt32 := UInt32.ofNat model.skeleton.length

/-- The first node of that name in preorder. -/
def findNode? (model : Model) (name : String) : Option Node := (model.nodes.find? name).map (·.2)

def findBone? (model : Model) (name : String) : Option Bone :=
  model.skeleton.find? (·.name == name)

def bone? (model : Model) (index : UInt32) : Option Bone := model.skeleton.find? (·.index == index)

/-! ## Validation -/

/-- An index has to lie inside its table. -/
def checkIndex (table : Table) (index count : UInt32) : Except CodecError Unit :=
  if index < count then .ok () else .error (.indexOutOfRange table index count)

/-- An index has to lie inside its table and to be new; `seen` marks the indices met before, and the
result marks this one too. -/
def checkNew (table : Table) (seen : Array Bool) (index count : UInt32) :
    Except CodecError (Array Bool) := do
  checkIndex table index count
  if seen[index.toNat]? = some true then .error (.duplicateIndex table index)
  return seen.setIfInBounds index.toNat true

/-- Check the nodes in arena order; `seen` marks the indices of the ones before. -/
def checkNodes (model : Model) : (seen : Array Bool) → List Node → Except CodecError Unit
  | _, [] => .ok ()
  | seen, node :: nodes => do
    let seen ← checkNew .node seen node.index model.nodeCount
    if node.isBone then checkIndex .bone node.index model.boneCount
    node.meshes.forM fun mesh => checkIndex .mesh mesh (UInt32.ofNat model.meshes.length)
    model.checkNodes seen nodes

/-- Check the bones in order; `seen` marks the indices of the ones before. -/
def checkBones (model : Model) : (seen : Array Bool) → List Bone → Except CodecError Unit
  | _, [] => .ok ()
  | seen, bone :: bones => do
    let seen ← checkNew .bone seen bone.index model.boneCount
    model.checkBones seen bones

/-- The material of a mesh and the bones with a weight other than zero have to exist. -/
def checkMesh (model : Model) (mesh : Mesh) : Except CodecError Unit := do
  checkIndex .material mesh.material (UInt32.ofNat model.materials.length)
  if mesh.format.bones then
    mesh.vertices.forM fun vertex =>
      vertex.influences.forM fun (bone, weight) =>
        if weight.numEq 0 then .ok () else checkIndex .bone bone model.boneCount

/-- Check every stored index: nodes, then bones, then meshes. -/
def validate (model : Model) : Except CodecError Unit := do
  model.checkNodes (Array.replicate model.nodes.size false) model.nodes.nodes.toList
  model.checkBones (Array.replicate model.skeleton.length false) model.skeleton
  model.meshes.forM model.checkMesh

/-! ## Bone names -/

/-- Name the first bone with an index. -/
def nameBone (index : UInt32) (name : String) : List Bone → List Bone
  | [] => []
  | bone :: bones =>
    if bone.index = index then { bone with name := name } :: bones
    else bone :: nameBone index name bones

/-- Give the bones the names of the bone nodes with their indices. -/
def nameBones (model : Model) : Model :=
  { model with
    skeleton := model.nodes.nodes.toList.foldl
      (fun bones node => if node.isBone then nameBone node.index node.name bones else bones)
      model.skeleton }

/-! ## Encoding -/

/-- `BBMOD` and a zero; two version bytes follow. -/
def magic : List UInt8 := [0x42, 0x42, 0x4d, 0x4f, 0x44, 0]

/-- `bbmod` and a zero; one version byte follows, and the minor revision is 0. -/
def legacyMagic : List UInt8 := [0x62, 0x62, 0x6d, 0x6f, 0x64, 0]

/-- The tree that is stored: every file has a root node. -/
def storedTree (model : Model) : NodeTree :=
  if model.nodes.isEmpty then .ofRoot {} else model.nodes

def encode (model : Model) : Output :=
  .ofBytes magic ++ .u8 Version.current.major ++ .u8 Version.current.minor
    ++ .count .mesh model.meshes.length ++ .each model.meshes Mesh.encode
    ++ .count .node model.storedTree.size ++ model.storedTree.encode
    ++ .count .bone model.skeleton.length ++ .each model.skeleton Bone.encode
    ++ .count .material model.materials.length ++ .each model.materials Output.text

def toBytes (model : Model) : Except CodecError (List UInt8) := model.encode.result

/-- The version behind either magic, which has to be supported. -/
def decodeVersion : Reader Version := do
  let found ← Reader.take magic.length
  let version ←
    if found = magic then pure ⟨← Reader.u8, ← Reader.u8⟩
    else if found = legacyMagic then pure ⟨← Reader.u8, 0⟩
    else .fail (.unknownMagic found)
  if version.supported then pure version else .fail (.unsupportedVersion version)

/-- Read a model of any supported revision. -/
def decode : Reader Model := do
  let version ← decodeVersion
  let sharedFormat ←
    if version.minor < Mesh.formatMinor then some <$> VertexFormat.decode version else pure none
  let meshCount ← Reader.u32
  let meshes ← Reader.times meshCount.toNat (Mesh.decode version sharedFormat)
  let nodeCount ← Reader.u32
  let nodes ← NodeTree.decode
  if nodes.size ≠ nodeCount.toNat then
    Reader.fail (.countMismatch .node nodeCount nodes.size)
  let boneCount ← Reader.u32
  let skeleton ← Reader.times boneCount.toNat Bone.decode
  let materialCount ← Reader.u32
  let materials ← Reader.times materialCount.toNat Reader.text
  let model : Model := { version, sharedFormat, meshes, nodes, skeleton, materials }
  Reader.ofExcept model.validate
  return model.nameBones

def ofBytes (bytes : List UInt8) : Except CodecError Model := decode.run bytes

end Model

end SceneBaker.Model
