import SceneBaker.Animation.Basic
import SceneBaker.Proofs.Binary.Cost
import SceneBaker.Proofs.Binary.Size
import SceneBaker.Proofs.Model.RoundTrip
import SceneBaker.Proofs.Truncation

/-! # How much a file decodes to

Every element of a file that is accepted was paid for with bytes, whatever counts the file states.
There is one exception: the vertices of a mesh that stores no attribute take no bytes, and a short
file can have any number of them.
-/

set_option linter.dupNamespace false

namespace SceneBaker.Mesh

open Binary

/-! ## Meshes -/

namespace VertexFormat

theorem stride_eq (format : VertexFormat) : format.stride =
    (if format.position then 12 else 0) + (if format.normal then 12 else 0)
      + (if format.uv0 then 8 else 0) + (if format.uv1 then 8 else 0)
      + (if format.color then 4 else 0) + (if format.tangent then 16 else 0)
      + (if format.bones then 32 else 0) + (if format.ids then 4 else 0) := by
  obtain ⟨position, normal, uv0, uv1, color, tangent, bones, ids⟩ := format
  revert position normal uv0 uv1 color tangent bones ids
  decide

end VertexFormat

private theorem affords_given {α : Type} {reader : Reader α} {size : Nat} (stored : Bool)
    (default : α) (affords : reader.Affords 0 fun _ => size) :
    (if stored = true then reader else pure default).Affords 0 fun _ =>
      if stored = true then size else 0 := by
  cases stored with
  | true => exact affords
  | false => exact .pure le_rfl

/-- A vertex takes the bytes of its format. -/
theorem Vertex.affords_decode (format : VertexFormat) :
    (Vertex.decode format).Affords 0 fun _ => format.stride := by
  have index := Reader.affords_index .bone
  have indices : Reader.Affords (do return ⟨← Reader.index .bone, ← Reader.index .bone,
      ← Reader.index .bone, ← Reader.index .bone⟩ : Reader (Geometry.Vec4 UInt32)) 0 fun _ => 16 :=
    index.pay fun _ => index.pay fun _ => index.pay fun _ => index.pay fun _ => .pure le_rfl
  unfold Vertex.decode
  apply (affords_given _ _ Reader.affords_vec3).pay
  intro position
  apply (affords_given _ _ Reader.affords_vec3).pay
  intro normal
  apply (affords_given _ _ Reader.affords_vec2).pay
  intro uv0
  apply (affords_given _ _ Reader.affords_vec2).pay
  intro uv1
  apply (affords_given _ _ Reader.affords_u32).pay
  intro color
  apply (affords_given _ _ Reader.affords_vec3).pay
  intro tangent
  apply (affords_given _ _ Reader.affords_single).pay
  intro sign
  apply (affords_given _ _ indices).pay
  intro boneIndices
  apply (affords_given _ _ Reader.affords_vec4).pay
  intro boneWeights
  apply (affords_given _ _ Reader.affords_i32).pay
  intro id
  apply Reader.Affords.pure
  -- Tangents and bones are stored in two parts each.
  have tangents : (if format.tangent then 16 else 0) =
      (if format.tangent then 12 else 0) + (if format.tangent then 4 else 0) := by
    split <;> rfl
  have bones : (if format.bones then 32 else 0) =
      (if format.bones then 16 else 0) + (if format.bones then 16 else 0) := by
    split <;> rfl
  rw [format.stride_eq, tangents, bones]
  omega

namespace Mesh

/-- A byte for the mesh, and the bytes of its vertices. -/
def charge (mesh : Mesh) : Nat := 1 + mesh.vertices.length * mesh.format.stride

theorem affords_decode (version : Version) (shared : Option VertexFormat) :
    (Mesh.decode version shared).Affords 0 charge := by
  have vertices (format : VertexFormat) (f : List Vertex → Mesh)
      (cost : ∀ vertices, (f vertices).charge = 1 + vertices.length * format.stride) :
      Reader.Affords (do return f (← Reader.times (← Reader.u32).toNat (Vertex.decode format)))
        4 charge := by
    apply Reader.Affords.skip Reader.delimited_u32
    intro count
    apply ((Vertex.affords_decode format).times_const count.toNat).pay
    intro vertices
    apply Reader.Affords.pure
    rw [cost]
    omega
  have formatted (f : VertexFormat → Primitive → List Vertex → Mesh)
      (cost : ∀ format primitive vertices,
        (f format primitive vertices).charge = 1 + vertices.length * format.stride) :
      Reader.Affords (if formatMinor ≤ version.minor then do
        let format ← VertexFormat.decode version
        let primitive ← Reader.ofExcept (Primitive.ofCode (← Reader.u8))
        return f format primitive (← Reader.times (← Reader.u32).toNat (Vertex.decode format))
      else do
        let format := shared.getD .positionOnly
        return f format .triangles
          (← Reader.times (← Reader.u32).toNat (Vertex.decode format))) 4 charge := by
    apply Reader.Affords.ite
    · intro own
      apply Reader.Affords.skip (VertexFormat.delimited_decode version)
      intro format
      apply Reader.Affords.skip Reader.delimited_u8
      intro code
      apply Reader.Affords.skip (.ofExcept _)
      intro primitive
      exact vertices format _ (cost format primitive)
    · intro common
      exact vertices _ _ (cost _ _)
  unfold Mesh.decode
  apply Reader.affords_u32.pay
  intro material
  apply Reader.Affords.ite
  · intro bounded
    apply Reader.Affords.skip (Bounds.delimited_decode.map some)
    intro bounds
    exact formatted (fun format primitive vertices =>
      { material, primitive, bounds, format, vertices }) fun _ _ _ => rfl
  · intro unbounded
    exact formatted (fun format primitive vertices =>
      { material, primitive, bounds := none, format, vertices }) fun _ _ _ => rfl

end Mesh

end SceneBaker.Mesh

namespace SceneBaker.Model

open Binary Mesh

/-! ## Models -/

/-- A byte for the node, and one for each mesh it lists. -/
def Node.charge (node : Node) : Nat := 1 + node.meshes.length

theorem Node.affords_decode : Node.decode.Affords 0 fun read => read.1.charge := by
  unfold Node.decode
  apply Reader.affords_text.pay
  intro name
  apply Reader.Affords.skip (Reader.delimited_index .node)
  intro index
  apply Reader.Affords.skip Reader.delimited_bool
  intro isBone
  apply Reader.Affords.skip Reader.delimited_dualQuat
  intro transform
  apply Reader.Affords.skip Reader.delimited_u32
  intro meshCount
  apply (Reader.affords_u32.times_const meshCount.toNat).pay
  intro meshes
  apply Reader.Affords.skip Reader.delimited_u32
  intro childCount
  apply Reader.Affords.pure
  change 1 + meshes.length ≤ _
  omega

namespace NodeTree

def charge (tree : NodeTree) : Nat := (tree.nodes.toList.map Node.charge).sum

/-- A link to a new child costs nothing. -/
theorem charge_attach (tree : NodeTree) (parent : Nat) (node : Node) :
    (tree.attach parent node).charge = tree.charge + node.charge := by
  have linked : ((tree.nodes.modify parent fun above =>
      { above with children := above.children ++ [tree.size] }).toList.map Node.charge) =
      tree.nodes.toList.map Node.charge := by
    rw [← Array.toList_map, ← Array.toList_map]
    congr 1
    refine Array.ext_getElem? fun position => ?_
    rw [Array.getElem?_map, Array.getElem?_map, Array.getElem?_modify]
    split
    case isTrue => cases tree.nodes[position]? <;> rfl
    case isFalse => rfl
  rw [charge, attach, Array.toList_push, List.map_append, List.sum_append, linked]
  simp [charge]

/-- The nodes that are there have been paid for, and every further one is as it is read. -/
theorem affords_decodeRest (bound : Nat) (pending : List (Nat × Nat)) (tree : NodeTree) :
    (decodeRest bound pending tree).Affords tree.charge charge := by
  induction bound generalizing pending tree with
  | zero =>
    induction pending with
    | nil =>
      rw [decodeRest_nil]
      exact .pure le_rfl
    | cons entry pending ih =>
      match entry with
      | (parent, 0) =>
        rw [decodeRest_done]
        exact ih
      | (parent, waiting + 1) => exact .fail .truncated
  | succ bound bound_ih =>
    induction pending with
    | nil =>
      rw [decodeRest_nil]
      exact .pure le_rfl
    | cons entry pending ih =>
      match entry with
      | (parent, 0) =>
        rw [decodeRest_done]
        exact ih
      | (parent, waiting + 1) =>
        rw [decodeRest_succ]
        apply Node.affords_decode.pay
        intro read
        rw [← charge_attach tree parent]
        exact bound_ih _ _

theorem affords_decode : NodeTree.decode.Affords 0 charge := by
  unfold NodeTree.decode
  apply Node.affords_decode.pay
  intro read bytes
  have root : (ofRoot read.1).charge = 0 + read.1.charge := by
    simp [charge, ofRoot]
  rw [← root]
  exact affords_decodeRest bytes.length _ _ bytes

end NodeTree

theorem Bone.affords_decode : Bone.decode.Affords 0 fun _ => 36 :=
  (Reader.affords_index .bone).pay fun _ => Reader.affords_dualQuat.pay fun _ => .pure le_rfl

namespace Model

/-- Everything that reading a model allocates. -/
def entries (model : Model) : Nat :=
  model.meshes.length + (model.meshes.map (·.vertices.length)).sum + model.nodes.size
    + (model.nodes.nodes.toList.map (·.meshes.length)).sum + model.skeleton.length
    + model.materials.length

/-- Vertices without any stored attribute. -/
def hollowVertices (model : Model) : Nat :=
  ((model.meshes.filter (·.format.stride = 0)).map (·.vertices.length)).sum

def charge (model : Model) : Nat :=
  (model.meshes.map Mesh.charge).sum + model.nodes.charge + model.skeleton.length
    + model.materials.length

theorem charge_nameBones (model : Model) : model.nameBones.charge = model.charge := by
  have named (bones : List Bone) (index : UInt32) (name : String) :
      (nameBone index name bones).length = bones.length := by
    induction bones with
    | nil => rfl
    | cons bone bones ih =>
      rw [nameBone]
      split
      case isTrue => rfl
      case isFalse => rw [List.length_cons, ih, List.length_cons]
  have length (nodes : List Node) (bones : List Bone) : (nodes.foldl
      (fun bones node => if node.isBone then nameBone node.index node.name bones else bones)
      bones).length = bones.length := by
    induction nodes generalizing bones with
    | nil => rfl
    | cons node nodes ih =>
      rw [List.foldl_cons, ih]
      split
      case isTrue => exact named _ _ _
      case isFalse => rfl
  rw [charge, nameBones, length]
  rfl

theorem affords_decodeTables (version : Version) (shared : Option VertexFormat) :
    (decodeTables version shared).Affords 0 charge := by
  unfold decodeTables
  apply Reader.Affords.skip Reader.delimited_u32
  intro meshCount
  apply ((Mesh.affords_decode version shared).times _).pay
  intro meshes
  apply Reader.Affords.skip Reader.delimited_u32
  intro nodeCount
  apply NodeTree.affords_decode.pay
  intro nodes
  apply Reader.Affords.ite
  · intro mismatch
    exact .fail_bind _ _
  · intro agreed
    apply Reader.Affords.skip Reader.delimited_u32
    intro boneCount
    apply (Bone.affords_decode.times_const _).pay
    intro skeleton
    apply Reader.Affords.skip Reader.delimited_u32
    intro materialCount
    apply (Reader.affords_text.times_const _).pay
    intro materials
    apply Reader.Affords.skip (.ofExcept _)
    intro valid
    apply Reader.Affords.pure
    rw [charge_nameBones]
    change (meshes.map Mesh.charge).sum + nodes.charge + skeleton.length + materials.length ≤ _
    omega

theorem affords_decode : Model.decode.Affords 0 charge := by
  rw [decode_eq]
  apply Reader.Affords.skip delimited_decodeVersion
  intro version
  apply Reader.Affords.skip (delimited_shared version)
  intro shared
  exact affords_decodeTables version shared

/-- All that reading allocates is charged, except for vertices without any stored attribute. -/
theorem entries_le (model : Model) : model.entries ≤ model.charge + model.hollowVertices := by
  have vertices : model.meshes.length + (model.meshes.map (·.vertices.length)).sum ≤
      (model.meshes.map Mesh.charge).sum + model.hollowVertices := by
    rw [hollowVertices]
    induction model.meshes with
    | nil => exact le_rfl
    | cons mesh meshes ih =>
      by_cases hollow : mesh.format.stride = 0
      · simp only [List.length_cons, List.map_cons, List.sum_cons, Mesh.charge, hollow,
          List.filter_cons_of_pos, decide_true]
        omega
      · have stored : mesh.vertices.length ≤ mesh.vertices.length * mesh.format.stride :=
          Nat.le_mul_of_pos_right _ (Nat.pos_of_ne_zero hollow)
        simp only [List.length_cons, List.map_cons, List.sum_cons, Mesh.charge, hollow,
          List.filter_cons_of_neg, decide_false, Bool.false_eq_true, not_false_eq_true]
        omega
  have nodes : model.nodes.size + (model.nodes.nodes.toList.map (·.meshes.length)).sum =
      model.nodes.charge := by
    rw [NodeTree.charge, NodeTree.size, ← Array.length_toList]
    induction model.nodes.nodes.toList with
    | nil => rfl
    | cons node nodes ih =>
      simp only [List.length_cons, List.map_cons, List.sum_cons, Node.charge]
      omega
  rw [entries, charge]
  omega

end Model

end SceneBaker.Model

namespace SceneBaker.Animation

open Binary

/-! ## Animations -/

namespace FrameFile

/-- A frame takes more bytes than it stores numbers. -/
theorem affords_decodePose (header : Header) :
    (decodePose header).Affords 0 fun _ => header.floatsPerFrame := by
  have transforms (stored : Bool) (count : UInt32) : Reader.Affords
      (if stored = true then return (← Reader.times count.toNat Reader.dualQuat).toArray
        else pure #[]) 0 fun _ => if stored = true then count.toNat * 8 else 0 := by
    cases stored with
    | false => exact .pure le_rfl
    | true =>
      have all : (Reader.times count.toNat Reader.dualQuat).Affords 0 fun _ => count.toNat * 8 := by
        intro bytes values rest accepted
        obtain ⟨length, -⟩ := (Reader.Ensures.trivial Reader.dualQuat).times _ _ _ _ accepted
        have paid := Reader.affords_dualQuat.times_const _ _ _ _ accepted
        simp only [length] at paid
        exact (Nat.add_le_add_right (Nat.mul_le_mul_left _ (by decide)) _).trans paid
      exact all.bind_pure _
  unfold decodePose
  apply (transforms _ _).pay
  intro parent
  apply (transforms _ _).pay
  intro world
  apply (transforms _ _).pay
  intro bone
  apply Reader.Affords.pure
  rw [Header.floatsPerFrame, Nat.zero_add]

/-- Frames are read only if they take bytes. -/
theorem affords_decode (header : Header) :
    (FrameFile.decode header).Affords 0 fun file => file.frames.length := by
  have frames : (Reader.times (if header.floatsPerFrame = 0 then 0 else header.frameCount)
      (decodePose header)).Affords 0 List.length := by
    split
    case isTrue => exact .pure le_rfl
    case isFalse stored =>
      apply ((affords_decodePose header).times_const _).mono
      intro frames
      exact Nat.le_mul_of_pos_right _ (Nat.pos_of_ne_zero stored)
  unfold FrameFile.decode
  apply frames.bind
  intro frames
  exact .skip Reader.delimited_u32 fun events => .pure le_rfl

end FrameFile

namespace KeyFile

/-- A byte for the track, and one for each key. -/
def chargeTrack (track : KeyTrack) : Nat := 1 + track.keys.length

theorem affords_decodeTrack (nodeCount : UInt32) :
    (decodeTrack nodeCount).Affords 0 chargeTrack := by
  have key : decodeKey.Affords 0 fun _ => 40 :=
    Reader.affords_double.pay fun _ => Reader.affords_dualQuat.pay fun _ => .pure le_rfl
  unfold decodeTrack
  apply (Reader.affords_index .animationNode).pay
  intro index
  apply Reader.Affords.skip (.ofExcept _)
  intro inside
  apply Reader.Affords.skip Reader.delimited_u32
  intro count
  apply (key.times_const count.toNat).pay
  intro keys
  apply Reader.Affords.pure
  change 1 + keys.length ≤ _
  omega

theorem affords_decode : KeyFile.decode.Affords 0 fun file => (file.tracks.map chargeTrack).sum := by
  unfold KeyFile.decode
  apply Reader.Affords.skip Reader.delimited_u8
  intro major
  apply Reader.Affords.ite
  · intro unsupported
    exact .fail_bind _ _
  · intro supported
    apply Reader.Affords.skip Reader.delimited_double
    intro duration
    apply Reader.Affords.skip Reader.delimited_double
    intro rate
    apply Reader.Affords.skip Reader.delimited_u32
    intro nodeCount
    apply Reader.Affords.skip Reader.delimited_u32
    intro trackCount
    apply ((affords_decodeTrack nodeCount).times _).pay
    intro tracks
    apply Reader.Affords.pure
    exact (Nat.zero_add _).ge

end KeyFile

namespace AnimationFile

/-- Frames, or tracks and their keys. -/
def entries : AnimationFile → Nat
  | frames file => file.frames.length
  | keys file => file.tracks.length + (file.tracks.map (·.keys.length)).sum

theorem affords_decode : AnimationFile.decode.Affords 0 entries := by
  have tracks (file : KeyFile) : (keys file).entries = (file.tracks.map KeyFile.chargeTrack).sum := by
    rw [entries]
    induction file.tracks with
    | nil => rfl
    | cons track tracks ih =>
      simp only [List.length_cons, List.map_cons, List.sum_cons, KeyFile.chargeTrack]
      omega
  unfold AnimationFile.decode
  apply Reader.Affords.skip (Reader.delimited_take _)
  intro found
  apply Reader.Affords.ite
  · intro framed
    apply Reader.Affords.skip Header.delimited_decodeFields
    intro header
    exact (FrameFile.affords_decode header).bind fun file => .pure le_rfl
  · intro other
    apply Reader.Affords.ite
    · intro keyed
      exact KeyFile.affords_decode.bind fun file => .pure (tracks file).le
    · intro unknown
      exact .fail _

end AnimationFile

end SceneBaker.Animation

namespace SceneBaker

open Binary Mesh Model Animation

/-- What an accepted file decodes to is bounded by its bytes, apart from the vertices of meshes that
store no attribute. -/
theorem entries_le_length {bytes : List UInt8} :
    (∀ model, Model.Model.ofBytes bytes = .ok model →
      model.entries ≤ bytes.length + model.hollowVertices) ∧
    ∀ file, AnimationFile.ofBytes bytes = .ok file → file.entries ≤ bytes.length := by
  constructor
  · intro model accepted
    obtain ⟨rest, read⟩ := Reader.run_eq_ok_iff.mp accepted
    have charged := Model.Model.affords_decode _ _ _ read
    have entries := model.entries_le
    omega
  · intro file accepted
    obtain ⟨rest, read⟩ := Reader.run_eq_ok_iff.mp accepted
    have charged := AnimationFile.affords_decode _ _ _ read
    omega

theorem entries_le_length_oldFile :
    (Model.Model.ofBytes Model.Model.oldFile = .ok Model.Model.oldModel ∧
      Model.Model.oldModel.entries = 6 ∧
      Model.Model.oldModel.entries ≤
        Model.Model.oldFile.length + Model.Model.oldModel.hollowVertices) ∧
    AnimationFile.ofBytes walkBytes = .ok (.keys walk) ∧ (AnimationFile.keys walk).entries = 2 ∧
      (AnimationFile.keys walk).entries ≤ walkBytes.length := by
  have model : Model.Model.ofBytes Model.Model.oldFile = .ok Model.Model.oldModel := by
    decide +kernel
  have keys : AnimationFile.ofBytes walkBytes = .ok (.keys walk) := by decide +kernel
  exact ⟨⟨model, rfl, entries_le_length.1 _ model⟩, keys, rfl, entries_le_length.2 _ keys⟩

/-! ## Vertices without bytes -/

/-- A file whose one mesh states 256 vertices and stores no attribute of them. -/
def hollowFile : List UInt8 :=
  Model.Model.magic ++ [3, 3] ++ [1, 0, 0, 0]
    ++ List.replicate 28 0 ++ List.replicate 8 0 ++ [4] ++ [0, 1, 0, 0]
    ++ [1, 0, 0, 0] ++ List.replicate 46 0 ++ [0, 0, 0, 0] ++ [1, 0, 0, 0] ++ [0]

theorem hollowFile_exceeds : hollowFile.length = 112 ∧
    ∃ model, Model.Model.ofBytes hollowFile = .ok model ∧ model.entries = 259 := by
  refine ⟨rfl, ?_⟩
  have result : (Model.Model.ofBytes hollowFile).toOption.map (·.entries) = some 259 := by
    decide +kernel
  cases read : Model.Model.ofBytes hollowFile with
  | error cause => simp [read, Except.toOption] at result
  | ok model => exact ⟨model, rfl, by simpa [read, Except.toOption] using result⟩

/-- A model of one mesh with some vertices of which nothing is stored. -/
def hollow (count : Nat) : Model.Model where
  meshes := [{
    bounds := some ⟨0, 0⟩
    format := ⟨false, false, false, false, false, false, false, false⟩
    vertices := List.replicate count {} }]
  nodes := .ofRoot {}
  materials := [""]

/-- The number of its vertices does not change the size of its file. -/
theorem takes_encode_hollow {count : Nat} (few : count < 2 ^ 32) :
    (hollow count).encode.Takes 112 := by
  have vertices : (Output.each (List.replicate count {}) (Vertex.encode
      ⟨false, false, false, false, false, false, false, false⟩)).Takes (count * 0) := by
    have each : (Output.each (List.replicate count {}) (Vertex.encode
        ⟨false, false, false, false, false, false, false, false⟩)).Takes
          ((List.replicate count ({} : Vertex)).length * 0) :=
      Output.Takes.each fun vertex member => ⟨rfl, rfl⟩
    rwa [List.length_replicate] at each
  have counted : (Output.count .vertex (List.replicate count ({} : Vertex)).length).Takes 4 := by
    rw [List.length_replicate, Output.count, if_pos few]
    exact Output.takes_u32 _
  have mesh : (Output.each (hollow count).meshes Mesh.encode).Takes 41 := by
    have front : (Output.u32 0 ++ Bounds.encode ⟨0, 0⟩ ++ VertexFormat.encode
        ⟨false, false, false, false, false, false, false, false⟩ ++
          .u8 Primitive.triangles.code).Takes 37 := ⟨rfl, rfl⟩
    exact ((front.append counted).append vertices).append .empty
  have header : (Output.ofBytes Model.magic ++ .u8 Version.current.major ++
    .u8 Version.current.minor ++ .count .mesh 1).Takes 12 := ⟨rfl, rfl⟩
  have nodeCount : (Output.count .node 1).Takes 4 := ⟨rfl, rfl⟩
  have nodes : (NodeTree.ofRoot {}).encode.Takes 46 := ⟨by decide +kernel, by decide +kernel⟩
  have boneCount : (Output.count .bone 0).Takes 4 := ⟨rfl, rfl⟩
  have materialCount : (Output.count .material 1).Takes 4 := ⟨rfl, rfl⟩
  have materials : (Output.each [""] Output.text).Takes 1 := ⟨by decide +kernel, by decide +kernel⟩
  exact ((((((header.append mesh).append nodeCount).append nodes).append boneCount).append
    .empty).append materialCount).append materials

/-- A short file holds any number of vertices that store nothing. -/
theorem exists_file_hollow {count : Nat} (few : count < 2 ^ 32) : ∃ bytes model,
    bytes.length = 112 ∧ Model.Model.ofBytes bytes = .ok model ∧
      model.meshes.map (·.vertices.length) = [count] := by
  have portable : (hollow count).Portable := by
    constructor
    case vertexCounts => simpa [hollow] using few
    case kept => simp [hollow, Vertex.kept]
    case vertexBones => simp [hollow]
    all_goals simp [hollow, NodeTree.ofRoot, Reader.Unbroken]
  have valid : (hollow count).validate = .ok () := rfl
  have named : (hollow count).Named := by simp [Model.Model.Named, hollow]
  have grown : (hollow count).nodes.Grown := .root rfl
  obtain ⟨forest, spells⟩ := grown.exists_spells
  have recovers := Model.Model.recovers_decode spells grown.rooted portable.encodable
    (Model.Model.validate_eq_ok_iff.mp valid) named
  refine ⟨_, _, (takes_encode_hollow few).length,
    Reader.run_eq_ok_iff.mpr ⟨[], recovers.run_bytes⟩, ?_⟩
  simp [hollow, Model.Model.upgrade, Mesh.boxed]

end SceneBaker
