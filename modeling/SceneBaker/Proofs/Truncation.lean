import SceneBaker.Animation.Basic
import SceneBaker.Proofs.Binary.Extent
import SceneBaker.Proofs.Model.RoundTrip

/-! # Truncated files

Model files and animation files of every revision are delimited: a file that was cut off anywhere is
reported as truncated, and bytes behind its end do not matter.
-/

set_option linter.dupNamespace false

open SceneBaker.Binary

namespace SceneBaker.Mesh

/-- A value that may be left out. -/
private theorem delimited_given {α : Type} {reader : Reader α} (stored : Bool) (default : α)
    (delimited : reader.Delimited) :
    (if stored = true then reader else pure default).Delimited := .ite delimited (.pure default)

theorem VertexFormat.delimited_decode (version : Version) :
    (VertexFormat.decode version).Delimited := by
  have flag := Reader.delimited_bool
  have rest (f : Bool → Bool → Bool → Bool → VertexFormat) : Reader.Delimited (do
      return f (← Reader.bool) (← Reader.bool) (← Reader.bool) (← Reader.bool)) :=
    flag.bind fun _ => flag.bind fun _ => flag.bind fun _ => flag.bind_pure _
  unfold VertexFormat.decode
  apply flag.bind
  intro position
  apply flag.bind
  intro normal
  apply flag.bind
  intro uv0
  apply Reader.Delimited.ite
  · exact flag.bind fun uv1 => rest _
  · exact rest _

theorem Vertex.delimited_decode (format : VertexFormat) : (Vertex.decode format).Delimited := by
  have index := Reader.delimited_index .bone
  have indices : Reader.Delimited (do return ⟨← Reader.index .bone, ← Reader.index .bone,
      ← Reader.index .bone, ← Reader.index .bone⟩ : Reader (Geometry.Vec4 UInt32)) :=
    index.bind fun _ => index.bind fun _ => index.bind fun _ => index.bind_pure _
  unfold Vertex.decode
  apply (delimited_given _ _ Reader.delimited_vec3).bind
  intro position
  apply (delimited_given _ _ Reader.delimited_vec3).bind
  intro normal
  apply (delimited_given _ _ Reader.delimited_vec2).bind
  intro uv0
  apply (delimited_given _ _ Reader.delimited_vec2).bind
  intro uv1
  apply (delimited_given _ _ Reader.delimited_u32).bind
  intro color
  apply (delimited_given _ _ Reader.delimited_vec3).bind
  intro tangent
  apply (delimited_given _ _ Reader.delimited_single).bind
  intro sign
  apply (delimited_given _ _ indices).bind
  intro boneIndices
  apply (delimited_given _ _ Reader.delimited_vec4).bind
  intro boneWeights
  exact (delimited_given _ _ Reader.delimited_i32).bind_pure _

theorem Bounds.delimited_decode : Bounds.decode.Delimited :=
  Reader.delimited_vec3.bind fun _ => Reader.delimited_vec3.bind_pure _

theorem Mesh.delimited_decode (version : Version) (shared : Option VertexFormat) :
    (Mesh.decode version shared).Delimited := by
  have vertices (format : VertexFormat) (f : List Vertex → Mesh) :
      Reader.Delimited (do return f (← Reader.times (← Reader.u32).toNat (Vertex.decode format))) :=
    Reader.delimited_u32.bind fun count =>
      ((Vertex.delimited_decode format).times count.toNat).bind_pure f
  -- Before per-mesh formats, the format and the primitive are no part of a mesh.
  have formatted (f : VertexFormat → Primitive → List Vertex → Mesh) : Reader.Delimited
      (if formatMinor ≤ version.minor then do
        let format ← VertexFormat.decode version
        let primitive ← Reader.ofExcept (Primitive.ofCode (← Reader.u8))
        return f format primitive (← Reader.times (← Reader.u32).toNat (Vertex.decode format))
      else do
        let format := shared.getD .positionOnly
        return f format .triangles
          (← Reader.times (← Reader.u32).toNat (Vertex.decode format))) := by
    apply Reader.Delimited.ite
    · apply (VertexFormat.delimited_decode version).bind
      intro format
      apply Reader.delimited_u8.bind
      intro code
      apply (Reader.Delimited.ofExcept _).bind
      intro primitive
      exact vertices format _
    · exact vertices _ _
  unfold Mesh.decode
  apply Reader.delimited_u32.bind
  intro material
  apply Reader.Delimited.ite
  · apply (Bounds.delimited_decode.map some).bind
    intro bounds
    exact formatted fun format primitive vertices =>
      { material, primitive, bounds, format, vertices }
  · exact formatted fun format primitive vertices =>
      { material, primitive, bounds := none, format, vertices }

end SceneBaker.Mesh

namespace SceneBaker.Model

theorem Node.delimited_decode : Node.decode.Delimited := by
  unfold Node.decode
  apply Reader.delimited_text.bind
  intro name
  apply (Reader.delimited_index .node).bind
  intro index
  apply Reader.delimited_bool.bind
  intro isBone
  apply Reader.delimited_dualQuat.bind
  intro transform
  apply Reader.delimited_u32.bind
  intro meshCount
  apply (Reader.delimited_u32.times meshCount.toNat).bind
  intro meshes
  exact Reader.delimited_u32.bind_pure _

namespace NodeTree

private theorem spans_done (tree : NodeTree) (bytes : List UInt8) : ∃ used, bytes = used ++ bytes ∧
    (∀ bound after, used.length ≤ bound → decodeRest bound [] tree (used ++ after) = .ok (tree, after)) ∧
    ∀ bound, (decodeRest bound [] tree).Needs used := by
  refine ⟨[], rfl, ?_, ?_⟩
  · intro bound after enough
    rw [decodeRest_nil]
    rfl
  · intro bound
    rw [decodeRest_nil]
    exact (Reader.spans_pure tree).needs

/-- The bytes of the rest of a tree bound its nodes, so a bound at least that large is never met; and
a bound that is met reports the tree as truncated. -/
theorem spans_decodeRest {bound : Nat} {pending : List (Nat × Nat)} {tree result : NodeTree}
    {bytes rest : List UInt8} (accepted : decodeRest bound pending tree bytes = .ok (result, rest)) :
    ∃ used, bytes = used ++ rest ∧
      (∀ bound after, used.length ≤ bound →
        decodeRest bound pending tree (used ++ after) = .ok (result, after)) ∧
      ∀ bound, (decodeRest bound pending tree).Needs used := by
  induction bound generalizing pending tree bytes with
  | zero =>
    induction pending with
    | nil =>
      rw [decodeRest_nil] at accepted
      cases accepted
      exact spans_done _ _
    | cons entry pending ih =>
      match entry with
      | (parent, 0) =>
        simp only [decodeRest_done] at accepted ⊢
        exact ih accepted
      | (parent, waiting + 1) => cases accepted
  | succ bound bound_ih =>
    induction pending with
    | nil =>
      rw [decodeRest_nil] at accepted
      cases accepted
      exact spans_done _ _
    | cons entry pending ih =>
      match entry with
      | (parent, 0) =>
        simp only [decodeRest_done] at accepted ⊢
        exact ih accepted
      | (parent, waiting + 1) =>
        rw [decodeRest_succ] at accepted
        obtain ⟨read, middle, first, second⟩ := Reader.bind_eq_ok_iff.mp accepted
        obtain ⟨used, rfl, head⟩ := Node.delimited_decode _ _ _ first
        obtain ⟨more, rfl, reads, needs⟩ := bound_ih second
        have some := List.length_pos_iff.mpr (head.ne_nil rfl)
        refine ⟨used ++ more, (List.append_assoc ..).symm, ?_, ?_⟩
        · intro bound after enough
          rw [List.length_append] at enough
          obtain ⟨bound, rfl⟩ : ∃ less, bound = less + 1 := ⟨bound - 1, by omega⟩
          rw [decodeRest_succ, Reader.bind_apply, List.append_assoc, head.reads]
          exact reads bound after (by omega)
        · intro bound
          cases bound with
          | zero =>
            intro front missing split some
            rfl
          | succ bound =>
            rw [decodeRest_succ]
            exact Reader.Needs.bind head (needs bound)

theorem delimited_decode : NodeTree.decode.Delimited := by
  unfold NodeTree.decode
  apply Node.delimited_decode.bind
  intro root bytes tree rest accepted
  obtain ⟨used, rfl, reads, needs⟩ := spans_decodeRest accepted
  refine ⟨used, rfl, ?_, ?_⟩
  · intro after
    exact reads _ after (by simp)
  · intro front missing split some
    exact needs front.length front missing split some

end NodeTree

theorem Bone.delimited_decode : Bone.decode.Delimited :=
  (Reader.delimited_index .bone).bind fun _ => Reader.delimited_dualQuat.bind_pure _

namespace Model

theorem delimited_decodeVersion : decodeVersion.Delimited := by
  have check (version : Version) :
      Reader.Delimited (if version.supported then pure version
        else .fail (.unsupportedVersion version)) := .ite (.pure _) (.fail _)
  unfold decodeVersion
  apply (Reader.delimited_take _).bind
  intro found
  apply Reader.Delimited.ite
  · apply Reader.delimited_u8.bind
    intro major
    apply Reader.delimited_u8.bind
    intro minor
    exact check _
  · apply Reader.Delimited.ite
    · apply Reader.delimited_u8.bind
      intro major
      exact check _
    · exact .fail_bind _ _

theorem delimited_decodeTables (version : Version) (shared : Option Mesh.VertexFormat) :
    (decodeTables version shared).Delimited := by
  unfold decodeTables
  apply Reader.delimited_u32.bind
  intro meshCount
  apply ((Mesh.Mesh.delimited_decode version shared).times _).bind
  intro meshes
  apply Reader.delimited_u32.bind
  intro nodeCount
  apply NodeTree.delimited_decode.bind
  intro nodes
  apply Reader.Delimited.ite
  · exact .fail_bind _ _
  · apply Reader.delimited_u32.bind
    intro boneCount
    apply (Bone.delimited_decode.times _).bind
    intro skeleton
    apply Reader.delimited_u32.bind
    intro materialCount
    apply (Reader.delimited_text.times _).bind
    intro materials
    exact (Reader.Delimited.ofExcept _).bind_pure _

theorem delimited_shared (version : Version) : Reader.Delimited
    (if version.minor < Mesh.Mesh.formatMinor then some <$> Mesh.VertexFormat.decode version
      else pure none) :=
  .ite ((Mesh.VertexFormat.delimited_decode version).map some) (.pure none)

theorem delimited_decode : Model.decode.Delimited := by
  rw [decode_eq]
  apply delimited_decodeVersion.bind
  intro version
  exact (delimited_shared version).bind fun shared => delimited_decodeTables version shared

end Model

end SceneBaker.Model

namespace SceneBaker.Animation

theorem Header.delimited_decodeFields : Header.decodeFields.Delimited := by
  unfold Header.decodeFields
  apply Reader.delimited_u8.bind
  intro major
  apply Reader.delimited_u8.bind
  intro minor
  apply Reader.Delimited.ite
  · exact .fail_bind _ _
  · apply Reader.delimited_u8.bind
    intro bits
    apply Reader.delimited_double.bind
    intro duration
    apply Reader.delimited_double.bind
    intro rate
    apply Reader.delimited_u32.bind
    intro nodeCount
    exact Reader.delimited_u32.bind_pure _

theorem FrameFile.delimited_decode (header : Header) : (FrameFile.decode header).Delimited := by
  have transforms (stored : Bool) (count : UInt32) : Reader.Delimited
      (if stored = true then return (← Reader.times count.toNat Reader.dualQuat).toArray
        else pure #[]) :=
    .ite ((Reader.delimited_dualQuat.times _).bind_pure _) (.pure _)
  have pose : (decodePose header).Delimited :=
    (transforms _ _).bind fun _ => (transforms _ _).bind fun _ => (transforms _ _).bind_pure _
  unfold FrameFile.decode
  apply (pose.times _).bind
  intro frames
  exact Reader.delimited_u32.bind_pure _

theorem KeyFile.delimited_decode : KeyFile.decode.Delimited := by
  have key : decodeKey.Delimited :=
    Reader.delimited_double.bind fun _ => Reader.delimited_dualQuat.bind_pure _
  have track (nodeCount : UInt32) : (decodeTrack nodeCount).Delimited := by
    unfold decodeTrack
    apply (Reader.delimited_index _).bind
    intro index
    apply (Reader.Delimited.ofExcept _).bind
    intro inside
    apply Reader.delimited_u32.bind
    intro count
    exact (key.times _).bind_pure _
  unfold KeyFile.decode
  apply Reader.delimited_u8.bind
  intro major
  apply Reader.Delimited.ite
  · exact .fail_bind _ _
  · apply Reader.delimited_double.bind
    intro duration
    apply Reader.delimited_double.bind
    intro rate
    apply Reader.delimited_u32.bind
    intro nodeCount
    apply Reader.delimited_u32.bind
    intro trackCount
    exact ((track nodeCount).times _).bind_pure _

theorem AnimationFile.delimited_decode : AnimationFile.decode.Delimited := by
  unfold AnimationFile.decode
  apply (Reader.delimited_take _).bind
  intro found
  apply Reader.Delimited.ite
  · apply Header.delimited_decodeFields.bind
    intro header
    exact (FrameFile.delimited_decode header).bind_pure _
  · apply Reader.Delimited.ite
    · exact KeyFile.delimited_decode.bind_pure _
    · exact .fail _

end SceneBaker.Animation

namespace SceneBaker

open Model Animation

/-- A file that is accepted ends somewhere: cut before that it is truncated, and with anything else
behind that it holds the same. -/
theorem truncated_of_take {bytes rest : List UInt8} :
    (∀ model, Model.Model.decode bytes = .ok (model, rest) →
      ∃ size ≤ bytes.length, rest = bytes.drop size ∧
        (∀ cut < size, Model.Model.ofBytes (bytes.take cut) = .error .truncated) ∧
        ∀ suffix, Model.Model.ofBytes (bytes.take size ++ suffix) = .ok model) ∧
    ∀ file, AnimationFile.decode bytes = .ok (file, rest) →
      ∃ size ≤ bytes.length, rest = bytes.drop size ∧
        (∀ cut < size, AnimationFile.ofBytes (bytes.take cut) = .error .truncated) ∧
        ∀ suffix, AnimationFile.ofBytes (bytes.take size ++ suffix) = .ok file := by
  constructor
  · intro model accepted
    exact Model.Model.delimited_decode.run_take accepted
  · intro file accepted
    exact AnimationFile.delimited_decode.run_take accepted

/-- A file with one key of one node, and a byte behind it. -/
def walkBytes : List UInt8 :=
  KeyFile.magic ++ [3] ++ List.replicate 16 0 ++ [1, 0, 0, 0] ++ [1, 0, 0, 0]
    ++ [0, 0, 0, 0x80] ++ [1, 0, 0, 0] ++ List.replicate 40 0x7f ++ [0xff]

/-- What that file holds. -/
def walk : KeyFile :=
  let bits : Number.Single := ⟨0x7f7f7f7f⟩
  { version := ⟨3, 0⟩
    duration := 0
    rate := 0
    modelNodeCount := 1
    tracks := [⟨0, [⟨⟨0x7f7f7f7f7f7f7f7f⟩, ⟨⟨bits, bits, bits, bits⟩, ⟨bits, bits, bits, bits⟩⟩⟩]⟩] }

theorem truncated_of_take_oldFile :
    (Model.Model.decode Model.Model.oldFile = .ok (Model.Model.oldModel, [0xff]) ∧
      (∀ cut < 123, Model.Model.ofBytes (Model.Model.oldFile.take cut) = .error .truncated) ∧
      ∀ suffix, Model.Model.ofBytes (Model.Model.oldFile.take 123 ++ suffix) =
        .ok Model.Model.oldModel) ∧
    AnimationFile.decode walkBytes = .ok (.keys walk, [0xff]) ∧
      (∀ cut < 80, AnimationFile.ofBytes (walkBytes.take cut) = .error .truncated) ∧
      ∀ suffix, AnimationFile.ofBytes (walkBytes.take 80 ++ suffix) = .ok (.keys walk) := by
  have model : Model.Model.decode Model.Model.oldFile = .ok (Model.Model.oldModel, [0xff]) := by
    decide +kernel
  have keys : AnimationFile.decode walkBytes = .ok (.keys walk, [0xff]) := by decide +kernel
  obtain ⟨size, inside, left, cut, suffix⟩ := truncated_of_take.1 _ model
  obtain ⟨size', inside', left', cut', suffix'⟩ := truncated_of_take.2 _ keys
  have length : Model.Model.oldFile.length = 124 := rfl
  have length' : walkBytes.length = 81 := rfl
  obtain rfl : size = 123 := by
    have last := congrArg List.length left
    rw [List.length_drop, List.length_singleton] at last
    omega
  obtain rfl : size' = 80 := by
    have last := congrArg List.length left'
    rw [List.length_drop, List.length_singleton] at last
    omega
  exact ⟨⟨model, cut, suffix⟩, keys, cut', suffix'⟩

end SceneBaker
