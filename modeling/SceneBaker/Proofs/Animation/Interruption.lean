import SceneBaker.Proofs.Animation.RoundTrip
import SceneBaker.Proofs.Truncation

/-! # Animations that were written in part

The writer of an animation can stop before the header, behind it or behind any number of frames. What
it left is then a front of a file that holds the announced frames, so it is read as truncated.
-/

set_option linter.dupNamespace false

namespace SceneBaker.Animation

open Binary Model

/-- A pose that a header has room for. -/
def Header.rest (header : Header) : Pose :=
  .identity header.nodeCount.toNat header.boneCount.toNat

theorem Header.sizes_rest (header : Header) : header.Sizes header.rest := by
  constructor
  case parent => exact Array.size_replicate
  case world => exact Array.size_replicate
  case bone => exact Array.size_replicate

/-- A file that ends behind its frames is truncated, be they as many as announced or fewer, and also
if they are empty. -/
theorem AnimationFile.truncated_of_frames {header : Header} {poses : List Pose}
    (supported : header.version.supported = true) (few : poses.length ≤ header.frameCount)
    (sizes : ∀ pose ∈ poses, header.Sizes pose) :
    AnimationFile.ofBytes
      (header.encode ++ .each poses (Animation.encodePose header.spaces)).bytes =
        .error .truncated := by
  -- The frames that are missing can be any of the right size.
  let others := List.replicate (header.frameCount - poses.length) header.rest
  have count : header.frameCount = (poses ++ others).length := by
    rw [List.length_append, List.length_replicate]
    omega
  have sized : ∀ pose ∈ poses ++ others, header.Sizes pose := by
    intro pose member
    rcases List.mem_append.mp member with member | member
    · exact sizes pose member
    · exact (List.mem_replicate.mp member).2 ▸ header.sizes_rest
  have whole := (AnimationFile.recovers_decode supported count sized 0).run_bytes
  obtain ⟨used, same, spans⟩ := AnimationFile.delimited_decode _ _ _ whole
  let ending : Output := .each others (Animation.encodePose header.spaces) ++ .u32 0
  have complete : (header.encode ++ .each poses (Animation.encodePose header.spaces)).failure = none := by
    rw [Output.failure_append_eq_none_iff, Output.failure_each_eq_none_iff]
    exact ⟨header.takes_encode.complete, fun pose _ => Animation.complete_encodePose _ pose⟩
  have cut : used =
      (header.encode ++ .each poses (Animation.encodePose header.spaces)).bytes ++ ending.bytes := by
    rw [← Output.bytes_append complete, Output.append_assoc, ← Output.append_assoc _ _ (.u32 0),
      ← Output.each_append, same, List.append_nil]
  have left : ending.bytes ≠ [] := by
    have written : (Output.each others (Animation.encodePose header.spaces)).failure = none :=
      Output.failure_each_eq_none_iff.mpr fun pose _ => Animation.complete_encodePose _ pose
    rw [Output.bytes_append written]
    exact List.append_ne_nil_of_right_ne_nil _ (List.cons_ne_nil _ _)
  rw [AnimationFile.ofBytes, Reader.run, spans.needs _ _ cut left]
  rfl

namespace Animation

variable {animation : Animation} {model : Model} {spaces : Spaces}

/-- A writer that stopped wrote nothing, or the header and no more frames than that announces. -/
theorem bytes_of_failure (nodes : model.nodes.size < 2 ^ 32) (bones : model.skeleton.length < 2 ^ 32)
    {cause : CodecError} (failed : (animation.encode model spaces).failure = some cause) :
    (animation.encode model spaces).bytes = [] ∨ ∃ poses : List Pose,
      poses.length ≤ animation.duration.toNat ∧
      (∀ pose ∈ poses, (animation.header model spaces).Sizes pose) ∧
      (animation.encode model spaces).bytes =
        ((animation.header model spaces).encode ++ .each poses (encodePose spaces)).bytes := by
  have headed := (animation.header model spaces).takes_encode.complete
  by_cases agreed : animation.modelNodeCount = model.nodeCount
  case neg =>
    rw [encode, if_neg agreed]
    exact .inl rfl
  case pos =>
    right
    cases prepared : Composer.ofTracks model animation.tracks with
    | error cause =>
      refine ⟨[], Nat.zero_le _, by simp, ?_⟩
      rw [encode, if_pos agreed, prepared, Output.bytes_append headed, Output.bytes_append headed]
      rfl
    | ok composer =>
      obtain ⟨poses, stopped, most, -, composed, same⟩ := encode_eq agreed prepared spaces
      refine ⟨poses, most, animation.sizes_of_composed spaces nodes bones composed, ?_⟩
      have framed : (Output.each poses (encodePose spaces)).failure = none :=
        Output.failure_each_eq_none_iff.mpr fun pose _ => complete_encodePose spaces pose
      rw [same] at failed ⊢
      simp only [Output.failure_append, headed, framed, Option.none_or] at failed
      -- The event count is not written behind frames that stopped.
      cases stopped with
      | none => cases failed
      | some cause =>
        rw [Output.bytes_append headed, Output.bytes_append headed, Output.bytes_append framed]
        exact congrArg _ (List.append_nil _)

/-- An animation whose writing failed is truncated, whatever the cause: what was written is no file of
an animation, not even of one without frames. -/
theorem truncated_of_failure (nodes : model.nodes.size < 2 ^ 32)
    (bones : model.skeleton.length < 2 ^ 32) {cause : CodecError}
    (failed : (animation.encode model spaces).failure = some cause) :
    AnimationFile.ofBytes (animation.encode model spaces).bytes = .error .truncated := by
  rcases bytes_of_failure nodes bones failed with nothing | ⟨poses, few, sizes, written⟩
  · rw [nothing]
    rfl
  · rw [written]
    exact AnimationFile.truncated_of_frames rfl
      (few.trans (animation.frameCount_header model spaces).ge) sizes

/-- A model with a node whose index has no place in a pose. -/
def astray : Model where
  nodes := (NodeTree.ofRoot { name := "root" }).attach 0 { name := "stray", index := 9 }

/-- An animation of two nodes that moves none of them. -/
def still : Animation where
  duration := 2
  rate := 1
  tracks := []
  modelNodeCount := 2

theorem truncated_of_failure_still :
    (still.encode astray ⟨true, false, false⟩).failure = some (.indexOutOfRange .node 9 2) ∧
      AnimationFile.ofBytes (still.encode astray ⟨true, false, false⟩).bytes = .error .truncated := by
  have failed : (still.encode astray ⟨true, false, false⟩).failure =
      some (.indexOutOfRange .node 9 2) := by decide +kernel
  exact ⟨failed, truncated_of_failure (by decide) (by decide) failed⟩

end Animation

end SceneBaker.Animation
