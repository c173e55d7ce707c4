import SceneBaker.Proofs.Animation.RoundTrip

/-! # When an animation can be written

Four checks can stop the encoder of an animation: the number of nodes, the node of a track, and the
places of a node and of a bone in the pose. None of them fails for tracks of a model whose nodes have
their indices among the nodes and whose bone nodes have theirs among the bones.
-/

set_option linter.dupNamespace false

namespace SceneBaker.Animation

open Binary Model

/-- Every index of a node is below the number of nodes, and that of a bone node below the number of
bones. -/
structure Housed (model : Model) : Prop where
  nodes : ∀ node ∈ model.nodes.nodes.toList, node.index < model.nodeCount
  bones : ∀ node ∈ model.nodes.nodes.toList, node.isBone = true → node.index < model.boneCount

/-- No frame stops the composition of a pose that is as large as another one. -/
def Composer.Total (composer : Composer) (fresh : Pose) : Prop :=
  ∀ frame pose, Fits pose fresh → ∃ after, composer.compose frame pose = (after, none)

/-- Nothing stops the encoder of an animation. -/
structure Animation.Writable (animation : Animation) (model : Model) (spaces : Spaces) : Prop where
  counted : animation.modelNodeCount = model.nodeCount
  composed : ∃ composer, Composer.ofTracks model animation.tracks = .ok composer ∧
    composer.Total (.identity model.nodes.size model.skeleton.length)
  written : ∃ bytes, animation.toBytes model spaces = .ok bytes

variable {model : Model} {forest : Forest Nat} {composer : Composer} {fresh : Pose}

theorem Pose.holds_of_fits {pose : Pose}
    (fits : Composer.Fits pose (.identity model.nodes.size model.skeleton.length)) :
    pose.Holds model := by
  obtain ⟨parent, world, bone⟩ := fits
  simp only [Pose.identity, Array.size_replicate] at parent world bone
  exact ⟨parent ▸ model.nodeCount_le, world ▸ model.nodeCount_le, bone ▸ model.boneCount_le⟩

theorem Housed.total_prepared (housed : Housed model) (spells : model.nodes.Spells forest)
    (tracks : List Track) : (Composer.prepared model tracks).Total
      (.identity model.nodes.size model.skeleton.length) := by
  intro frame pose fits
  refine ⟨_, Composer.placeAll_eq fun entry visited => ?_⟩
  have member : entry.1 ∈ model.nodes.nodes.toList :=
    (spells.map_fst_worlds _).subset (List.mem_map_of_mem visited)
  exact Composer.places_of_inside (Pose.holds_of_fits fits) (housed.nodes _ member)
    (housed.bones _ member)

namespace Animation

variable {animation : Animation} {spaces : Spaces}

/-- Frames are written for as long as the composer goes on, which it does with what it left. -/
theorem complete_encodeFrames (total : composer.Total fresh) (count : Nat) {frame : Nat} {pose : Pose}
    (fits : Composer.Fits pose fresh) (written : List (List UInt8)) :
    (encodeFrames composer spaces count frame pose written).failure = none := by
  induction count generalizing frame pose written with
  | zero => rfl
  | succ count ih =>
    obtain ⟨after, success⟩ := total frame pose fits
    obtain ⟨parent, world, bone⟩ := Composer.fits_of_compose success
    rw [encodeFrames, success]
    exact ih ⟨parent.trans fits.1, world.trans fits.2.1, bone.trans fits.2.2⟩ _

theorem writable (spells : model.nodes.Spells forest) (housed : Housed model)
    (counted : animation.modelNodeCount = model.nodeCount)
    (tracked : ∀ track ∈ animation.tracks, track.index < model.nodeCount) (spaces : Spaces) :
    animation.Writable model spaces := by
  have prepared := Composer.ofTracks_eq tracked
  have total := housed.total_prepared spells animation.tracks
  refine ⟨counted, ⟨_, prepared, total⟩, _, Output.result_eq_ok ?_⟩
  rw [encode, if_pos counted, prepared, Output.failure_append_eq_none_iff,
    Output.failure_append_eq_none_iff]
  exact ⟨(Header.takes_encode _).complete, complete_encodeFrames total _ ⟨rfl, rfl, rfl⟩ [], rfl⟩

end Animation
end SceneBaker.Animation
