import SceneBaker.Proofs.Build.Names
import SceneBaker.Proofs.Convert.Saving

/-! # Files of one conversion

A model is read back with the tree and the bones against which its animations were baked, so that
the headers of the animation files count what the model file holds, and the animations could be
written against either model. A model without nodes is the exception: its file has a root, of which
the animations know nothing.
-/

namespace SceneBaker.Convert

open Number Binary Model Animation Files Build Scene

variable {scene : Scene Single} {settings : Settings} {forest : Forest Nat} {model : Model}

/-- A model has nodes if its scene has. -/
theorem size_pos_iff {skeleton : Skeleton} (built : BuiltModel scene skeleton forest model)
    (unfolds : scene.links.Unfolds [0] forest) : 0 < model.nodes.size ↔ 0 < scene.nodes.size := by
  refine ⟨fun some => some.trans_le built.few, fun some => ?_⟩
  obtain ⟨below, rfl⟩ := unfolds.exists_root (by simpa [Scene.links] using some)
  rw [← built.spells.size_eq, Forest.size_number, Forest.size]
  omega

/-- With a tree, an animation is written against the model that is read as against its own. -/
theorem toBytes_rooted (some : 0 < model.nodes.size) (animation : Animation) (spaces : Spaces) :
    animation.toBytes model.rooted.upgrade spaces = animation.toBytes model spaces := by
  have nodes : model.upgrade.nodes = model.nodes := rfl
  have skeleton : model.upgrade.skeleton = model.skeleton := rfl
  rw [Model.rooted_of_pos some, Animation.toBytes, Animation.encode_congr nodes skeleton,
    Animation.toBytes]

/-- The root that is read for a model without nodes is one too many for its animations. -/
theorem toBytes_rooted_of_size_eq_zero (none : model.nodes.size = 0) {animation : Animation}
    (counted : animation.modelNodeCount = model.nodeCount) (spaces : Spaces) :
    animation.toBytes model.rooted.upgrade spaces = .error (.countMismatch .modelNode 0 1) := by
  have root : model.rooted.upgrade.nodes = .ofRoot {} := Model.storedTree_of_size_eq_zero none
  have zero : animation.modelNodeCount = 0 := by
    rw [counted, Model.nodeCount, none]
    rfl
  have one : model.rooted.upgrade.nodeCount = 1 := by
    rw [Model.nodeCount, root]
    rfl
  rw [Animation.toBytes, Animation.encode, zero, one, root]
  rfl

theorem nodeCount_rooted_iff :
    model.nodeCount = model.rooted.upgrade.nodeCount ↔ 0 < model.nodes.size := by
  rcases Nat.eq_zero_or_pos model.nodes.size with none | some
  · have root : model.rooted.upgrade.nodes = .ofRoot {} := Model.storedTree_of_size_eq_zero none
    rw [Model.nodeCount, Model.nodeCount, root, none]
    decide
  · rw [Model.rooted_of_pos some]
    exact iff_of_true rfl some

/-- The model file of a conversion can be read, and every animation file counts the bones that were
read. It counts the nodes that were read, and is the file of its animation against the model that was
read, exactly if the scene has nodes. -/
theorem exists_read_of_convert (unfolds : scene.links.Unfolds [0] forest)
    (distinct : forest.preorder.Nodup) (sound : Sound scene) {stem : String} {converted : Converted}
    (success : convert scene settings stem = .ok converted) :
    ((∃ bytes, converted.model.toBytes = .ok bytes) ↔ Small converted.model) ∧
    ∀ bytes, converted.model.toBytes = .ok bytes → ∃ read, Model.ofBytes bytes = .ok read ∧
      ∀ clip ∈ converted.clips, ∃ written file,
        clip.animation.toBytes converted.model converted.spaces = .ok written ∧
        AnimationFile.ofBytes written = .ok (.frames file) ∧
        file.header.boneCount = read.boneCount ∧
        (file.header.nodeCount = read.nodeCount ↔ 0 < scene.nodes.size) ∧
        (clip.animation.toBytes read converted.spaces = .ok written ↔ 0 < scene.nodes.size) := by
  obtain ⟨builds, -⟩ := convert_eq_ok_iff.mp success
  obtain ⟨spells, -⟩ := planted_of_buildModel_eq_ok unfolds distinct builds
  refine ⟨⟨fun ⟨_, written⟩ => small_of_toBytes_eq_ok spells written, fun small => ?_⟩,
    fun bytes written => ?_⟩
  · have complete := (Model.complete_encode_iff spells).mpr
      ⟨small.tables, small.vertices, small.nodeMeshes⟩
    exact ⟨_, Output.result_eq_ok complete⟩
  · have small := small_of_toBytes_eq_ok spells written
    have built := built_of_buildModel unfolds distinct builds small.tables.bones
    have unbroken : Unbroken scene forest :=
      ⟨fun source listed => sound.nodeNames source (mem_nodes_of_mem_reached listed),
        sound.materialNames⟩
    refine ⟨_, ofBytes_rooted_of_unbroken built sound.resolved small unbroken written,
      fun clip member => ?_⟩
    have writable := writable_of_convert unfolds distinct success small.tables clip member
    obtain ⟨animated, stored⟩ := writable.written
    obtain ⟨file, accepted, headed⟩ :=
      Animation.exists_file_of_toBytes small.tables.nodes small.tables.bones stored
    refine ⟨animated, file, stored, accepted, ?_, ?_, ?_⟩
    · rw [headed]
      rfl
    · rw [headed, ← size_pos_iff built unfolds]
      exact nodeCount_rooted_iff
    · rw [← size_pos_iff built unfolds]
      rcases Nat.eq_zero_or_pos converted.model.nodes.size with none | some
      · rw [toBytes_rooted_of_size_eq_zero none writable.counted]
        exact iff_of_false nofun none.not_gt
      · rw [toBytes_rooted some]
        exact iff_of_true stored some

/-- A flag that an arm waves. -/
def waving : Scene Single where
  meshes := #[{ positions := #[0, 0, 0], faces := [[0, 1, 2]], bones := [⟨"arm", 1, [⟨0, 1⟩]⟩] }]
  materials := #[.plain "cloth"]
  nodes := #[⟨"flag", 1, [0], [1]⟩, ⟨"arm", 1, [], []⟩]
  clips := [⟨"wave", 1, 1, [{ node := "arm" }]⟩]

theorem exists_read_of_convert_waving :
    waving.links.Unfolds [0] (.cons 0 (.cons 1 .nil .nil) .nil) ∧ Sound waving ∧
    ∃ converted bytes read, convert waving {} "flag" = .ok converted ∧
      converted.model.toBytes = .ok bytes ∧ Model.ofBytes bytes = .ok read ∧
      converted.clips ≠ [] ∧ ∀ clip ∈ converted.clips, ∃ written file,
        clip.animation.toBytes converted.model converted.spaces = .ok written ∧
        AnimationFile.ofBytes written = .ok (.frames file) ∧
        file.header.boneCount = read.boneCount ∧ file.header.nodeCount = read.nodeCount ∧
        clip.animation.toBytes read converted.spaces = .ok written := by
  have unfolds : waving.links.Unfolds [0] (.cons 0 (.cons 1 .nil .nil) .nil) := by
    have links : waving.links = #[[1], []] := by decide +kernel
    rw [links]
    exact .inside rfl (.inside rfl .nil .nil) .nil
  have sound : Sound waving := by
    constructor <;> decide
  have converts : (convert waving {} "flag").toOption.map (fun converted =>
      (decide (Build.Small converted.model), converted.clips.isEmpty)) = some (true, false) := by
    decide +kernel
  obtain ⟨converted, success, facts⟩ := Option.map_eq_some_iff.mp converts
  have success := Steps.toOption_eq_some_iff.mp success
  have small : Build.Small converted.model := of_decide_eq_true (Prod.mk.inj facts).1
  have clips : converted.clips ≠ [] := by simpa using (Prod.mk.inj facts).2
  obtain ⟨stored, reads⟩ := exists_read_of_convert unfolds (by decide) sound success
  obtain ⟨bytes, written⟩ := stored.mpr small
  obtain ⟨read, accepted, fits⟩ := reads bytes written
  refine ⟨unfolds, sound, converted, bytes, read, success, written, accepted, clips, ?_⟩
  intro clip member
  obtain ⟨animated, file, saved, loaded, bones, nodes, again⟩ := fits clip member
  exact ⟨animated, file, saved, loaded, bones, nodes.mpr (by decide), again.mpr (by decide)⟩

/-- The content of an animation file that stores frames. -/
def framesOf? : AnimationFile → Option FrameFile
  | .frames file => some file
  | .keys _ => none

/-- A stone without a node, and a clip that moves nothing. -/
def lying : Scene Single where
  meshes := #[{ positions := #[0, 0, 0], faces := [[0, 1, 2]] }]
  materials := #[.plain "granite"]
  clips := [⟨"rest", 1, 1, []⟩]

/-- The model file of a scene without nodes has one node and its animation file counts none, and the
animation cannot be written against the model that is read. -/
theorem lying_disagrees : lying.links.Unfolds [0] .nil ∧ Sound lying ∧
    ∃ converted bytes read clip written file, convert lying {} "stone" = .ok converted ∧
      converted.model.toBytes = .ok bytes ∧ Model.ofBytes bytes = .ok read ∧
      clip ∈ converted.clips ∧
      clip.animation.toBytes converted.model converted.spaces = .ok written ∧
      AnimationFile.ofBytes written = .ok (.frames file) ∧
      file.header.nodeCount = 0 ∧ read.nodeCount = 1 ∧
      clip.animation.toBytes read converted.spaces = .error (.countMismatch .modelNode 0 1) := by
  have unfolds : lying.links.Unfolds [0] .nil := .outside (by decide +kernel) .nil
  have sound : Sound lying := by
    constructor <;> decide
  have outcome : ((convert lying {} "stone").toOption.bind fun converted => do
      let clip ← converted.clips.head?
      let read ← (Model.ofBytes (← converted.model.toBytes.toOption)).toOption
      let written ← (clip.animation.toBytes converted.model converted.spaces).toOption
      let file ← framesOf? (← (AnimationFile.ofBytes written).toOption)
      return (file.header.nodeCount, read.nodeCount,
        decide (clip.animation.toBytes read converted.spaces =
          .error (.countMismatch .modelNode 0 1)))) = some (0, 1, true) := by
    decide +kernel
  obtain ⟨converted, success, outcome⟩ := Option.bind_eq_some_iff.mp outcome
  obtain ⟨clip, first, outcome⟩ := Option.bind_eq_some_iff.mp outcome
  obtain ⟨bytes, stored, outcome⟩ := Option.bind_eq_some_iff.mp outcome
  obtain ⟨read, accepted, outcome⟩ := Option.bind_eq_some_iff.mp outcome
  obtain ⟨written, saved, outcome⟩ := Option.bind_eq_some_iff.mp outcome
  obtain ⟨loaded, opened, outcome⟩ := Option.bind_eq_some_iff.mp outcome
  obtain ⟨file, stores, outcome⟩ := Option.bind_eq_some_iff.mp outcome
  cases loaded with
  | keys _ => cases stores
  | frames content =>
    obtain rfl := Option.some.inj stores
    obtain ⟨none, outcome⟩ := Prod.mk.inj (Option.some.inj outcome)
    obtain ⟨one, refused⟩ := Prod.mk.inj outcome
    exact ⟨unfolds, sound, converted, bytes, read, clip, written, content,
      Steps.toOption_eq_some_iff.mp success, Steps.toOption_eq_some_iff.mp stored,
      Steps.toOption_eq_some_iff.mp accepted, List.mem_of_mem_head? first,
      Steps.toOption_eq_some_iff.mp saved, Steps.toOption_eq_some_iff.mp opened, none, one,
      of_decide_eq_true refused⟩

end SceneBaker.Convert
