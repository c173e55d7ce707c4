import SceneBaker.Proofs.Animation.Completeness
import SceneBaker.Proofs.Binary.Acceptance
import SceneBaker.Proofs.Number.Value

/-! # Files of keyed tracks, written again

A file of keyed tracks is read as an animation with one frame per key, whatever its duration is. Every
model with its number of nodes can be animated by it, and the frames of the new file are the keys.
-/

set_option linter.dupNamespace false

namespace SceneBaker.Animation

open Number SceneBaker.Geometry Binary Model

/-! ## Keys as frames -/

/-- The key that stands for a frame: the one in its place, or the last one if there are fewer. -/
def KeyTrack.key? (track : KeyTrack) (frame : Nat) : Option TransformKey :=
  track.keys[frame]?.or track.keys.getLast?

namespace KeyFile

variable {file : KeyFile} {model : Model} {spaces : Spaces}

/-- Whole frames of the duration, at least one and at most as many as 32 bits count; one if the
duration is not finite. -/
def frameTotal (file : KeyFile) : Nat :=
  if file.duration.isFinite then max 1 (min ⌊file.duration.value⌋₊ (2 ^ 32 - 1)) else 1

/-- The transform of a node at a frame: that of a key of the last track for its index, and the node's
own if there is no such track or it is empty. -/
def transform (file : KeyFile) (frame : Nat) (node : Node) : DualQuat Single :=
  match file.tracks.findRev? (·.index == node.index) with
  | none => node.transform
  | some track => ((track.key? frame).map (·.transform)).getD node.transform

/-- Tracks of an accepted file name nodes of its model. -/
def Tracked (file : KeyFile) : Prop := ∀ track ∈ file.tracks, track.index < file.modelNodeCount

theorem ensures_decodeTrack (nodeCount : UInt32) :
    (decodeTrack nodeCount).Ensures (·.index < nodeCount) := by
  refine .skip fun index => Reader.Ensures.bind (Reader.Ensures.ofExcept (P := fun _ => _ < _) ?_)
    fun _ inside => .skip fun count => .skip fun keys => .pure inside
  exact fun _ checked => Model.checkIndex_eq_ok_iff.mp checked

theorem ensures_decode : KeyFile.decode.Ensures Tracked := by
  refine .skip fun major => .ite
    (fun _ => (Reader.Ensures.fail (P := fun _ => False) _).bind fun _ => False.elim) fun _ =>
    .skip fun duration => .skip fun rate => .skip fun nodeCount => .skip fun trackCount =>
    ((ensures_decodeTrack nodeCount).times trackCount.toNat).bind fun tracks read => .pure ?_
  exact read.2

theorem tracked_of_ofBytes {bytes : List UInt8}
    (accepted : AnimationFile.ofBytes bytes = .ok (.keys file)) : file.Tracked := by
  have ensures : AnimationFile.decode.Ensures fun read => ∀ file, read = .keys file → file.Tracked := by
    refine .skip fun found => .ite (fun _ => .skip fun header => .skip fun frames => .pure ?_)
      fun _ => .ite (fun _ => ensures_decode.bind fun keys tracked => .pure ?_) fun _ => .fail _
    · exact fun _ other => nomatch other
    · rintro file ⟨⟩
      exact tracked
  obtain ⟨rest, read⟩ := Reader.run_eq_ok_iff.mp accepted
  exact ensures _ _ _ read file rfl

theorem sample?_toTrack (track : KeyTrack) (frame : Nat) :
    (Track.mk track.index (track.keys.map (·.transform)).toArray).sample? frame =
      (track.key? frame).map (·.transform) := by
  rw [Track.sample?, KeyTrack.key?, List.getElem?_toArray, List.back?_toArray, List.getElem?_map,
    List.getLast?_map, Option.map_or]

/-- The tracks of the animation say the same of a node as the keys. -/
theorem localTransform_toAnimation (file : KeyFile) (name : String) (frame : Nat) (node : Node) :
    localTransform (file.toAnimation name).tracks frame node = file.transform frame node := by
  have found : (file.toAnimation name).tracks.findRev? (·.index == node.index) =
      (file.tracks.findRev? (·.index == node.index)).map
        fun track => ⟨track.index, (track.keys.map (·.transform)).toArray⟩ := by
    simp [toAnimation, ← List.map_reverse, List.find?_map, Function.comp_def]
  rw [localTransform_eq, transform, found]
  cases file.tracks.findRev? (·.index == node.index) with
  | none => rfl
  | some track => exact congrArg (·.getD node.transform) (sample?_toTrack track frame)

theorem duration_toAnimation (file : KeyFile) (name : String) :
    (file.toAnimation name).duration.toNat = file.frameTotal := by
  rw [toAnimation, frameTotal]
  by_cases finite : file.duration.isFinite = true
  case neg => simp [finite]
  case pos =>
    have long : (1 ≤ file.duration) = (1 ≤ ⌊file.duration.value⌋₊) := by
      rw [Double.one_le_iff finite, Nat.one_le_floor_iff]
    simp only [finite, long, Bool.true_and, decide_eq_true_eq, if_true,
      Double.toNatClamped_eq finite]
    split
    case isTrue some =>
      rw [UInt32.toNat_ofNat_of_lt' (by change _ < 2 ^ 32; omega)]
      omega
    case isFalse none =>
      change 1 = _
      omega

end KeyFile

/-! ## The new file -/

/-- A file of composed frames that a file of keyed tracks became. -/
structure FrameFile.Repeats (decoded : FrameFile) (file : KeyFile) (model : Model)
    (spaces : Spaces) : Prop where
  headed : decoded.header.spaces = spaces ∧ decoded.header.rate = file.rate ∧
    decoded.header.nodeCount = file.modelNodeCount
  duration : decoded.header.duration = Double.ofNat file.frameTotal
  count : spaces.parent = true → decoded.frames.length = file.frameTotal
  frames : spaces.parent = true → ∀ frame < file.frameTotal, ∃ pose,
    decoded.frames[frame]? = some pose ∧ pose.parent.size = model.nodes.size ∧
      ∀ node ∈ model.nodes.nodes, pose.parent[node.index.toNat]? = some (file.transform frame node)

variable {file : KeyFile} {model : Model}

theorem Housed.of_indexed (indexed : model.Indexed) : Housed model where
  nodes node member := (indexed.nodes node member).inside
  bones node member := (indexed.nodes node member).bone

/-- The node transforms of a frame are those that the tracks give. -/
theorem parent_of_compose (indexed : model.Indexed) {forest : Forest Nat}
    (spells : model.nodes.Spells forest) {tracks : List Track} {frame : Nat} {pose : Pose}
    (composed : (Composer.prepared model tracks).compose frame
      (.identity model.nodes.size model.skeleton.length) = (pose, none)) {node : Node}
    (member : node ∈ model.nodes.nodes) :
    pose.parent[node.index.toNat]? = some (localTransform tracks frame node) := by
  have holds : (Pose.identity model.nodes.size model.skeleton.length).Holds model :=
    Pose.holds_of_fits ⟨rfl, rfl, rfl⟩
  obtain ⟨after, result, shown⟩ := compose_prepared tracks frame indexed spells holds
  obtain rfl : pose = after := congrArg Prod.fst (composed.symm.trans result)
  obtain ⟨position, found⟩ := Array.mem_iff_getElem?.mp member
  obtain ⟨absolute, derived, -⟩ := shown.placed position node found
  exact (shown.shows position node absolute found derived).parent

/-- Every file of keyed tracks animates every valid model with its number of nodes. Written again it
holds as many frames as its duration says, each with the keys in that place. -/
theorem exists_repeats_of_ofBytes {bytes : List UInt8}
    (accepted : AnimationFile.ofBytes bytes = .ok (.keys file)) (valid : model.validate = .ok ())
    (grown : model.nodes.Grown) (counted : model.nodeCount = file.modelNodeCount) (name : String)
    (spaces : Spaces) :
    ∃ again decoded, (file.toAnimation name).toBytes model spaces = .ok again ∧
      AnimationFile.ofBytes again = .ok (.frames decoded) ∧ decoded.Repeats file model spaces := by
  have indexed := Model.validate_eq_ok_iff.mp valid
  obtain ⟨forest, spells⟩ := grown.exists_spells
  have tracked : ∀ track ∈ (file.toAnimation name).tracks, track.index < model.nodeCount := by
    intro track member
    obtain ⟨keys, listed, rfl⟩ := List.mem_map.mp member
    exact counted ▸ KeyFile.tracked_of_ofBytes accepted keys listed
  obtain ⟨-, -, again, written⟩ :=
    Animation.writable spells (.of_indexed indexed) counted.symm tracked spaces
  obtain ⟨composer, poses, prepared, length, composed, encoded⟩ := Animation.exists_poses written
  obtain rfl : Composer.prepared model _ = composer :=
    Except.ok.inj ((Composer.ofTracks_eq tracked).symm.trans prepared)
  have nodes := indexed.perm_nodes.1
  have sizes := (file.toAnimation name).sizes_of_composed spaces nodes indexed.perm_bones.1 composed
  have header := (file.toAnimation name).frameCount_header model spaces
  have recovers := AnimationFile.recovers_decode rfl (header.trans length.symm) sizes 0
  refine ⟨again, _, written,
    Reader.run_eq_ok_iff.mpr ⟨[], encoded ▸ recovers.run_bytes⟩, ?_⟩
  let frames := FrameFile.ofPoses ((file.toAnimation name).header model spaces) poses 0
  have shows : frames.Shows _ _ _ poses.length := FrameFile.shows_ofPoses composed
  rw [length, file.duration_toAnimation name] at shows
  have stored (chosen : spaces.parent = true) :
      0 < ((file.toAnimation name).header model spaces).floatsPerFrame := by
    have counts : model.nodeCount.toNat = model.nodes.size := UInt32.toNat_ofNat_of_lt' nodes
    have some := grown.rooted
    have parents : 0 < model.nodeCount.toNat * 8 := by omega
    rw [Header.floatsPerFrame]
    exact Nat.add_pos_left (Nat.add_pos_left (by simpa [Animation.header, chosen] using parents) _) _
  constructor
  case headed => exact ⟨rfl, rfl, counted⟩
  case duration => exact congrArg Double.ofNat (file.duration_toAnimation name)
  case count => exact fun chosen => shows.count (stored chosen)
  case frames =>
    intro chosen frame inside
    obtain ⟨pose, success, listed⟩ := shows.frames (stored chosen) frame inside
    have kept : (pose.stored spaces).parent = pose.parent := if_pos chosen
    refine ⟨_, listed, ?_, ?_⟩
    · exact kept ▸ (Composer.fits_of_compose success).1.trans Array.size_replicate
    · intro node member
      have shown := parent_of_compose indexed spells success member
      rw [file.localTransform_toAnimation] at shown
      exact kept ▸ shown

/-- A file with one key of the second of two nodes, and a duration of two and a half frames. -/
def waveBytes : List UInt8 :=
  KeyFile.magic ++ [3] ++ [0, 0, 0, 0, 0, 0, 0x04, 0x40] ++ List.replicate 8 0 ++ [2, 0, 0, 0]
    ++ [1, 0, 0, 0] ++ [0, 0, 0x80, 0x3f] ++ [1, 0, 0, 0] ++ List.replicate 40 0x7f

/-- What that file holds. -/
def wave : KeyFile :=
  let bits : Single := ⟨0x7f7f7f7f⟩
  { version := ⟨3, 0⟩
    duration := ⟨0x4004000000000000⟩
    rate := 0
    modelNodeCount := 2
    tracks := [⟨1, [⟨⟨0x7f7f7f7f7f7f7f7f⟩, ⟨⟨bits, bits, bits, bits⟩, ⟨bits, bits, bits, bits⟩⟩⟩]⟩] }

/-- A model of two nodes. -/
def waver : Model where
  nodes := (NodeTree.ofRoot { name := "root" }).attach 0 { name := "hand", index := 1 }

theorem exists_repeats_wave : wave.frameTotal = 2 ∧
    AnimationFile.ofBytes waveBytes = .ok (.keys wave) ∧ waver.validate = .ok () ∧
    waver.nodes.Grown ∧ waver.nodeCount = wave.modelNodeCount ∧
    ∃ again decoded, (wave.toAnimation "wave").toBytes waver ⟨true, true, false⟩ = .ok again ∧
      AnimationFile.ofBytes again = .ok (.frames decoded) ∧
      decoded.Repeats wave waver ⟨true, true, false⟩ := by
  have accepted : AnimationFile.ofBytes waveBytes = .ok (.keys wave) := by decide +kernel
  have valid : waver.validate = .ok () := by decide
  have grown : waver.nodes.Grown := (NodeTree.Grown.root rfl).attach (by decide) rfl
  refine ⟨?_, accepted, valid, grown, rfl, ?_⟩
  · rw [← wave.duration_toAnimation "wave"]
    decide +kernel
  · exact exists_repeats_of_ofBytes accepted valid grown rfl "wave" ⟨true, true, false⟩

end SceneBaker.Animation
