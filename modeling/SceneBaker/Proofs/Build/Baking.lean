import SceneBaker.Proofs.Build.Conversion
import SceneBaker.Proofs.Build.Sampling

/-! # Baked clips

A clip can be baked if the tree of the model has a node for each of its channels. The first and the
last frame show the two ends of the clip, whatever its length and the frame rate: the part of the
length that a frame shows is rounded, but it is nothing at the first frame and all of it at the last.
-/

namespace SceneBaker.Build

open Number SceneBaker.Geometry Model Animation Scene Steps

variable {β : Type} {keys : List (Key β)} {clip : Clip Single} {model : Model} {settings : Settings}
  {frames : UInt32} {duration : Double}

/-! ## Frames -/

/-- However long a clip is, it has a frame, and not more than can be counted. -/
theorem frameCount_pos (duration ticksPerSecond rate : Double) :
    0 < (frameCount duration ticksPerSecond rate).toNat := by
  rw [frameCount]
  generalize (duration / _).ceil = frames
  split
  case isFalse => decide
  case isTrue long =>
    obtain ⟨finite, long⟩ := Bool.and_eq_true_iff.mp long
    have whole := Nat.one_le_floor_iff _ |>.mpr ((Double.one_le_iff finite).mp (of_decide_eq_true long))
    rw [Double.toNatClamped_eq finite, UInt32.toNat_ofNat_of_lt' (by change _ < 2 ^ 32; omega)]
    omega

private theorem zero_lt_ofNat_toNat (nonzero : 0 < frames.toNat) : 0 < Double.ofNat frames.toNat :=
  Double.zero_lt_ofNat nonzero (frames.toNat_lt.trans (by decide))

/-- The first frame shows the start of a clip. -/
theorem magnitude_frameTime_zero (nonzero : 0 < frames.toNat) (finite : clip.duration.isFinite = true) :
    (frameTime clip frames 0).magnitude = 0 := by
  have start : Double.ofNat 0 = 0 := by decide
  rw [frameTime, start, Double.div_of_magnitude_eq_zero (by decide) (zero_lt_ofNat_toNat nonzero)]
  exact Double.magnitude_zero_mul finite

/-- The last frame shows the end of a clip. -/
theorem frameTime_last (nonzero : 0 < frames.toNat) (finite : clip.duration.isFinite = true) :
    frameTime clip frames frames.toNat = clip.duration := by
  have whole : (Double.ofNat frames.toNat).isFinite = true :=
    Double.isFinite_ofNat (frames.toNat_lt.trans (by decide))
  have above := (zero_lt_ofNat_toNat nonzero).2.2
  rw [Double.key_zero] at above
  rw [frameTime, Double.div_self_of_isFinite whole (Double.of_key_pos above).2,
    Double.one_mul_of_isFinite finite]

/-! ## Tracks from end to end -/

/-- Keys from the start of a clip to its end. -/
structure Spans (keys : List (Key β)) (duration : Double) : Prop where
  nonempty : keys ≠ []
  sorted : keys.Pairwise (·.time ≤ ·.time)
  first : (keys.head nonempty).time.numEq 0 = true
  last : (keys.getLast nonempty).time.numEq duration = true

namespace Spans

theorem key_first (spans : Spans keys duration) : (keys.head spans.nonempty).time.key = 0 := by
  rw [← Double.key_zero]
  exact (Double.numEq_iff.mp spans.first).2.2

theorem key_last (spans : Spans keys duration) :
    (keys.getLast spans.nonempty).time.key = duration.key :=
  (Double.numEq_iff.mp spans.last).2.2

theorem finite_first (spans : Spans keys duration) :
    (keys.head spans.nonempty).time.isFinite = true := by
  rw [Double.isFinite_iff_key, spans.key_first]
  decide

theorem finite_last (spans : Spans keys duration) (finite : duration.isFinite = true) :
    (keys.getLast spans.nonempty).time.isFinite = true := by
  rw [Double.isFinite_iff_key] at finite ⊢
  rwa [spans.key_last]

/-- The keys lie between the first and the last one, so that their times are finite. -/
theorem timed (spans : Spans keys duration) (finite : duration.isFinite = true) : Timeline keys where
  sorted := spans.sorted
  finite key member := by
    have finiteFirst := spans.finite_first
    have finiteLast := spans.finite_last finite
    have sorted := spans.sorted
    have front := List.cons_head_tail spans.nonempty
    have back := List.dropLast_append_getLast spans.nonempty
    generalize keys.head spans.nonempty = first at *
    generalize keys.getLast spans.nonempty = last at *
    have low : key = first ∨ first.time ≤ key.time := by
      rw [← front] at member sorted
      exact (List.mem_cons.mp member).imp_right ((List.pairwise_cons.mp sorted).1 key)
    have high : key = last ∨ key.time ≤ last.time := by
      rw [← back] at member sorted
      refine (List.mem_append.mp member).symm.imp List.mem_singleton.mp fun earlier => ?_
      exact (List.pairwise_append.mp sorted).2.2 key earlier last List.mem_cons_self
    rcases low with rfl | low
    · exact finiteFirst
    rcases high with rfl | high
    · exact finiteLast
    · exact Double.isFinite_of_le_of_le low high finiteFirst finiteLast

variable [Blend β]

/-- At the start the first key is shown. -/
theorem sample?_first (spans : Spans keys duration) {time : Double} (start : time.magnitude = 0) :
    sample? time keys = some (keys.head spans.nonempty).value := by
  apply sample?_of_le
  left
  rw [Double.le_iff_key (Double.isFinite_of_magnitude_eq_zero start) spans.finite_first,
    spans.key_first, Double.key_of_magnitude_eq_zero start]

/-- At the end the last key is shown. -/
theorem sample?_last (spans : Spans keys duration) (finite : duration.isFinite = true)
    (positive : 0 < duration) :
    sample? duration keys = some (keys.getLast spans.nonempty).value := by
  have above := positive.2.2
  rw [Double.key_zero] at above
  have late : ¬(duration ≤ (keys.head spans.nonempty).time ∨ keys.length = 1) := by
    rintro (early | single)
    · have below := early.2.2
      rw [spans.key_first] at below
      omega
    · obtain ⟨only, rfl⟩ := List.length_eq_one_iff.mp single
      have one := spans.key_first.symm.trans spans.key_last
      omega
  obtain ⟨position, here, reached, value⟩ := exists_reached_sample? (spans.timed finite) finite late
  obtain ⟨inside, present⟩ := List.getElem?_eq_some_iff.mp reached.present
  have back : keys[keys.length - 1]? = some (keys.getLast spans.nonempty) := by
    rw [← List.getLast?_eq_getElem?, List.getLast?_eq_some_getLast spans.nonempty]
  have passed := reached.last _ _ back
    ((Double.le_iff_key (spans.finite_last finite) finite).mpr spans.key_last.le)
  obtain rfl : position = keys.length - 1 := by omega
  have none : keys[keys.length - 1 + 1]? = none := List.getElem?_eq_none (by omega)
  obtain rfl := Option.some.inj (reached.present.symm.trans back)
  rw [value, none, between]

end Spans

/-! ## Channels -/

/-- The first node of a name in preorder. -/
def FirstNamed (model : Model) (name : String) (node : Node) : Prop :=
  ∃ before position after, model.nodes.preorder = before ++ (position, node) :: after ∧
    node.name = name ∧ ∀ entry ∈ before, entry.2.name ≠ name

theorem findNode?_eq_some_iff {name : String} {node : Node} :
    model.findNode? name = some node ↔ FirstNamed model name node := by
  rw [Model.findNode?, Option.map_eq_some_iff]
  constructor
  · rintro ⟨⟨position, node⟩, found, rfl⟩
    obtain ⟨named, before, after, split, others⟩ := List.find?_eq_some_iff_append.mp found
    exact ⟨before, position, after, split, by simpa using named, by simpa using others⟩
  · rintro ⟨before, position, after, split, named, others⟩
    exact ⟨(position, node), List.find?_eq_some_iff_append.mpr
      ⟨by simpa using named, before, after, split, by simpa using others⟩, rfl⟩

/-- The tree of a model has a node of the name that a channel moves. -/
def Finds (model : Model) (channel : Channel Single) : Prop :=
  ∃ entry ∈ model.nodes.preorder, entry.2.name = channel.node

theorem finds_iff {channel : Channel Single} :
    Finds model channel ↔ ∃ node, model.findNode? channel.node = some node := by
  rw [← Option.isSome_iff_exists, Model.findNode?, Option.isSome_map, NodeTree.find?,
    List.find?_isSome]
  simp [Finds]

theorem exists_bakeTrack_iff {channel : Channel Single} :
    (∃ track, bakeTrack clip model settings channel = .ok track) ↔ Finds model channel := by
  rw [finds_iff, bakeTrack]
  cases model.findNode? channel.node <;> simp

theorem bakeTrack_eq_error_iff {channel : Channel Single} {cause : ConversionError} :
    bakeTrack clip model settings channel = .error cause ↔
      ¬Finds model channel ∧ .unknownAnimationNode clip.name channel.node = cause := by
  rw [finds_iff, bakeTrack]
  cases model.findNode? channel.node <;> simp

/-- What a frame takes from one of the two tracks of a channel. -/
structure Sampled [Blend β] (clip : Clip Single) (frames : UInt32) (keys : List (Key β)) (rest : β)
    (frame : Nat) (value : β) : Prop where
  sample : value = (sample? (frameTime clip frames frame) keys).getD rest
  missing : keys = [] → value = rest
  first : ∀ spans : Spans keys clip.duration, frame = 0 →
    value = (keys.head spans.nonempty).value
  last : ∀ spans : Spans keys clip.duration, 0 < clip.duration → frame = frames.toNat →
    value = (keys.getLast spans.nonempty).value

theorem sampled [Blend β] (nonzero : 0 < frames.toNat) (finite : clip.duration.isFinite = true)
    (keys : List (Key β)) (rest : β) (frame : Nat) :
    Sampled clip frames keys rest frame
      ((sample? (frameTime clip frames frame) keys).getD rest) where
  sample := rfl
  missing := by
    rintro rfl
    rfl
  first spans start := by
    rw [start, spans.sample?_first (magnitude_frameTime_zero nonzero finite), Option.getD_some]
  last spans positive finish := by
    rw [finish, frameTime_last nonzero finite, spans.sample?_last finite positive, Option.getD_some]

/-- A track with a transform for every frame of a clip and one for its end, made of what the
channel's two tracks have there; a track without keys leaves the node at rest. -/
structure Resamples (clip : Clip Single) (model : Model) (frames : UInt32) (channel : Channel Single)
    (node : Node) (track : Track) : Prop where
  first : FirstNamed model channel.node node
  index : track.index = node.index
  size : track.frames.size = frames.toNat + 1
  samples : ∀ frame ≤ frames.toNat, ∃ translation rotation,
    track.frames[frame]? = some (.ofTranslationRotation translation rotation) ∧
      Sampled clip frames channel.positions node.transform.translation frame translation ∧
      Sampled clip frames channel.rotations node.transform.rotation frame rotation

theorem resamples_bakeChannel {channel : Channel Single} {node : Node} (nonzero : 0 < frames.toNat)
    (finite : clip.duration.isFinite = true) (found : model.findNode? channel.node = some node) :
    Resamples clip model frames channel node (bakeChannel clip frames channel node) where
  first := findNode?_eq_some_iff.mp found
  index := rfl
  size := by simp [bakeChannel]
  samples frame inside := by
    refine ⟨_, _, ?_, sampled nonzero finite .., sampled nonzero finite ..⟩
    simp [bakeChannel, Nat.lt_succ_iff.mpr inside, channelTransform]

/-- A clip of finite length can be baked if the model's tree has a node for every channel; otherwise
the first channel without one is reported. A baked clip has a frame at least and its tracks follow
the channels, in order, from the start of the clip at the first frame to its end at the last. -/
theorem bake_spans (finite : clip.duration.isFinite = true) :
    ((∃ animation, bake clip model settings = .ok animation) ↔
      ∀ channel ∈ clip.channels, Finds model channel) ∧
    (∀ cause, bake clip model settings = .error cause ↔ ∃ before channel after,
      clip.channels = before ++ channel :: after ∧ (∀ earlier ∈ before, Finds model earlier) ∧
        ¬Finds model channel ∧ .unknownAnimationNode clip.name channel.node = cause) ∧
    ∀ animation, bake clip model settings = .ok animation →
      1 ≤ animation.duration.toNat ∧
      (frameTime clip animation.duration 0).numEq 0 = true ∧
      frameTime clip animation.duration animation.duration.toNat = clip.duration ∧
      List.Forall₂ (fun channel track => ∃ node, Resamples clip model animation.duration channel node track)
        clip.channels animation.tracks := by
  refine ⟨?_, fun cause => ?_, fun animation success => ?_⟩
  · simp only [exists_bake_iff, finds_iff]
  · rw [bake_eq, map_eq_error_iff, mapM_eq_error_iff]
    simp only [bakeTrack_eq_error_iff, exists_bakeTrack_iff]
  · obtain ⟨tracks, traversed, rfl⟩ := map_eq_ok_iff.mp success
    have nonzero := frameCount_pos clip.duration clip.ticksPerSecond (bakeRate settings)
    refine ⟨nonzero, Double.numEq_zero_of_magnitude_eq_zero (magnitude_frameTime_zero nonzero finite),
      frameTime_last nonzero finite, ?_⟩
    refine (mapM_eq_ok_iff.mp traversed).imp fun channel track moved => ?_
    obtain ⟨node, found, rfl⟩ := bakeTrack_eq_ok_iff.mp moved
    exact ⟨node, resamples_bakeChannel nonzero finite found⟩

/-- A node that stands on another one. -/
def bust : Model where
  nodes := (NodeTree.ofRoot { name := "plinth" }).attach 0 { name := "head", index := 1 }

/-- The head is lifted and does not turn. -/
def nod : Clip Single where
  name := "nod"
  duration := .ofNat 10
  ticksPerSecond := .ofNat 25
  channels := [{ node := "head", positions := [⟨0, ⟨0, 1, 0⟩⟩, ⟨.ofNat 10, ⟨0, 1, 1⟩⟩] }]

theorem bake_spans_nod : nod.duration.isFinite = true ∧
    ∃ animation, bake nod bust {} = .ok animation ∧ 1 ≤ animation.duration.toNat ∧
      (frameTime nod animation.duration 0).numEq 0 = true ∧
      frameTime nod animation.duration animation.duration.toNat = .ofNat 10 ∧
      List.Forall₂ (fun channel track => ∃ node, Resamples nod bust animation.duration channel node track)
        nod.channels animation.tracks := by
  have finite : nod.duration.isFinite = true := by decide +kernel
  have finds : ∀ channel ∈ nod.channels, Finds bust channel := by
    unfold Finds
    decide +kernel
  obtain ⟨success, -, spans⟩ := @bake_spans nod bust {} finite
  obtain ⟨animation, baked⟩ := success.mpr finds
  exact ⟨finite, animation, baked, spans animation baked⟩

end SceneBaker.Build
