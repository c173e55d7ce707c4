import SceneBaker.Animation.Basic
import SceneBaker.Proofs.Animation.Reuse
import SceneBaker.Proofs.Binary.Size
import SceneBaker.Proofs.Number.Whole
import SceneBaker.Proofs.Steps

/-! # Animations through their files

A written animation is read back frame by frame: each frame holds, in the stored spaces, what its
composition leaves in a fresh pose, although all frames were composed into the same one.
-/

set_option linter.dupNamespace false

namespace SceneBaker.Animation

open Number SceneBaker.Geometry Binary Model

/-- What a file with these spaces holds of a pose. -/
def Pose.stored (pose : Pose) (spaces : Spaces) : Pose where
  parent := if spaces.parent then pose.parent else #[]
  world := if spaces.world then pose.world else #[]
  bone := if spaces.bone then pose.bone else #[]

/-- A pose with as many transforms as a header says. -/
structure Header.Sizes (header : Header) (pose : Pose) : Prop where
  parent : pose.parent.size = header.nodeCount.toNat
  world : pose.world.size = header.nodeCount.toNat
  bone : pose.bone.size = header.boneCount.toNat

variable {header : Header} {pose : Pose}

/-! ## Headers -/

@[simp] theorem Spaces.ofBits_bits (spaces : Spaces) : ofBits spaces.bits = spaces := by
  obtain ⟨parent, world, bone⟩ := spaces
  cases parent <;> cases world <;> cases bone <;> decide

/-- The fields behind the magic. -/
def Header.encodeFields (header : Header) : Output :=
  .u8 header.version.major ++ (.u8 header.version.minor ++ (.u8 header.spaces.bits ++
    (.double header.duration ++ (.double header.rate ++
      (.u32 header.nodeCount ++ .u32 header.boneCount)))))

theorem Header.encode_eq (header : Header) :
    header.encode = .ofBytes magic ++ header.encodeFields := by
  simp only [encode, encodeFields, Output.append_assoc]

theorem Header.recovers_decodeFields (supported : header.version.supported = true) :
    decodeFields.Recovers header.encodeFields header := by
  apply (Reader.recovers_u8 _).bind
  apply (Reader.recovers_u8 _).bind
  apply Reader.Recovers.otherwise (by simpa using supported)
  apply (Reader.recovers_u8 _).bind
  apply (Reader.recovers_double _).bind
  apply (Reader.recovers_double _).bind
  apply (Reader.recovers_u32 _).bind
  refine ((Reader.recovers_u32 _).bind_pure _).congr ?_
  rw [Spaces.ofBits_bits]

theorem Header.takes_encode (header : Header) : header.encode.Takes 34 := ⟨rfl, rfl⟩

/-- A duration that was a whole number is a number of frames. -/
theorem Header.frameCount_of_duration {duration : Nat} (small : duration < 2 ^ 53)
    (whole : header.duration = Double.ofNat duration) : header.frameCount = duration := by
  rw [frameCount, whole, Double.isFinite_ofNat small, Bool.true_and]
  rcases Nat.eq_zero_or_pos duration with rfl | positive
  · decide
  · rw [decide_eq_true (Double.zero_lt_ofNat positive small), if_pos rfl,
      Double.toNatClamped_ofNat small]
    omega

/-! ## Frames -/

private theorem recovers_transforms (stored : Bool) {count : UInt32}
    {transforms : Array (DualQuat Single)} (sized : transforms.size = count.toNat) :
    (if stored then (do return (← Reader.times count.toNat Reader.dualQuat).toArray)
      else pure #[] : Reader (Array (DualQuat Single))).Recovers
      (if stored then .each transforms.toList Output.dualQuat else .empty)
      (if stored then transforms else #[]) := by
  cases stored with
  | false => exact .pure _
  | true =>
    rw [← sized, ← Array.length_toList]
    refine (Reader.Recovers.bind_pure (.times fun value _ => Reader.recovers_dualQuat value)
      _).congr ?_
    simp

private theorem takes_transforms (stored : Bool) {count : Nat}
    {transforms : Array (DualQuat Single)} (sized : transforms.size = count) :
    Output.Takes (if stored then .each transforms.toList Output.dualQuat else .empty)
      (4 * if stored then count * 8 else 0) := by
  cases stored with
  | false => exact .empty
  | true =>
    have bytes : 4 * (count * 8) = transforms.toList.length * 32 := by
      rw [Array.length_toList, sized]
      omega
    rw [if_pos rfl, if_pos rfl, bytes]
    exact .each fun value _ => Output.takes_dualQuat value

theorem FrameFile.recovers_decodePose (sizes : header.Sizes pose) :
    (decodePose header).Recovers (Animation.encodePose header.spaces pose)
      (pose.stored header.spaces) := by
  rw [Animation.encodePose, Output.append_assoc]
  apply (recovers_transforms header.spaces.parent sizes.parent).bind
  apply (recovers_transforms header.spaces.world sizes.world).bind
  exact (recovers_transforms header.spaces.bone sizes.bone).bind_pure _

theorem Animation.takes_encodePose (sizes : header.Sizes pose) :
    (encodePose header.spaces pose).Takes (4 * header.floatsPerFrame) := by
  have parent := takes_transforms header.spaces.parent sizes.parent
  have world := takes_transforms header.spaces.world sizes.world
  have bone := takes_transforms header.spaces.bone sizes.bone
  rw [Header.floatsPerFrame, Nat.mul_add, Nat.mul_add]
  exact (parent.append world).append bone

/-- Frames that hold no transform are not read. -/
theorem FrameFile.recovers_frames {poses : List Pose} (sizes : ∀ pose ∈ poses, header.Sizes pose) :
    (Reader.times (if header.floatsPerFrame = 0 then 0 else poses.length)
      (decodePose header)).Recovers (.each poses (Animation.encodePose header.spaces))
      (if header.floatsPerFrame = 0 then [] else poses.map (·.stored header.spaces)) := by
  split
  case isTrue none =>
    have takes : (Output.each poses (Animation.encodePose header.spaces)).Takes
        (poses.length * (4 * header.floatsPerFrame)) :=
      .each fun pose member => Animation.takes_encodePose (sizes pose member)
    rw [none] at takes
    rw [takes.eq_empty]
    exact .pure []
  case isFalse =>
    apply Reader.Recovers.times
    intro pose member
    exact FrameFile.recovers_decodePose (sizes pose member)

/-- The file of some poses with a header that counts them. -/
def FrameFile.ofPoses (header : Header) (poses : List Pose) (events : UInt32) : FrameFile where
  header := header
  frames := if header.floatsPerFrame = 0 then [] else poses.map (·.stored header.spaces)
  eventCount := events

theorem FrameFile.recovers_decode {poses : List Pose} (count : header.frameCount = poses.length)
    (sizes : ∀ pose ∈ poses, header.Sizes pose) (events : UInt32) :
    (FrameFile.decode header).Recovers
      (.each poses (Animation.encodePose header.spaces) ++ .u32 events)
      (ofPoses header poses events) := by
  have frames := recovers_frames sizes
  rw [← count] at frames
  exact frames.bind ((Reader.recovers_u32 events).bind_pure _)

theorem AnimationFile.recovers_decode {poses : List Pose}
    (supported : header.version.supported = true) (count : header.frameCount = poses.length)
    (sizes : ∀ pose ∈ poses, header.Sizes pose) (events : UInt32) :
    AnimationFile.decode.Recovers
      (header.encode ++ (.each poses (Animation.encodePose header.spaces) ++ .u32 events))
      (.frames (.ofPoses header poses events)) := by
  rw [header.encode_eq, Output.append_assoc]
  apply (Reader.recovers_take Header.magic).bind
  rw [if_pos rfl]
  apply (Header.recovers_decodeFields supported).bind
  exact (FrameFile.recovers_decode count sizes events).bind_pure AnimationFile.frames

/-! ## Writing -/

namespace Animation

variable {composer : Composer} {spaces : Spaces} {fresh : Pose} {model : Model}
  {animation : Animation}

theorem complete_encodePose (spaces : Spaces) (pose : Pose) :
    (encodePose spaces pose).failure = none := by
  have given (stored : Bool) (transforms : Array (DualQuat Single)) :
      (if stored then .each transforms.toList Output.dualQuat else .empty : Output).failure =
        none := (takes_transforms stored rfl).complete
  simp only [encodePose, Output.failure_append, given, Option.or_none]

/-- The frames that are written are those that a fresh pose gives, as long as the pose at hand gives
the same. There are fewer of them than asked for if the composer stopped. -/
theorem encodeFrames_eq (spaces : Spaces) (count frame : Nat) (written : List (List UInt8))
    (clean : ∀ next, composer.compose next pose = composer.compose next fresh) :
    ∃ (poses : List Pose) (stopped : Option CodecError), poses.length ≤ count ∧
      (stopped = none → poses.length = count) ∧
      (∀ index pose, poses[index]? = some pose →
        composer.compose (frame + index) fresh = (pose, none)) ∧
      encodeFrames composer spaces count frame pose written =
        .ofBytes written.reverse.flatten ++ (.each poses (encodePose spaces) ++ ⟨[], stopped⟩) := by
  induction count generalizing frame pose written with
  | zero =>
    refine ⟨[], none, le_refl 0, fun _ => rfl, by simp, ?_⟩
    change _ = Output.ofBytes _ ++ Output.empty
    rw [Output.append_empty]
    rfl
  | succ count ih =>
    rw [encodeFrames]
    split
    case h_2 _ cause stopped =>
      refine ⟨[], some cause, Nat.zero_le _, by simp, by simp, ?_⟩
      rw [Output.each_nil, Output.empty_append]
      exact congrArg (Output.mk · (some cause)) (List.append_nil _).symm
    case h_1 after success =>
      -- The pose was given as the fresh one would be, and goes on to give what that one gives.
      have alone := (clean frame).symm.trans success
      have later (next : Nat) : composer.compose next after = composer.compose next fresh :=
        (Composer.compose_compose success next).trans (clean next)
      obtain ⟨poses, stopped, most, all, composed, written_eq⟩ :=
        ih (frame + 1) ((encodePose spaces after).bytes :: written) later
      refine ⟨after :: poses, stopped, Nat.succ_le_succ most, fun whole => congrArg (· + 1) (all whole),
        ?_, ?_⟩
      · intro index pose found
        cases index with
        | zero => exact Option.some.inj found ▸ alone
        | succ index =>
          have position : frame + (index + 1) = frame + 1 + index := by omega
          rw [position]
          exact composed index pose found
      · rw [written_eq, Output.each_cons, Output.append_assoc, ← Output.append_assoc,
          List.reverse_cons, List.flatten_append, List.flatten_singleton, Output.ofBytes_append,
          Output.ofBytes_bytes (complete_encodePose spaces after), Output.append_assoc,
          Output.append_assoc]

/-- Behind the header the writer puts the frames of fresh poses, up to the one that stops it. -/
theorem encode_eq (agreed : animation.modelNodeCount = model.nodeCount)
    (prepared : Composer.ofTracks model animation.tracks = .ok composer) (spaces : Spaces) :
    ∃ (poses : List Pose) (stopped : Option CodecError),
      poses.length ≤ animation.duration.toNat ∧
      (stopped = none → poses.length = animation.duration.toNat) ∧
      (∀ index pose, poses[index]? = some pose →
        composer.compose index (.identity model.nodes.size model.skeleton.length) = (pose, none)) ∧
      animation.encode model spaces = (animation.header model spaces).encode ++
        (.each poses (encodePose spaces) ++ (⟨[], stopped⟩ ++ .u32 0)) := by
  obtain ⟨poses, stopped, most, all, composed, same⟩ := encodeFrames_eq spaces
    animation.duration.toNat 0 [] fun next => Eq.refl (composer.compose next _)
  refine ⟨poses, stopped, most, all, ?_, ?_⟩
  · intro index pose found
    simpa using composed index pose found
  · rw [encode, if_pos agreed, prepared]
    dsimp only
    rw [same, Output.append_assoc, Output.append_assoc]
    rfl

/-- Nothing stops the writer but another number of nodes, a track that names no node and a node or a
bone that has no place; what it writes then are the frames of fresh poses. -/
theorem exists_poses {bytes : List UInt8} (written : animation.toBytes model spaces = .ok bytes) :
    ∃ composer poses, Composer.ofTracks model animation.tracks = .ok composer ∧
      poses.length = animation.duration.toNat ∧
      (∀ index pose, poses[index]? = some pose →
        composer.compose index (.identity model.nodes.size model.skeleton.length) = (pose, none)) ∧
      ((animation.header model spaces).encode ++
        (.each poses (encodePose spaces) ++ .u32 0)).bytes = bytes := by
  obtain ⟨complete, rfl⟩ := Output.of_result_eq_ok written
  by_cases agreed : animation.modelNodeCount = model.nodeCount
  case neg =>
    rw [encode, if_neg agreed] at complete
    cases complete
  case pos =>
    cases prepared : Composer.ofTracks model animation.tracks with
    | error cause =>
      rw [encode, if_pos agreed, prepared, Output.failure_append_eq_none_iff] at complete
      cases complete.2
    | ok composer =>
      obtain ⟨poses, stopped, -, all, composed, same⟩ := encode_eq agreed prepared spaces
      rw [same] at complete ⊢
      simp only [Output.failure_append_eq_none_iff] at complete
      obtain rfl : stopped = none := complete.2.2.1
      exact ⟨composer, poses, rfl, all rfl, composed, rfl⟩

/-- Composed poses have the sizes that the header says. -/
theorem sizes_of_composed (animation : Animation) (spaces : Spaces)
    (nodes : model.nodes.size < 2 ^ 32) (bones : model.skeleton.length < 2 ^ 32)
    {poses : List Pose} (composed : ∀ index pose, poses[index]? = some pose →
      composer.compose index (.identity model.nodes.size model.skeleton.length) = (pose, none)) :
    ∀ pose ∈ poses, (animation.header model spaces).Sizes pose := by
  have nodeCount : (animation.header model spaces).nodeCount.toNat = model.nodes.size :=
    UInt32.toNat_ofNat_of_lt' nodes
  have boneCount : (animation.header model spaces).boneCount.toNat = model.skeleton.length :=
    UInt32.toNat_ofNat_of_lt' bones
  intro pose member
  obtain ⟨index, found⟩ := List.mem_iff_getElem?.mp member
  obtain ⟨parent, world, bone⟩ := Composer.fits_of_compose (composed index pose found)
  constructor
  · rw [parent, nodeCount, Pose.identity, Array.size_replicate]
  · rw [world, nodeCount, Pose.identity, Array.size_replicate]
  · rw [bone, boneCount, Pose.identity, Array.size_replicate]

theorem frameCount_header (animation : Animation) (model : Model) (spaces : Spaces) :
    (animation.header model spaces).frameCount = animation.duration.toNat :=
  Header.frameCount_of_duration (animation.duration.toNat_lt.trans (by decide)) rfl

/-- A written animation is read back with its header. -/
theorem exists_file_of_toBytes {bytes : List UInt8} (nodes : model.nodes.size < 2 ^ 32)
    (bones : model.skeleton.length < 2 ^ 32) (written : animation.toBytes model spaces = .ok bytes) :
    ∃ file, AnimationFile.ofBytes bytes = .ok (.frames file) ∧
      file.header = animation.header model spaces := by
  obtain ⟨composer, poses, -, length, composed, rfl⟩ := exists_poses written
  have count := (animation.frameCount_header model spaces).trans length.symm
  have recovers := AnimationFile.recovers_decode rfl count
    (animation.sizes_of_composed spaces nodes bones composed) 0
  exact ⟨_, Reader.run_eq_ok_iff.mpr ⟨[], recovers.run_bytes⟩, rfl⟩

end Animation

/-! ## What a file depends on -/

/-- The composer with another model behind the same tracks and offsets. -/
def Composer.withModel (composer : Composer) (model : Model) : Composer := { composer with model }

/-- A composer reads nothing of its model but the tree. -/
theorem Composer.compose_withModel (composer : Composer) {model : Model}
    (nodes : model.nodes = composer.model.nodes) (frame : Nat) (pose : Pose) :
    (composer.withModel model).compose frame pose = composer.compose frame pose := by
  have worlds : (composer.withModel model).worlds frame = composer.worlds frame := by
    have own : (composer.withModel model).nodeTransform = composer.nodeTransform := rfl
    rw [Composer.worlds, Composer.worlds, own, Composer.withModel, nodes]
  rw [compose, compose, worlds]
  generalize composer.worlds frame = entries
  induction entries generalizing pose with
  | nil => rfl
  | cons entry rest ih =>
    have here : (composer.withModel model).place = composer.place := rfl
    rw [placeAll, placeAll, here]
    split
    · exact ih _
    · rfl

theorem Composer.ofTracks_congr {first second : Model} (nodes : second.nodes = first.nodes)
    (skeleton : second.skeleton = first.skeleton) (tracks : List Track) :
    ofTracks second tracks = (ofTracks first tracks).map (·.withModel second) := by
  rw [ofTracks, ofTracks, Model.nodeCount, Model.nodeCount, nodes, skeleton]
  have rename (indexed : Except CodecError (Array (Option Track)))
      (offsets : Array (DualQuat Single)) :
      (do return ⟨second, ← indexed, offsets⟩ : Except CodecError Composer) =
        (do return ⟨first, ← indexed, offsets⟩ : Except CodecError Composer).map (·.withModel second) := by
    cases indexed with
    | error => rfl
    | ok => rfl
  exact rename ..

theorem Composer.model_of_ofTracks {model : Model} {tracks : List Track} {composer : Composer}
    (success : ofTracks model tracks = .ok composer) : composer.model = model := by
  obtain ⟨indexed, -, made⟩ := Steps.bind_eq_ok_iff.mp success
  rw [← Except.ok.inj made]

namespace Animation

variable {spaces : Spaces}

theorem encodeFrames_congr {first second : Composer}
    (same : ∀ frame pose, second.compose frame pose = first.compose frame pose)
    (count frame : Nat) (pose : Pose) (written : List (List UInt8)) :
    encodeFrames second spaces count frame pose written =
      encodeFrames first spaces count frame pose written := by
  induction count generalizing frame pose written with
  | zero => rfl
  | succ count ih =>
    rw [encodeFrames, encodeFrames, same]
    split
    · exact ih ..
    · rfl

/-- The file of an animation depends on the tree and the skeleton of its model alone. -/
theorem encode_congr {first second : Model} (nodes : second.nodes = first.nodes)
    (skeleton : second.skeleton = first.skeleton) (animation : Animation) (spaces : Spaces) :
    animation.encode second spaces = animation.encode first spaces := by
  have header : animation.header second spaces = animation.header first spaces := by
    rw [Animation.header, Animation.header, Model.nodeCount, Model.nodeCount, Model.boneCount,
      Model.boneCount, nodes, skeleton]
  have count : second.nodeCount = first.nodeCount := by rw [Model.nodeCount, Model.nodeCount, nodes]
  rw [encode, encode, header, count, Composer.ofTracks_congr nodes skeleton, nodes, skeleton]
  cases made : Composer.ofTracks first animation.tracks with
  | error => rfl
  | ok composer =>
    have tree : second.nodes = composer.model.nodes := Composer.model_of_ofTracks made ▸ nodes
    simp only [Except.map, encodeFrames_congr (composer.compose_withModel tree)]

end Animation

/-! ## Round trip -/

/-- A file of an animation: its frames are what a composer leaves in a fresh pose. -/
structure FrameFile.Shows (file : FrameFile) (header : Header) (composer : Composer) (fresh : Pose)
    (duration : Nat) : Prop where
  headed : file.header = header
  events : file.eventCount = 0
  absent : header.floatsPerFrame = 0 → file.frames = []
  count : 0 < header.floatsPerFrame → file.frames.length = duration
  frames : 0 < header.floatsPerFrame → ∀ frame < duration, ∃ pose,
    composer.compose frame fresh = (pose, none) ∧
      file.frames[frame]? = some (pose.stored header.spaces)

theorem FrameFile.shows_ofPoses {composer : Composer} {fresh : Pose} {poses : List Pose}
    (composed : ∀ index pose, poses[index]? = some pose →
      composer.compose index fresh = (pose, none)) :
    (ofPoses header poses 0).Shows header composer fresh poses.length := by
  constructor
  case headed => rfl
  case events => rfl
  case absent => exact fun none => if_pos none
  case count =>
    intro some
    rw [ofPoses, if_neg some.ne', List.length_map]
  case frames =>
    intro some frame inside
    refine ⟨poses[frame], composed frame _ (List.getElem?_eq_getElem inside), ?_⟩
    rw [ofPoses, if_neg some.ne', List.getElem?_map, List.getElem?_eq_getElem inside]
    rfl

/-- A written animation has the size that its header gives and is read back whole, each frame as a
fresh pose has it. Whatever frame a pose went through, the next one comes out as before. -/
theorem decode_toBytes_frames {animation : Animation} {model : Model} {spaces : Spaces}
    {bytes : List UInt8} (nodes : model.nodes.size < 2 ^ 32) (bones : model.skeleton.length < 2 ^ 32)
    (written : animation.toBytes model spaces = .ok bytes) :
    bytes.length = 34 + 4 * (animation.header model spaces).floatsPerFrame *
      animation.duration.toNat + 4 ∧
    ∃ composer file, Composer.ofTracks model animation.tracks = .ok composer ∧
      AnimationFile.decode bytes = .ok (.frames file, []) ∧
      file.Shows (animation.header model spaces) composer
        (.identity model.nodes.size model.skeleton.length) animation.duration.toNat ∧
      ∀ pose first middle next, composer.compose first pose = (middle, none) →
        composer.compose next middle = composer.compose next pose := by
  obtain ⟨composer, poses, prepared, length, composed, rfl⟩ := Animation.exists_poses written
  have sizes := animation.sizes_of_composed spaces nodes bones composed
  have count := (animation.frameCount_header model spaces).trans length.symm
  have body : (Output.each poses (Animation.encodePose spaces)).Takes (poses.length * _) :=
    .each fun pose member => Animation.takes_encodePose (sizes pose member)
  refine ⟨?_, composer, _, prepared,
    (AnimationFile.recovers_decode rfl count sizes 0).run_bytes,
    length ▸ FrameFile.shows_ofPoses composed, ?_⟩
  · have header := (animation.header model spaces).takes_encode
    have total := header.append (body.append (Output.takes_u32 0))
    rw [total.length, ← length]
    ring
  · intro pose first middle next success
    exact Composer.compose_compose success next

/-- A model whose root and limb share an index, and whose skeleton has a bone that no node moves. -/
def crowded : Model where
  nodes := ((NodeTree.ofRoot { name := "root" }).attach 0
    { name := "limb", isBone := true }).attach 1 { name := "tip", index := 2 }
  skeleton := [{ name := "limb" }, { name := "phantom", index := 7 }]

/-- Two frames of which the second moves the tip no more. -/
def twitch : Animation where
  duration := 2
  rate := 1
  tracks := [⟨2, #[1 * 1, 1]⟩]
  modelNodeCount := 3

theorem decode_toBytes_frames_twitch : ∃ bytes, twitch.toBytes crowded ⟨true, false, true⟩ = .ok bytes ∧
    bytes.length = 34 + 4 * (twitch.header crowded ⟨true, false, true⟩).floatsPerFrame * 2 + 4 ∧
    ∃ composer file, Composer.ofTracks crowded twitch.tracks = .ok composer ∧
      AnimationFile.decode bytes = .ok (.frames file, []) ∧
      file.Shows (twitch.header crowded ⟨true, false, true⟩) composer (.identity 3 2) 2 := by
  have complete : (twitch.encode crowded ⟨true, false, true⟩).failure = none := by decide +kernel
  have written := Output.result_eq_ok complete
  obtain ⟨length, composer, file, prepared, read, shows, -⟩ :=
    decode_toBytes_frames (by decide) (by decide) written
  exact ⟨_, written, length, composer, file, prepared, read, shows⟩

end SceneBaker.Animation
