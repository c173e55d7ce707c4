import SceneBaker.Animation.Pose

/-! # Animations

An animation is a clip resampled onto whole frames. It is stored composed: for every frame the
transforms of all nodes of its model in the chosen spaces. Older files hold keyed tracks instead,
which are read as animations with one frame per key.
-/

namespace SceneBaker.Animation

open Number SceneBaker.Geometry Binary Model

structure Animation where
  version : Version := .current
  name : String := ""
  /-- Length in frames. -/
  duration : UInt32
  /-- Frames per second. -/
  rate : Double
  tracks : List Track
  /-- Number of nodes of the model that the tracks belong to. -/
  modelNodeCount : UInt32
deriving DecidableEq, Inhabited

namespace Animation

/-- Samples of a full track: one per frame and one for the end. -/
def sampleCount (animation : Animation) : Nat := animation.duration.toNat + 1

/-- The first track of a node. -/
def track? (animation : Animation) (index : UInt32) : Option Track :=
  animation.tracks.find? (·.index == index)

def header (animation : Animation) (model : Model) (spaces : Spaces) : Header where
  version := .current
  spaces := spaces
  duration := Double.ofNat animation.duration.toNat
  rate := animation.rate
  nodeCount := model.nodeCount
  boneCount := model.boneCount

/-- The transforms of the chosen spaces. -/
def encodePose (spaces : Spaces) (pose : Pose) : Output :=
  let given (stored : Bool) (transforms : Array (DualQuat Single)) : Output :=
    if stored then .each transforms.toList Output.dualQuat else .empty
  given spaces.parent pose.parent ++ given spaces.world pose.world ++ given spaces.bone pose.bone

/-- Compose and write `count` frames, starting with `frame`. All frames share one pose. `written`
holds the bytes of the frames before, the latest first. -/
def encodeFrames (composer : Composer) (spaces : Spaces) :
    (count frame : Nat) → Pose → (written : List (List UInt8)) → Output
  | 0, _, _, written => .ofBytes written.reverse.flatten
  | count + 1, frame, pose, written =>
    match composer.compose frame pose with
    | (pose, none) =>
      encodeFrames composer spaces count (frame + 1) pose
        ((encodePose spaces pose).bytes :: written)
    | (_, some cause) => ⟨written.reverse.flatten, some cause⟩

/-- Write the animation composed against a model. The event count at the end is always 0. -/
def encode (animation : Animation) (model : Model) (spaces : Spaces) : Output :=
  if animation.modelNodeCount = model.nodeCount then
    (animation.header model spaces).encode ++
      match Composer.ofTracks model animation.tracks with
      | .error cause => .stop cause
      | .ok composer =>
        let pose := Pose.identity model.nodes.size model.skeleton.length
        encodeFrames composer spaces animation.duration.toNat 0 pose [] ++ .u32 0
  else .stop (.countMismatch .modelNode animation.modelNodeCount model.nodes.size)

def toBytes (animation : Animation) (model : Model) (spaces : Spaces) :
    Except CodecError (List UInt8) :=
  (animation.encode model spaces).result

end Animation

/-! ## Files of composed frames -/

/-- A file of composed frames; a pose is empty in the spaces that are not stored. -/
structure FrameFile where
  header : Header
  frames : List Pose
  eventCount : UInt32
deriving DecidableEq, Inhabited

namespace FrameFile

/-- The transforms of one frame in the spaces of the header. -/
def decodePose (header : Header) : Reader Pose := do
  let transforms (stored : Bool) (count : UInt32) : Reader (Array (DualQuat Single)) :=
    if stored then return (← Reader.times count.toNat Reader.dualQuat).toArray else pure #[]
  return ⟨← transforms header.spaces.parent header.nodeCount,
    ← transforms header.spaces.world header.nodeCount,
    ← transforms header.spaces.bone header.boneCount⟩

/-- Everything behind the header. A file whose frames would be empty stores none. -/
def decode (header : Header) : Reader FrameFile := do
  let count := if header.floatsPerFrame = 0 then 0 else header.frameCount
  let frames ← Reader.times count (decodePose header)
  return ⟨header, frames, ← Reader.u32⟩

end FrameFile

/-! ## Files of keyed tracks -/

/-- A transform at a time. -/
structure TransformKey where
  time : Double
  transform : DualQuat Single
deriving DecidableEq, Inhabited

/-- Keys of one node. -/
structure KeyTrack where
  index : UInt32
  keys : List TransformKey
deriving DecidableEq, Inhabited

/-- A file of keyed tracks. -/
structure KeyFile where
  version : Version
  duration : Double
  rate : Double
  modelNodeCount : UInt32
  tracks : List KeyTrack
deriving DecidableEq, Inhabited

namespace KeyFile

/-- `bbanim` and a zero; one version byte follows, and the minor revision is 0. -/
def magic : List UInt8 := [0x62, 0x62, 0x61, 0x6e, 0x69, 0x6d, 0]

def decodeKey : Reader TransformKey := return ⟨← Reader.double, ← Reader.dualQuat⟩

/-- A track whose node has to exist. -/
def decodeTrack (nodeCount : UInt32) : Reader KeyTrack := do
  let index ← Reader.index .animationNode
  Reader.ofExcept (Model.checkIndex .animationNode index nodeCount)
  let count ← Reader.u32
  return ⟨index, ← Reader.times count.toNat decodeKey⟩

/-- Everything behind the magic. -/
def decode : Reader KeyFile := do
  let version : Version := ⟨← Reader.u8, 0⟩
  if !version.supported then Reader.fail (.unsupportedVersion version)
  let duration ← Reader.double
  let rate ← Reader.double
  let modelNodeCount ← Reader.u32
  let trackCount ← Reader.u32
  let tracks ← Reader.times trackCount.toNat (decodeTrack modelNodeCount)
  return ⟨version, duration, rate, modelNodeCount, tracks⟩

/-- The tracks with one frame per key. A duration below 1, or not finite, counts as 1. -/
def toAnimation (file : KeyFile) (name : String) : Animation where
  version := file.version
  name := name
  duration :=
    if file.duration.isFinite && 1 ≤ file.duration then
      UInt32.ofNat (file.duration.toNatClamped 0xffffffff)
    else 1
  rate := file.rate
  tracks := file.tracks.map fun track => ⟨track.index, (track.keys.map (·.transform)).toArray⟩
  modelNodeCount := file.modelNodeCount

end KeyFile

/-- An animation file of either kind. -/
inductive AnimationFile where
  | frames (file : FrameFile)
  | keys (file : KeyFile)
deriving DecidableEq

namespace AnimationFile

/-- The magic decides the kind. -/
def decode : Reader AnimationFile := do
  let found ← Reader.take Header.magic.length
  if found = Header.magic then return .frames (← FrameFile.decode (← Header.decodeFields))
  else if found = KeyFile.magic then return .keys (← KeyFile.decode)
  else .fail (.unknownMagic found)

def ofBytes (bytes : List UInt8) : Except CodecError AnimationFile := decode.run bytes

def version : AnimationFile → Version
  | frames file => file.header.version
  | keys file => file.version

end AnimationFile

end SceneBaker.Animation
