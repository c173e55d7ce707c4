import SceneBaker.Animation.Basic
import SceneBaker.Build.Error
import SceneBaker.Scene.Basic
import SceneBaker.Settings

/-! # Baking clips

A clip is resampled onto whole frames: frame `k` of `d` shows the clip at `k / d` of its length, so
that the first and the last frame show its two ends. Between two keys the value is blended, on a key
it is the key's own.
-/

namespace SceneBaker.Build

open Number SceneBaker.Geometry Model Animation Scene

/-- Values that can be blended. -/
class Blend (β : Type) where
  blend : β → β → Single → β

instance : Blend (Vec3 Single) := ⟨Vec3.lerp⟩
instance : Blend (Quat Single) := ⟨Quat.slerp⟩

/-- The value at a time that is not before `previous`, which the other keys follow. Past the last
key its value is held. -/
def sampleFrom {β : Type} [Blend β] (time : Double) (previous : Key β) : List (Key β) → β
  | [] => previous.value
  | next :: rest =>
    if time < next.time then
      let span := next.time - previous.time
      let factor := if 0 < span then (time - previous.time) / span else 0
      if factor ≤ 0 then previous.value
      else Blend.blend previous.value next.value factor.toSingle
    else sampleFrom time next rest

/-- The value of a track at a time; up to the first key, and with only one, the first key's. -/
def sample? {β : Type} [Blend β] (time : Double) : List (Key β) → Option β
  | [] => none
  | [only] => some only.value
  | first :: rest => some (if time ≤ first.time then first.value else sampleFrom time first rest)

/-- The tick rate of clips that declare none. -/
def defaultTickRate : Double := ⟨0x4039000000000000⟩

/-- Number of frames of a clip at a frame rate, at least one. -/
def frameCount (duration ticksPerSecond rate : Double) : UInt32 :=
  let ticks := if 0 < ticksPerSecond then ticksPerSecond else defaultTickRate
  let frames := (duration / (ticks / rate.max 1)).ceil
  if frames.isFinite && 1 ≤ frames then UInt32.ofNat (frames.toNatClamped 0xffffffff) else 1

/-- The time in a clip that a frame shows. -/
def frameTime (clip : Clip Single) (frames : UInt32) (frame : Nat) : Double :=
  Double.ofNat frame / Double.ofNat frames.toNat * clip.duration

/-- The transform of a node at a time: the channel's tracks, or the node at rest for a track without
keys. -/
def channelTransform (channel : Channel Single) (node : Node) (time : Double) : DualQuat Single :=
  DualQuat.ofTranslationRotation
    ((sample? time channel.positions).getD node.transform.translation)
    ((sample? time channel.rotations).getD node.transform.rotation)

/-- The frame rate of baked animations: whole, and at least one. -/
def bakeRate (settings : Settings) : Double := settings.samplingRate.floor.max 1

/-- One sample for every frame and one for the end. -/
def bakeChannel (clip : Clip Single) (frames : UInt32) (channel : Channel Single) (node : Node) :
    Track :=
  ⟨node.index, ((List.range (frames.toNat + 1)).map fun frame =>
    channelTransform channel node (frameTime clip frames frame)).toArray⟩

/-- Resample a clip against a model that has a node for every channel. -/
def bake (clip : Clip Single) (model : Model) (settings : Settings) :
    Except ConversionError Animation := do
  let rate := bakeRate settings
  let frames := frameCount clip.duration clip.ticksPerSecond rate
  let tracks ← clip.channels.mapM fun channel =>
    match model.findNode? channel.node with
    | some node => .ok (bakeChannel clip frames channel node)
    | none => .error (.unknownAnimationNode clip.name channel.node)
  return { name := clip.name, duration := frames, rate, tracks, modelNodeCount := model.nodeCount }

/-- What the log says about a new animation. -/
def bakeLog (animation : Animation) : LogLine :=
  ⟨.debug, s!"Baked \"{animation.name}\": {animation.duration.toNat} frames at {animation.rate.text} "
    ++ s!"fps, {animation.tracks.length} channels"⟩

/-! ## File names -/

/-- What exporters put in front of clip names. -/
def strippedNames : List String := ["Armature|", "mixamo.com|"]

/-- Characters that file names may not have. -/
def illegalChars : List Char := ['<', '>', ':', '"', '/', '\\', '|', '?', '*']

/-- A text without what it starts with, if it starts with that. -/
def dropStart (start text : List Char) : List Char :=
  if start.isPrefixOf text then text.drop start.length else text

/-- A clip name as part of a file name; without a name, the clip's number. -/
def clipFileStem (name : String) (index : Nat) : String :=
  let stripped := strippedNames.foldl (fun text start => dropStart start.toList text) name.toList
  if stripped.isEmpty then s!"anim{index}"
  else String.ofList (stripped.map fun c => if illegalChars.contains c then '_' else c)

def animationExtension : String := "bbanim"

/-- File name of a clip, with the model's name in front or without it. -/
def clipFileName (stem name : String) (index : Nat) (withStem : Bool) : String :=
  let clip := clipFileStem name index
  (if withStem then stem ++ "_" else "") ++ clip ++ "." ++ animationExtension

end SceneBaker.Build
