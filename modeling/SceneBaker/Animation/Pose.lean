import SceneBaker.Animation.Header
import SceneBaker.Model.Basic

/-! # Poses

A pose holds the transforms of every node and bone of a model for one frame. A `Composer` fills
poses: parents before children, each node's world transform being its parent's times its own, and
each bone's transform the world transform of its node times the bone's offset.
-/

namespace SceneBaker.Model.NodeTree

/-- The nodes with their world transforms, for given transforms of the nodes relative to their
parents: parents first, and later siblings before earlier ones. -/
def worlds {M : Type} [One M] [Mul M] (tree : NodeTree) (own : Node → M) : List (Node × M) :=
  let world (above : Option M) (position : Nat) : M :=
    match tree.get? position with
    | some node => above.getD 1 * own node
    | none => above.getD 1
  let siblingsReversed : Links := tree.links.map List.reverse
  (siblingsReversed.walk .skip world 0).filterMap fun (position, transform) =>
    (tree.get? position).map (·, transform)

end SceneBaker.Model.NodeTree

namespace SceneBaker.Animation

open Number SceneBaker.Geometry Binary Model

/-- Resampled transforms of one node, relative to its parent. -/
structure Track where
  /-- Index of the node. -/
  index : UInt32
  frames : Array (DualQuat Single)
deriving DecidableEq, Inhabited

namespace Track

/-- The transform at a frame; a track that is too short holds its last one. -/
def sample? (track : Track) (frame : Nat) : Option (DualQuat Single) :=
  track.frames[frame]?.or track.frames.back?

end Track

/-- Transforms of one frame: nodes by node index, bones by bone index. -/
structure Pose where
  parent : Array (DualQuat Single)
  world : Array (DualQuat Single)
  bone : Array (DualQuat Single)
deriving DecidableEq, Inhabited

/-- A pose of some size in which nothing is moved. -/
def Pose.identity (nodes bones : Nat) : Pose :=
  ⟨Array.replicate nodes 1, Array.replicate nodes 1, Array.replicate bones 1⟩

/-- A model with the tracks that move it. -/
structure Composer where
  model : Model
  /-- The track of each node index. -/
  tracks : Array (Option Track)
  /-- The offset of each bone index. -/
  offsets : Array (DualQuat Single)

namespace Composer

/-- Of several tracks for a node the last one counts; each has to name a node of the model. -/
def ofTracks (model : Model) (tracks : List Track) : Except CodecError Composer := do
  let indexed ← tracks.foldlM
    (fun indexed track =>
      if track.index.toNat < indexed.size then
        .ok (indexed.setIfInBounds track.index.toNat (some track))
      else .error (.indexOutOfRange .animationNode track.index model.nodeCount))
    (Array.replicate model.nodes.size none)
  let offsets := model.skeleton.foldl
    (fun offsets bone => offsets.setIfInBounds bone.index.toNat bone.offset)
    (Array.replicate model.skeleton.length 1)
  return ⟨model, indexed, offsets⟩

/-- The transform of a node relative to its parent: its track's, or its own at rest. -/
def nodeTransform (composer : Composer) (frame : Nat) (node : Node) : DualQuat Single :=
  ((composer.tracks[node.index.toNat]?.join).bind (·.sample? frame)).getD node.transform

/-- The nodes with the world transforms that they have at a frame. -/
def worlds (composer : Composer) (frame : Nat) : List (Node × DualQuat Single) :=
  composer.model.nodes.worlds (composer.nodeTransform frame)

/-- Write one node, and its bone, into a pose. A failure comes with the pose as it was left. -/
def place (composer : Composer) (frame : Nat) (pose : Pose) (node : Node)
    (world : DualQuat Single) : Pose × Option CodecError :=
  let index := node.index.toNat
  if index < pose.parent.size ∧ index < pose.world.size then
    let placed : Pose :=
      { pose with
        parent := pose.parent.setIfInBounds index (composer.nodeTransform frame node)
        world := pose.world.setIfInBounds index world }
    if node.isBone then
      match composer.offsets[index]?, pose.bone[index]? with
      | some offset, some _ =>
        ({ placed with bone := pose.bone.setIfInBounds index (world * offset) }, none)
      | _, _ =>
        (placed, some (.indexOutOfRange .bone node.index (UInt32.ofNat pose.bone.size)))
    else (placed, none)
  else
    let count := UInt32.ofNat (min pose.parent.size pose.world.size)
    (pose, some (.indexOutOfRange .node node.index count))

/-- Write nodes until one fails. -/
def placeAll (composer : Composer) (frame : Nat) :
    List (Node × DualQuat Single) → Pose → Pose × Option CodecError
  | [], pose => (pose, none)
  | (node, world) :: rest, pose =>
    match composer.place frame pose node world with
    | (placed, none) => composer.placeAll frame rest placed
    | failed => failed

/-- Compose one frame into a pose, which keeps what no node writes. -/
def compose (composer : Composer) (frame : Nat) (pose : Pose) : Pose × Option CodecError :=
  composer.placeAll frame (composer.worlds frame) pose

end Composer

end SceneBaker.Animation
