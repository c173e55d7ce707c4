import SceneBaker.Build.Error
import SceneBaker.Model.Basic
import SceneBaker.Scene.Basic
import SceneBaker.Settings

/-! # Skeletons and node trees

Bones are numbered first, in the order in which the meshes of a scene name them. Then the nodes are
numbered in preorder: a node named after a bone takes the bone's number and every other node the
next number behind the bones, so that both numberings have no gaps.
-/

namespace SceneBaker.Build

open Number SceneBaker.Geometry Model Scene

/-- The bones of a scene; each has its position as its index. -/
structure Skeleton where
  bones : List Bone := []
deriving DecidableEq

namespace Skeleton

def size (skeleton : Skeleton) : Nat := skeleton.bones.length

def indexOf? (skeleton : Skeleton) (name : String) : Option UInt32 :=
  (skeleton.bones.find? (·.name == name)).map (·.index)

/-- Add a bone unless its name is taken. -/
def add (skeleton : Skeleton) (source : SourceBone Single) : Skeleton :=
  if (skeleton.indexOf? source.name).isSome then skeleton
  else
    ⟨skeleton.bones ++
      [⟨source.name, UInt32.ofNat skeleton.size, DualQuat.ofMatrix source.offset⟩]⟩

/-- The bones of all meshes, unless the settings leave bones out. -/
def collect (scene : Scene Single) (settings : Settings) : Skeleton :=
  if settings.disableBones then {}
  else (scene.meshes.toList.flatMap (·.bones)).foldl add {}

end Skeleton

/-- Number nodes in the given order. `claimed` holds the bones that have their node, and `next` is
the number of the next node that is no bone. In the end every position in the skeleton has to be
claimed. -/
def numberNodes (skeleton : Skeleton) :
    (claimed : List UInt32) → (next : UInt32) → List (SourceNode Single) →
      Except ConversionError (List Node)
  | claimed, _, [] =>
    match skeleton.bones.zipIdx.find? fun entry => !claimed.any (·.toNat == entry.2) with
    | some (bone, _) => .error (.boneWithoutNode bone.name)
    | none => .ok []
  | claimed, next, source :: rest => do
    let node : Node :=
      { name := source.name
        transform := DualQuat.ofMatrix source.transform
        meshes := source.meshes.map UInt32.ofNat }
    match skeleton.indexOf? source.name with
    | some bone =>
      if claimed.contains bone then .error (.duplicateBoneNode source.name)
      else
        return { node with index := bone, isBone := true }
          :: (← numberNodes skeleton (bone :: claimed) next rest)
    | none => return { node with index := next } :: (← numberNodes skeleton claimed (next + 1) rest)

/-- The tree of nodes in preorder, each with the number of its parent. -/
def assemble (nodes : List (Node × Option Nat)) : NodeTree :=
  nodes.foldl
    (fun tree (node, parent) =>
      match parent with
      | none => .ofRoot node
      | some parent => tree.attach parent node)
    .empty

/-- The model's node tree. Every bone has to be named by exactly one node. -/
def nodeTree (scene : Scene Single) (skeleton : Skeleton) : Except ConversionError NodeTree := do
  let visits := (scene.links.preorder .skip).filterMap fun (position, depth) =>
    scene.nodes[position]?.map (·, depth)
  let nodes ← numberNodes skeleton [] (UInt32.ofNat skeleton.size) (visits.map (·.1))
  return assemble (nodes.zip (Links.parentNumbers [] 0 (visits.map (·.2))))

end SceneBaker.Build
