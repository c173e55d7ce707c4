import SceneBaker.Binary.Output
import SceneBaker.Binary.Reader

/-! # Headers of animation files

The header says which spaces are stored for every frame, how many frames there are and which model
they belong to. Its size is fixed.
-/

namespace SceneBaker.Animation

open Number Binary

/-- The spaces in which the transforms of a frame are stored. -/
structure Spaces where
  /-- Nodes relative to their parents. -/
  parent : Bool
  /-- Nodes relative to the model. -/
  world : Bool
  /-- Bones: world transforms combined with the bone offsets. -/
  bone : Bool
deriving DecidableEq, Inhabited

namespace Spaces

/-- The spaces whose bits are set; other bits mean nothing. -/
def ofBits (bits : UInt8) : Spaces := ⟨bits &&& 1 != 0, bits &&& 2 != 0, bits &&& 4 != 0⟩

def bits (spaces : Spaces) : UInt8 :=
  (if spaces.parent then 1 else 0) ||| (if spaces.world then 2 else 0)
    ||| (if spaces.bone then 4 else 0)

/-- What an optimization level stores: parent space, world space, or world and bone space. -/
def ofLevel (level : UInt8) : Spaces :=
  if level = 0 then ⟨true, false, false⟩
  else if level = 1 then ⟨false, true, false⟩
  else ⟨false, true, true⟩

/-- The names of the spaces, in the order of their bits. -/
def text (spaces : Spaces) : String :=
  let names := (if spaces.parent then ["PARENT"] else []) ++ (if spaces.world then ["WORLD"] else [])
    ++ (if spaces.bone then ["BONE"] else [])
  "BoneSpaces(" ++ (if names.isEmpty then "0x0" else " | ".intercalate names) ++ ")"

end Spaces

structure Header where
  version : Version
  spaces : Spaces
  /-- Number of stored frames. -/
  duration : Double
  /-- Frames per second. -/
  rate : Double
  nodeCount : UInt32
  boneCount : UInt32
deriving DecidableEq, Inhabited

namespace Header

/-- `BBANIM` and a zero; two version bytes follow. -/
def magic : List UInt8 := [0x42, 0x42, 0x41, 0x4e, 0x49, 0x4d, 0]

/-- Whole frames of the duration, which counts as none unless it is finite and positive. -/
def frameCount (header : Header) : Nat :=
  if header.duration.isFinite && 0 < header.duration then
    header.duration.toNatClamped (2 ^ 64 - 1)
  else 0

/-- Numbers stored for each frame. -/
def floatsPerFrame (header : Header) : Nat :=
  (if header.spaces.parent then header.nodeCount.toNat * 8 else 0)
    + (if header.spaces.world then header.nodeCount.toNat * 8 else 0)
    + (if header.spaces.bone then header.boneCount.toNat * 8 else 0)

def encode (header : Header) : Output :=
  .ofBytes magic ++ .u8 header.version.major ++ .u8 header.version.minor ++ .u8 header.spaces.bits
    ++ .double header.duration ++ .double header.rate ++ .u32 header.nodeCount
    ++ .u32 header.boneCount

/-- Everything behind the magic. -/
def decodeFields : Reader Header := do
  let version : Version := ⟨← Reader.u8, ← Reader.u8⟩
  if !version.supported then Reader.fail (.unsupportedVersion version)
  let spaces := Spaces.ofBits (← Reader.u8)
  return ⟨version, spaces, ← Reader.double, ← Reader.double, ← Reader.u32, ← Reader.u32⟩

def decode : Reader Header := do
  let found ← Reader.take magic.length
  if found = magic then decodeFields else .fail (.unknownMagic found)

end Header

end SceneBaker.Animation
