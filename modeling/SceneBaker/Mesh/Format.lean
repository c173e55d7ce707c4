import SceneBaker.Binary.Output
import SceneBaker.Binary.Reader

/-! # Vertex formats

A vertex format says which attributes the vertices of a mesh store. It is stored as one flag per
attribute; the flag of the second texture coordinates exists since minor revision 3.
-/

namespace SceneBaker.Mesh

open Binary

structure VertexFormat where
  position : Bool
  normal : Bool
  uv0 : Bool
  uv1 : Bool
  color : Bool
  /-- Tangent vector and bitangent sign. -/
  tangent : Bool
  /-- Four bone indices and four weights. -/
  bones : Bool
  ids : Bool
deriving DecidableEq

namespace VertexFormat

def positionOnly : VertexFormat := ⟨true, false, false, false, false, false, false, false⟩

instance : Inhabited VertexFormat := ⟨positionOnly⟩

/-- First minor revision with a flag for the second texture coordinates. -/
def uv1Minor : UInt8 := 3

/-- The flags in stored order. -/
def flags (format : VertexFormat) : List Bool :=
  [format.position, format.normal, format.uv0, format.uv1, format.color, format.tangent,
    format.bones, format.ids]

/-- Bytes of one attribute, in the order of `flags`. -/
def attributeSizes : List Nat := [12, 12, 8, 8, 4, 16, 32, 4]

/-- Bytes of one vertex. -/
def stride (format : VertexFormat) : Nat :=
  (format.flags.zip attributeSizes).foldl
    (fun bytes (stored, size) => if stored then bytes + size else bytes) 0

/-- Short names of the attributes, in the order of `flags`. -/
def attributeNames : List String := ["V", "N", "UV", "UV2", "C", "T", "B", "I"]

/-- The stored attributes' names, joined with commas. -/
def text (format : VertexFormat) : String :=
  ",".intercalate <|
    (format.flags.zip attributeNames).filterMap fun (stored, name) =>
      if stored then some name else none

def encode (format : VertexFormat) : Output := .each format.flags Output.bool

/-- Read the flags that a file of some revision stores. -/
def decode (version : Version) : Reader VertexFormat := do
  let position ← Reader.bool
  let normal ← Reader.bool
  let uv0 ← Reader.bool
  let uv1 ← if uv1Minor ≤ version.minor then Reader.bool else pure false
  return ⟨position, normal, uv0, uv1, ← Reader.bool, ← Reader.bool, ← Reader.bool, ← Reader.bool⟩

end VertexFormat

end SceneBaker.Mesh
