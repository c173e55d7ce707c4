import SceneBaker.Geometry.Matrix
import SceneBaker.Gltf.Faces
import SceneBaker.Number.Double

/-! # Documents

A document describes a scene. Its lists refer to one another by position; numbers in bulk lie in
buffers, of which views cut out a part and accessors say how to read it.
-/

namespace SceneBaker.Gltf

open Number SceneBaker.Geometry

/-- The form of a number in a buffer. -/
inductive Component where
  | int8 | uint8 | int16 | uint16 | uint32 | single
deriving DecidableEq, Inhabited

def Component.codes : List (Nat × Component) :=
  [(5120, int8), (5121, uint8), (5122, int16), (5123, uint16), (5125, uint32), (5126, single)]

/-- How many numbers form an item. -/
inductive Dimensions where
  | scalar | vec2 | vec3 | vec4 | mat2 | mat3 | mat4
deriving DecidableEq, Inhabited

def Dimensions.names : List (String × Dimensions) :=
  [("SCALAR", scalar), ("VEC2", vec2), ("VEC3", vec3), ("VEC4", vec4), ("MAT2", mat2),
    ("MAT3", mat3), ("MAT4", mat4)]

/-- What the items of an accessor are to the vertices of a mesh. Some attributes come in sets. -/
inductive Attribute where
  | position | normal | tangent
  | color (set : Nat)
  | texCoord (set : Nat)
  | joints (set : Nat)
  | weights (set : Nat)
deriving DecidableEq, Inhabited

namespace Attribute

/-- The number of a set: digits, maybe with a plus sign before them, of a number of 32 bits. -/
def setNumber? (text : List Char) : Option Nat :=
  let digits := if text.head? = some '+' then text.tail else text
  let number := digits.foldl (fun number c => number * 10 + (c.toNat - '0'.toNat)) 0
  if digits ≠ [] ∧ digits.all Char.isDigit ∧ number < 2 ^ 32 then some number else none

/-- What the names of attributes in sets start with. -/
def families : List (String × (Nat → Attribute)) :=
  [("COLOR_", color), ("TEXCOORD_", texCoord), ("JOINTS_", joints), ("WEIGHTS_", weights)]

def ofName? (name : String) : Option Attribute :=
  match name with
  | "POSITION" => some position
  | "NORMAL" => some normal
  | "TANGENT" => some tangent
  | _ => families.findSome? fun (start, ofSet) =>
    if start.toList.isPrefixOf name.toList then
      (setNumber? (name.toList.drop start.length)).map ofSet
    else none

end Attribute

/-- What a channel moves. -/
inductive Property where
  | translation | rotation | scale | weights
deriving DecidableEq, Inhabited

def Property.names : List (String × Property) :=
  [("translation", translation), ("rotation", rotation), ("scale", scale), ("weights", weights)]

inductive Interpolation where
  | linear | step | cubicSpline
deriving DecidableEq, Inhabited

def Interpolation.names : List (String × Interpolation) :=
  [("LINEAR", linear), ("STEP", step), ("CUBICSPLINE", cubicSpline)]

namespace Document

structure Buffer where
  /-- The least number of octets. -/
  length : Nat
  uri : Option String
deriving DecidableEq, Inhabited

/-- A part of a buffer. -/
structure View where
  buffer : Nat
  offset : Nat
  length : Nat
  /-- Octets from one item to the next; without it, items follow one another. -/
  stride : Option Nat
deriving DecidableEq, Inhabited

/-- Items that replace others. -/
structure Sparse where
  count : Nat
  indexView : Nat
  indexOffset : Nat
  indexComponent : Component
  valueView : Nat
  valueOffset : Nat
deriving DecidableEq, Inhabited

/-- Items in a view; without a view they are zero. -/
structure Accessor where
  view : Option Nat
  offset : Nat
  count : Nat
  component : Component
  dimensions : Dimensions
  /-- Whether smallest and largest values are given as three numbers each. -/
  bounded : Bool
  sparse : Option Sparse
deriving DecidableEq, Inhabited

/-- A picture in a view or at an address. -/
structure Image where
  view : Option Nat
  mediaType : Option String
  uri : Option String
deriving DecidableEq, Inhabited

structure Material where
  name : Option String
  /-- Linear red, green, blue and alpha. -/
  baseColor : Vec4 Single
deriving DecidableEq, Inhabited

/-- A part of a mesh, drawn in one mode with one material. -/
structure Part where
  /-- Accessors by attribute. -/
  attributes : List (Attribute × Nat)
  indices : Option Nat
  material : Option Nat
  mode : Mode
deriving DecidableEq, Inhabited

structure Mesh where
  name : Option String
  parts : List Part
deriving DecidableEq, Inhabited

structure Skin where
  inverseBinds : Option Nat
  /-- Positions of nodes. -/
  joints : List Nat
deriving DecidableEq, Inhabited

structure Node where
  name : Option String
  transform : Mat4 Single
  children : List Nat
  mesh : Option Nat
  skin : Option Nat
deriving DecidableEq, Inhabited

/-- Times and values of an animated property. -/
structure Sampler where
  input : Nat
  output : Nat
  interpolation : Interpolation
deriving DecidableEq, Inhabited

structure Channel where
  /-- Position in the animation's samplers. -/
  sampler : Nat
  node : Nat
  /-- Missing if the document names a property that does not exist. -/
  property : Option Property
deriving DecidableEq, Inhabited

structure Animation where
  name : Option String
  samplers : List Sampler
  channels : List Channel
deriving DecidableEq, Inhabited

end Document

structure Document where
  buffers : Array Document.Buffer := #[]
  views : Array Document.View := #[]
  accessors : Array Document.Accessor := #[]
  images : List Document.Image := []
  materials : Array Document.Material := #[]
  meshes : Array Document.Mesh := #[]
  skins : Array Document.Skin := #[]
  nodes : Array Document.Node := #[]
  animations : List Document.Animation := []
  /-- The nodes at the top of each scene. -/
  scenes : Array (List Nat) := #[]
  /-- The scene to show. -/
  scene : Option Nat := none
deriving DecidableEq, Inhabited

end SceneBaker.Gltf
