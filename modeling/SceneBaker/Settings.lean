import SceneBaker.Toml.Reader

/-! # Conversion settings

Every step of a conversion takes its settings as a value. Settings files name the fields they
change; the others keep their defaults. `Settings.normalized` resolves dependent settings and brings
numbers into their ranges.
-/

namespace SceneBaker

open Number

/-- Normals for meshes that have none. -/
inductive NormalMode where
  | none
  /-- One normal per face; vertices are not shared between faces. -/
  | flat
  /-- The average of the faces around a position, weighted by area. -/
  | smooth
deriving DecidableEq, Inhabited

namespace NormalMode

def all : List NormalMode := [none, flat, smooth]

/-- The name in settings files and on the command line. -/
def text : NormalMode → String
  | none => "none"
  | flat => "flat"
  | smooth => "smooth"

/-- The name in log lines. -/
def label : NormalMode → String
  | none => "None"
  | flat => "Flat"
  | smooth => "Smooth"

def ofText? (name : String) : Option NormalMode := all.find? (·.text == name)

end NormalMode

structure Settings where
  /-- Turn the right-handed source space into a left-handed one. -/
  leftHanded : Bool := true
  invertWinding : Bool := false
  disableNormals : Bool := false
  disableUv : Bool := false
  disableUv2 : Bool := true
  disableVertexColors : Bool := true
  disableTangents : Bool := false
  disableBones : Bool := false
  flipUvHorizontally : Bool := false
  flipUvVertically : Bool := true
  flipNormals : Bool := false
  normalMode : NormalMode := .smooth
  optimizeMaterials : Bool := true
  optimizeNodes : Bool := true
  optimizeMeshes : Bool := true
  /-- Move world transforms into the vertices and drop the hierarchy. -/
  preTransform : Bool := false
  applyScale : Bool := false
  scaleFactor : Single := 1
  /-- Animation frames per second. -/
  samplingRate : Double := ⟨0x404e000000000000⟩
  /-- Which spaces animations store, see `Spaces.ofLevel`. -/
  animationLevel : UInt8 := 0
  /-- Put the model's name in front of animation file names. -/
  namePrefixed : Bool := true
deriving DecidableEq, Inhabited

namespace Settings

/-- Whole frames per second, at least one. -/
def wholeRate (rate : Double) : Double :=
  if rate.isFinite then rate.floor.max 1 else 1

def normalized (settings : Settings) : Settings :=
  { settings with
    samplingRate := wholeRate settings.samplingRate
    animationLevel := min settings.animationLevel 2
    disableTangents := settings.disableTangents || settings.disableNormals
    scaleFactor :=
      if settings.scaleFactor.isFinite && 0 < settings.scaleFactor then settings.scaleFactor
      else 1 }

/-! ## Settings files -/

/-- The value of an entry, or its default where there is none. -/
def read {α : Type} (entries : List (String × Toml.Value)) (key : String)
    (convert : Toml.Value → Option α) (default : α) : Option α :=
  match entries.lookup key with
  | some value => convert value
  | none => some default

def toBool? : Toml.Value → Option Bool
  | .boolean value => some value
  | _ => none

/-- Whole numbers of 64 bits, signed or not, may stand for other numbers. -/
def toWhole? : Toml.Value → Option Int
  | .integer value => if -(2 ^ 63) ≤ value ∧ value < 2 ^ 64 then some value else none
  | _ => none

def toByte? (value : Toml.Value) : Option UInt8 := do
  let number ← toWhole? value
  if 0 ≤ number ∧ number < 256 then some (UInt8.ofNat number.toNat) else none

def toSingle? : Toml.Value → Option Single
  | .float value => some value.toSingle
  | value => (toWhole? value).map fun number =>
    Single.ofMagnitude (number < 0) (Layout.single.ofScaled number.natAbs 0)

def toDouble? : Toml.Value → Option Double
  | .float value => some value
  | value => (toWhole? value).map fun number =>
    Double.ofMagnitude (number < 0) (Layout.double.ofScaled number.natAbs 0)

/-- A mode is its name, or a table with that name as its only key and nothing inside. -/
def toMode? : Toml.Value → Option NormalMode
  | .string name => NormalMode.ofText? name
  | .table [(name, .table [])] => NormalMode.ofText? name
  | .table [(name, .array [])] => NormalMode.ofText? name
  | _ => none

/-- The settings that a table names; keys that are no setting are passed over. -/
def ofEntries? (entries : List (String × Toml.Value)) : Option Settings := do
  let base : Settings := {}
  let flag (key : String) (default : Bool) : Option Bool := read entries key toBool? default
  return {
    leftHanded := ← flag "left_handed" base.leftHanded
    invertWinding := ← flag "invert_winding" base.invertWinding
    disableNormals := ← flag "disable_normals" base.disableNormals
    disableUv := ← flag "disable_uv" base.disableUv
    disableUv2 := ← flag "disable_uv2" base.disableUv2
    disableVertexColors := ← flag "disable_vertex_colors" base.disableVertexColors
    disableTangents := ← flag "disable_tangents" base.disableTangents
    disableBones := ← flag "disable_bones" base.disableBones
    flipUvHorizontally := ← flag "flip_uv_horizontally" base.flipUvHorizontally
    flipUvVertically := ← flag "flip_uv_vertically" base.flipUvVertically
    flipNormals := ← flag "flip_normals" base.flipNormals
    normalMode := ← read entries "gen_normals" toMode? base.normalMode
    optimizeMaterials := ← flag "optimize_materials" base.optimizeMaterials
    optimizeNodes := ← flag "optimize_nodes" base.optimizeNodes
    optimizeMeshes := ← flag "optimize_meshes" base.optimizeMeshes
    preTransform := ← flag "pre_transform" base.preTransform
    applyScale := ← flag "apply_scale" base.applyScale
    scaleFactor := ← read entries "scale_factor" toSingle? base.scaleFactor
    samplingRate := ← read entries "sampling_rate" toDouble? base.samplingRate
    animationLevel := ← read entries "animation_optimization" toByte? base.animationLevel
    namePrefixed := ← flag "prefix" base.namePrefixed }

/-- The settings of a settings file, in their normal form. -/
def ofBytes? (bytes : List UInt8) : Option Settings := do
  let document ← String.fromUTF8? ⟨bytes.toArray⟩
  return (← ofEntries? (← Toml.read? document)).normalized

end Settings

end SceneBaker
