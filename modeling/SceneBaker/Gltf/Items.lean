import SceneBaker.Binary.Reader
import SceneBaker.Gltf.Document

/-! # Items in buffers

An `Item` says how many octets a value has and how they are read. The items of an accessor lie at a
fixed distance from one another in its view; if one of them would end outside of the view, none can
be read. Sparse accessors replace some items, in the order of their positions.
-/

namespace SceneBaker.Gltf

open Number SceneBaker.Geometry Binary

structure Item (α : Type) where
  /-- Number of octets. -/
  size : Nat
  read : List UInt8 → α

namespace Item

variable {α β : Type}

def map (f : α → β) (item : Item α) : Item β := ⟨item.size, f ∘ item.read⟩

/-- Four items after one another. -/
def vec4 (item : Item α) : Item (Vec4 α) where
  size := 4 * item.size
  read octets :=
    ⟨item.read octets, item.read (octets.drop item.size), item.read (octets.drop (2 * item.size)),
      item.read (octets.drop (3 * item.size))⟩

def vec3 (item : Item α) : Item (Vec3 α) where
  size := 3 * item.size
  read octets :=
    ⟨item.read octets, item.read (octets.drop item.size), item.read (octets.drop (2 * item.size))⟩

def vec2 (item : Item α) : Item (Vec2 α) where
  size := 2 * item.size
  read octets := ⟨item.read octets, item.read (octets.drop item.size)⟩

/-- A matrix, column by column. -/
def mat4 (item : Item α) : Item (Mat4 α) :=
  (vec4 (vec4 item)).map fun m => ⟨m.x, m.y, m.z, m.w⟩

/-- An unsigned number of so many octets. -/
def unsigned (size : Nat) : Item Nat := ⟨size, fun octets => Reader.ofLittleEndian (octets.take size)⟩

/-- A number in single precision. -/
def single : Item Single := (unsigned 4).map fun bits => ⟨UInt32.ofNat bits⟩

/-- A number as a share of the largest one. -/
def unsignedShare (size : Nat) : Item Single :=
  (unsigned size).map fun number => Single.ofNat number * (1 / Single.ofNat (256 ^ size - 1))

/-- The value of a number whose upper half stands for negative numbers. -/
def signedSingle (size number : Nat) : Single :=
  if 2 * number < 256 ^ size then Single.ofNat number else -Single.ofNat (256 ^ size - number)

/-- A signed number as a share of the largest one, and not below -1. -/
def signedShare (size : Nat) : Item Single :=
  (unsigned size).map fun number =>
    let share := signedSingle size number * (1 / Single.ofNat (256 ^ size / 2 - 1))
    if share < -1 then -1 else share

/-- Whole numbers without a sign. -/
def whole? : Component → Option (Item Nat)
  | .uint8 => some (unsigned 1)
  | .uint16 => some (unsigned 2)
  | .uint32 => some (unsigned 4)
  | _ => none

/-- Shares of one: whole numbers of up to two octets, or singles as they are. -/
def share? : Component → Option (Item Single)
  | .int8 => some (signedShare 1)
  | .uint8 => some (unsignedShare 1)
  | .int16 => some (signedShare 2)
  | .uint16 => some (unsignedShare 2)
  | .single => some single
  | .uint32 => none

/-- Shares of one that have no sign, or singles. -/
def unsignedShare? (component : Component) : Option (Item Single) :=
  match component with
  | .uint8 | .uint16 | .single => share? component
  | _ => none

end Item

/-- The octets of each buffer. -/
abbrev Buffers : Type := Array (List UInt8)

/-- A part of some octets that lies inside of them. -/
def slice? (octets : List UInt8) (offset length : Nat) : Option (List UInt8) :=
  if offset + length ≤ octets.length then some ((octets.drop offset).take length) else none

/-- Items at a distance from one another. -/
def strided {α : Type} (item : Item α) (stride : Nat) : (count : Nat) → List UInt8 → List α
  | 0, _ => []
  | count + 1, octets => item.read octets :: strided item stride count (octets.drop stride)

namespace Document

variable {α : Type}

/-- Items from an offset in a view on. -/
def viewItems? (document : Document) (buffers : Buffers) (item : Item α) (view offset count : Nat) :
    Option (List α) := do
  let view ← document.views[view]?
  let octets ← slice? (← buffers[view.buffer]?) view.offset view.length
  let stride := view.stride.getD item.size
  let length := if count = 0 then 0 else stride * (count - 1) + item.size
  return strided item stride count (← slice? octets offset length)

/-- Items with some of them replaced. Replacements are taken one after the other, each when the
walk through the items comes to its position. -/
def replaceItems : (position : Nat) → List α → List (Nat × α) → List α
  | _, [], _ => []
  | _, items, [] => items
  | position, item :: items, (next, value) :: replacements =>
    if next = position then value :: replaceItems (position + 1) items replacements
    else item :: replaceItems (position + 1) items ((next, value) :: replacements)

/-- The items of an accessor, read as the given kind of item. -/
def items? (document : Document) (buffers : Buffers) (item : Item α) (accessor : Accessor) :
    Option (List α) := do
  let plain ← match accessor.view with
    | some view => document.viewItems? buffers item view accessor.offset accessor.count
    | none => some (List.replicate accessor.count (item.read (List.replicate item.size 0)))
  match accessor.sparse with
  | none => return plain
  | some sparse => do
    let index ← Item.whole? sparse.indexComponent
    let positions ←
      document.viewItems? buffers index sparse.indexView sparse.indexOffset sparse.count
    let values ←
      document.viewItems? buffers item sparse.valueView sparse.valueOffset sparse.count
    return replaceItems 0 plain (positions.zip values)

end Document

end SceneBaker.Gltf
