import SceneBaker.Binary.Error
import SceneBaker.Geometry.DualQuat
import SceneBaker.Number.Double

/-! # Writing values as bytes

An `Output` is what an encoder has written and, if it stopped, why. Outputs are joined with `++`,
and nothing is written behind one that stopped; `Output.bytes` then holds the part that did get
out.
-/

namespace SceneBaker.Binary

open Number SceneBaker.Geometry

/-- Bytes written so far and the cause of the stop, if there was one. -/
structure Output where
  bytes : List UInt8
  failure : Option CodecError
deriving DecidableEq

namespace Output

/-- Bytes that are written without a failure. -/
def ofBytes (bytes : List UInt8) : Output := ⟨bytes, none⟩

def empty : Output := ofBytes []

def stop (cause : CodecError) : Output := ⟨[], some cause⟩

def append (first second : Output) : Output :=
  match first.failure with
  | none => ⟨first.bytes ++ second.bytes, second.failure⟩
  | some _ => first

instance : Append Output := ⟨append⟩

/-- Write every entry in order. -/
def each {α : Type} (entries : List α) (encode : α → Output) : Output :=
  entries.foldr (fun entry rest => encode entry ++ rest) empty

/-- All bytes, or the cause of the stop. -/
def result (output : Output) : Except CodecError (List UInt8) :=
  match output.failure with
  | none => .ok output.bytes
  | some cause => .error cause

/-- The bytes of a number, least significant first. -/
def littleEndian : (width : Nat) → Nat → List UInt8
  | 0, _ => []
  | width + 1, number => UInt8.ofNat number :: littleEndian width (number / 256)

def u8 (value : UInt8) : Output := ofBytes [value]

def bool (value : Bool) : Output := u8 (if value then 1 else 0)

def u32 (value : UInt32) : Output := ofBytes (littleEndian 4 value.toNat)

def i32 (value : Int32) : Output := u32 value.toUInt32

def single (value : Single) : Output := u32 value.bits

def double (value : Double) : Output := ofBytes (littleEndian 8 value.bits.toNat)

def vec2 (value : Vec2 Single) : Output := each value.toList single

def vec3 (value : Vec3 Single) : Output := each value.toList single

def dualQuat (value : DualQuat Single) : Output := each value.toList single

/-- An index, stored as the nearest number. -/
def index (value : UInt32) : Output := single (Single.ofNat value.toNat)

/-- A table size, which has to fit 32 bits. -/
def count (table : Table) (size : Nat) : Output :=
  if size < 2 ^ 32 then u32 (UInt32.ofNat size) else stop (.countOverflow table size)

/-- Text and a zero byte. -/
def text (value : String) : Output := ofBytes (value.toUTF8.data.toList ++ [0])

end Output

end SceneBaker.Binary
