import SceneBaker.Number.Decimal

/-! # Single precision

A `Single` is its 32 bits, so that a value read from a file is written back unchanged whatever its
bits are. Comparison is an integer comparison of signed magnitudes; arithmetic rounds to nearest.
An operation hands on the quiet form of the first operand that is not a number, and one without a
defined result gives `invalid`.
-/

namespace SceneBaker.Number

/-- Values with a square root. -/
class SquareRoot (α : Type) where
  sqrt : α → α

export SquareRoot (sqrt)

/-- Bits of a single-precision number. -/
structure Single where
  bits : UInt32
deriving DecidableEq, Inhabited

namespace Single

/-- The bits without the sign. -/
def magnitude (x : Single) : Nat := x.bits.toNat % Layout.single.signBit

def negative (x : Single) : Bool := Layout.single.signBit ≤ x.bits.toNat

def isNaN (x : Single) : Bool := 0x7f800000 < x.bits &&& 0x7fffffff

def isFinite (x : Single) : Bool := x.bits &&& 0x7fffffff < 0x7f800000

/-- The magnitude with its sign; both zeros have key 0. -/
def key (x : Single) : Int := if x.negative then -x.magnitude else x.magnitude

/-- Numeric equality: the zeros are equal and nothing equals a value that is not a number. -/
def numEq (x y : Single) : Bool := !x.isNaN && !y.isNaN && x.key == y.key

instance : LT Single := ⟨fun x y => x.isNaN = false ∧ y.isNaN = false ∧ x.key < y.key⟩
instance : LE Single := ⟨fun x y => x.isNaN = false ∧ y.isNaN = false ∧ x.key ≤ y.key⟩

instance (x y : Single) : Decidable (x < y) :=
  inferInstanceAs (Decidable (_ ∧ _ ∧ _))

instance (x y : Single) : Decidable (x ≤ y) :=
  inferInstanceAs (Decidable (_ ∧ _ ∧ _))

/-- Signed value of a magnitude. -/
def ofMagnitude (negative : Bool) (magnitude : Nat) : Single :=
  ⟨UInt32.ofNat (if negative then magnitude + Layout.single.signBit else magnitude)⟩

/-- The result of an operation that has none. -/
def invalid : Single := ⟨0xffc00000⟩

/-- The form in which arithmetic hands on a value that is not a number. -/
def quiet (x : Single) : Single := ⟨x.bits ||| 0x00400000⟩

private def ofNative (x : Float32) : Single :=
  let result : Single := ⟨x.toBits⟩
  if result.isNaN then invalid else result

private def native (x : Single) : Float32 := Float32.ofBits x.bits

/-- Apply a rounded operation to one operand. -/
def lift (operation : Float32 → Float32) (x : Single) : Single :=
  if x.isNaN then x.quiet else ofNative (operation x.native)

/-- Apply a rounded operation to two operands. -/
def lift₂ (operation : Float32 → Float32 → Float32) (x y : Single) : Single :=
  if x.isNaN then x.quiet
  else if y.isNaN then y.quiet
  else ofNative (operation x.native y.native)

instance : Add Single := ⟨lift₂ (· + ·)⟩
instance : Sub Single := ⟨lift₂ (· - ·)⟩
instance : Mul Single := ⟨lift₂ (· * ·)⟩
instance : Div Single := ⟨lift₂ (· / ·)⟩

/-- Negation flips the sign bit and rounds nothing. -/
instance : Neg Single := ⟨fun x => ⟨x.bits ^^^ 0x80000000⟩⟩

instance : Zero Single := ⟨⟨0⟩⟩
instance : One Single := ⟨⟨0x3f800000⟩⟩
instance : SquareRoot Single := ⟨lift Float32.sqrt⟩

def arccos : Single → Single := lift Float32.acos
def sine : Single → Single := lift Float32.sin
def cosine : Single → Single := lift Float32.cos

def abs (x : Single) : Single := ⟨x.bits &&& 0x7fffffff⟩

/-- The plain value that is not a number, without a sign and with no further bits. -/
def nan : Single := ⟨0x7fc00000⟩

/-- `1` or `-1` by the sign bit, and `nan` for a value that is not a number. -/
def signum (x : Single) : Single :=
  if x.isNaN then nan else if x.negative then -1 else 1

/-- The nearest single to a natural number. -/
def ofNat (n : Nat) : Single := ofMagnitude false (Layout.single.ofScaled n 0)

/-- The integer part, clamped to 32 bits; a value that is not a number gives 0. -/
def toUInt32 (x : Single) : UInt32 :=
  if x.isNaN || x.negative then 0
  else if x.isFinite then UInt32.ofNat (min (Layout.single.integerPart x.magnitude) 0xffffffff)
  else 0xffffffff

/-- No fractional part; false of infinities and of values that are not numbers. -/
def isWhole (x : Single) : Bool := x.isFinite && Layout.single.isWhole x.magnitude

/-- The shortest digits that read back, never with an exponent. -/
def text (x : Single) : String := Layout.single.text x.negative x.magnitude

end Single

end SceneBaker.Number
