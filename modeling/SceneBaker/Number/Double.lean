import SceneBaker.Number.Single

/-! # Double precision

Times, rates and durations are doubles. They follow the rules of `Single`, and `Double.toSingle`
and `Double.ofSingle` convert between the two.
-/

namespace SceneBaker.Number

/-- Bits of a double-precision number. -/
structure Double where
  bits : UInt64
deriving DecidableEq, Inhabited

namespace Double

/-- The bits without the sign. -/
def magnitude (x : Double) : Nat := x.bits.toNat % Layout.double.signBit

def negative (x : Double) : Bool := Layout.double.signBit ≤ x.bits.toNat

def isNaN (x : Double) : Bool := 0x7ff0000000000000 < x.bits &&& 0x7fffffffffffffff

def isFinite (x : Double) : Bool := x.bits &&& 0x7fffffffffffffff < 0x7ff0000000000000

/-- The magnitude with its sign; both zeros have key 0. -/
def key (x : Double) : Int := if x.negative then -x.magnitude else x.magnitude

/-- Numeric equality: the zeros are equal and nothing equals a value that is not a number. -/
def numEq (x y : Double) : Bool := !x.isNaN && !y.isNaN && x.key == y.key

instance : LT Double := ⟨fun x y => x.isNaN = false ∧ y.isNaN = false ∧ x.key < y.key⟩
instance : LE Double := ⟨fun x y => x.isNaN = false ∧ y.isNaN = false ∧ x.key ≤ y.key⟩

instance (x y : Double) : Decidable (x < y) :=
  inferInstanceAs (Decidable (_ ∧ _ ∧ _))

instance (x y : Double) : Decidable (x ≤ y) :=
  inferInstanceAs (Decidable (_ ∧ _ ∧ _))

/-- Signed value of a magnitude. -/
def ofMagnitude (negative : Bool) (magnitude : Nat) : Double :=
  ⟨UInt64.ofNat (if negative then magnitude + Layout.double.signBit else magnitude)⟩

/-- The result of an operation that has none. -/
def invalid : Double := ⟨0xfff8000000000000⟩

/-- The form in which arithmetic hands on a value that is not a number. -/
def quiet (x : Double) : Double := ⟨x.bits ||| 0x0008000000000000⟩

private def ofNative (x : Float) : Double :=
  let result : Double := ⟨x.toBits⟩
  if result.isNaN then invalid else result

private def native (x : Double) : Float := Float.ofBits x.bits

/-- Apply a rounded operation to two operands. -/
def lift₂ (operation : Float → Float → Float) (x y : Double) : Double :=
  if x.isNaN then x.quiet
  else if y.isNaN then y.quiet
  else ofNative (operation x.native y.native)

instance : Sub Double := ⟨lift₂ (· - ·)⟩
instance : Mul Double := ⟨lift₂ (· * ·)⟩
instance : Div Double := ⟨lift₂ (· / ·)⟩

instance : Zero Double := ⟨⟨0⟩⟩
instance : One Double := ⟨⟨0x3ff0000000000000⟩⟩

/-- The larger operand; one that is not a number gives way to the other. -/
def max (x y : Double) : Double := if x.isNaN || x < y then y else x

/-- The nearest double to a natural number. -/
def ofNat (n : Nat) : Double := ofMagnitude false (Layout.double.ofScaled n 0)

/-- The integer part of a nonnegative value, clamped to `limit`; otherwise 0. -/
def toNatClamped (limit : Nat) (x : Double) : Nat :=
  if x.isNaN || x.negative then 0
  else if x.isFinite then min (Layout.double.integerPart x.magnitude) limit
  else limit

/-- The integer magnitude next to a finite value, away from zero if `away`. -/
private def toWhole (away : Bool) (x : Double) : Double :=
  if x.isFinite then
    let whole := Layout.double.integerPart x.magnitude
    let up := away && !Layout.double.isWhole x.magnitude
    ofMagnitude x.negative (Layout.double.ofScaled (if up then whole + 1 else whole) 0)
  else if x.isNaN then x.quiet else x

/-- The largest whole number that is not above `x`. -/
def floor (x : Double) : Double := toWhole x.negative x

/-- The smallest whole number that is not below `x`. -/
def ceil (x : Double) : Double := toWhole (!x.negative) x

/-- The nearest single. -/
def toSingle (x : Double) : Single :=
  if x.isNaN then
    ⟨UInt32.ofNat ((if x.negative then 0x80000000 else 0) + 0x7fc00000
      + x.magnitude / 2 ^ 29 % 0x400000)⟩
  else if x.isFinite then
    let (significand, exponent) := Layout.double.parts x.magnitude
    Single.ofMagnitude x.negative (Layout.single.ofScaled significand exponent)
  else Single.ofMagnitude x.negative Layout.single.infinity

/-- Every single is a double. -/
def ofSingle (x : Single) : Double :=
  if x.isNaN then
    ⟨UInt64.ofNat ((if x.negative then 0x8000000000000000 else 0) + 0x7ff8000000000000
      + x.magnitude % 0x400000 * 2 ^ 29)⟩
  else if x.isFinite then
    let (significand, exponent) := Layout.single.parts x.magnitude
    ofMagnitude x.negative (Layout.double.ofScaled significand exponent)
  else ofMagnitude x.negative Layout.double.infinity

/-- The shortest digits that read back, never with an exponent. -/
def text (x : Double) : String := Layout.double.text x.negative x.magnitude

end Double

end SceneBaker.Number
