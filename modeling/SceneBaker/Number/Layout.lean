import SceneBaker.Number.Power

/-! # Binary interchange formats

A finite value of a binary format is a natural significand times a power of two. `Layout.parts`
reads the two from a magnitude (the bits without the sign), `Layout.ofRatio` goes the other way for
any ratio of naturals and rounds to the nearest representable value, ties to the even significand.
Conversions between formats, from integers and from decimals are all instances of that rounding.
-/

namespace SceneBaker.Number

/-- Field widths of a binary interchange format; the sign takes one bit above them. -/
structure Layout where
  fractionBits : Nat
  exponentBits : Nat
deriving DecidableEq

namespace Layout

def single : Layout := ⟨23, 8⟩
def double : Layout := ⟨52, 11⟩

/-- Weight of the significand's unit in the subnormal range. -/
def minExponent (layout : Layout) : Int :=
  2 - 2 ^ (layout.exponentBits - 1) - layout.fractionBits

/-- The magnitude of infinity; every larger one is not a number. -/
def infinity (layout : Layout) : Nat :=
  (2 ^ layout.exponentBits - 1) * 2 ^ layout.fractionBits

/-- The sign bit, which is also the number of magnitudes. -/
def signBit (layout : Layout) : Nat :=
  2 ^ (layout.exponentBits + layout.fractionBits)

/-- Significand and binary exponent of a finite magnitude. -/
def parts (layout : Layout) (magnitude : Nat) : Nat × Int :=
  let biased := magnitude / 2 ^ layout.fractionBits
  let fraction := magnitude % 2 ^ layout.fractionBits
  if biased = 0 then (fraction, layout.minExponent)
  else (fraction + 2 ^ layout.fractionBits, layout.minExponent + (biased - 1 : Nat))

/-- The quotient rounded to the nearest natural, a half going to the even one. -/
def roundQuotient (numerator denominator : Nat) : Nat :=
  let quotient := numerator / denominator
  let rest := numerator % denominator
  if 2 * rest < denominator ∨ (2 * rest = denominator ∧ quotient % 2 = 0) then quotient
  else quotient + 1

/-- Numerator and denominator of a ratio divided by `2 ^ exponent`. -/
def rescale (numerator denominator : Nat) (exponent : Int) : Nat × Nat :=
  (numerator * 2 ^ (-exponent).toNat, denominator * 2 ^ exponent.toNat)

/-- The exponent `e` with `2 ^ e ≤ numerator / denominator < 2 ^ (e + 1)`. -/
def leadingExponent (numerator denominator : Nat) : Int :=
  let guess : Int := (Nat.log2 numerator : Int) - (Nat.log2 denominator : Int)
  let (scaled, unit) := rescale numerator denominator guess
  if scaled < unit then guess - 1 else guess

/-- Magnitude nearest to a ratio. A significand that rounds up to the next power of two carries
into the exponent field by itself, and anything above the largest finite value is infinite. -/
def ofRatio (layout : Layout) (numerator denominator : Nat) : Nat :=
  if numerator = 0 then 0
  else
    let exponent :=
      max (leadingExponent numerator denominator - layout.fractionBits) layout.minExponent
    let (scaled, unit) := rescale numerator denominator exponent
    min layout.infinity
      ((exponent - layout.minExponent).toNat * 2 ^ layout.fractionBits + roundQuotient scaled unit)

/-- Magnitude nearest to `significand * 2 ^ exponent`. -/
def ofScaled (layout : Layout) (significand : Nat) (exponent : Int) : Nat :=
  layout.ofRatio (significand * 2 ^ exponent.toNat) (2 ^ (-exponent).toNat)

/-- Magnitude nearest to `digits * 10 ^ exponent`. Exponents far outside the range of the format
are answered without building the power. -/
def ofDecimal (layout : Layout) (digits : Nat) (exponent : Int) : Nat :=
  let size : Int := exponent + (Nat.log2 digits : Int) * 30103 / 100000
  if digits = 0 then 0
  else if size > 400 then layout.infinity
  else if size < -400 then 0
  else layout.ofRatio (digits * 10 ^ exponent.toNat) (10 ^ (-exponent).toNat)

/-- The integer part of a finite magnitude. -/
def integerPart (layout : Layout) (magnitude : Nat) : Nat :=
  let (significand, exponent) := layout.parts magnitude
  significand * 2 ^ exponent.toNat / 2 ^ (-exponent).toNat

/-- Whether a finite magnitude has no fractional part. -/
def isWhole (layout : Layout) (magnitude : Nat) : Bool :=
  let (significand, exponent) := layout.parts magnitude
  significand % 2 ^ (-exponent).toNat == 0

end Layout

end SceneBaker.Number
