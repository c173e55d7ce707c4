import SceneBaker.Number.Layout

/-! # Decimals

`Decimal` is a natural significand with a power of ten. `Layout.shortest` gives the decimal with
the fewest digits that rounds back to a given magnitude, and of those the nearest; `positional`
writes it without an exponent.
-/

namespace SceneBaker.Number

/-- The value `digits * 10 ^ exponent`. -/
structure Decimal where
  digits : Nat
  exponent : Int
deriving DecidableEq

/-- Bounds of the values that round to a magnitude, in quarter units of its last place. -/
structure Rounding where
  value : Nat
  low : Nat
  high : Nat
  exponent : Int
  closed : Bool

namespace Layout

/-- The interval below a power of two is half as wide as the one above it; its ends belong to it
exactly when the significand is even. -/
def rounding (layout : Layout) (magnitude : Nat) : Rounding :=
  let (significand, exponent) := layout.parts magnitude
  let narrow := significand = 2 ^ layout.fractionBits ∧ layout.minExponent < exponent
  { value := 4 * significand
    low := 4 * significand - (if narrow then 1 else 2)
    high := 4 * significand + 2
    exponent := exponent - 2
    closed := significand % 2 == 0 }

end Layout

namespace Rounding

/-- Scale the interval and the unit `10 ^ place` to common integers. -/
def atPlace (interval : Rounding) (place : Int) : Nat × Nat × Nat × Nat :=
  let factor := 2 ^ interval.exponent.toNat * 10 ^ (-place).toNat
  let unit := 2 ^ (-interval.exponent).toNat * 10 ^ place.toNat
  (interval.value * factor, interval.low * factor, interval.high * factor, unit)

/-- The multiple of `10 ^ place` inside the interval that is nearest to its value; of two that are
equally near, the larger one. -/
def nearest? (interval : Rounding) (place : Int) : Option Nat :=
  let (value, low, high, unit) := interval.atPlace place
  let below := value / unit
  let above := below + 1
  let inside (x : Nat) : Bool :=
    x != 0 && (if interval.closed then low ≤ x * unit && x * unit ≤ high
      else low < x * unit && x * unit < high)
  match inside below, inside above with
  | true, true => if value - below * unit < above * unit - value then some below else some above
  | true, false => some below
  | false, true => some above
  | false, false => none

/-- The first place, from `place` downward, that has a multiple inside the interval. -/
def search (interval : Rounding) : (places : Nat) → (place : Int) → Decimal
  | 0, place => ⟨0, place⟩
  | places + 1, place =>
    match interval.nearest? place with
    | some digits => ⟨digits, place⟩
    | none => interval.search places (place - 1)

end Rounding

/-- Shortest decimal of a finite, nonzero magnitude. -/
def Layout.shortest (layout : Layout) (magnitude : Nat) : Decimal :=
  let interval := layout.rounding magnitude
  let top : Int := ((Nat.log2 interval.value : Int) + interval.exponent) * 30103 / 100000 + 2
  interval.search 30 top

/-- Positional text: no exponent, no trailing point. -/
def Decimal.positional (decimal : Decimal) : String :=
  let digits := (Nat.toDigits 10 decimal.digits)
  if 0 ≤ decimal.exponent then
    String.ofList (digits ++ List.replicate decimal.exponent.toNat '0')
  else
    let places := (-decimal.exponent).toNat
    let padded := List.replicate (places + 1 - digits.length) '0' ++ digits
    let whole := padded.take (padded.length - places)
    let fraction := padded.drop (padded.length - places)
    String.ofList (whole ++ '.' :: fraction)

/-- Text of a signed magnitude: the shortest digits that read back, without an exponent. -/
def Layout.text (layout : Layout) (negative : Bool) (magnitude : Nat) : String :=
  let sign := if negative then "-" else ""
  if layout.infinity < magnitude then "NaN"
  else if magnitude = layout.infinity then sign ++ "inf"
  else if magnitude = 0 then sign ++ "0"
  else sign ++ (layout.shortest magnitude).positional

end SceneBaker.Number
