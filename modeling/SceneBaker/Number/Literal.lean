import SceneBaker.Number.Double
import SceneBaker.Text.Scan

/-! # Number literals

A literal is digits with at most one point among them, maybe with a sign before and a power of ten
behind them. Infinity and a value that is no number have names, in any case. A literal stands for
the nearest number of a format.
-/

namespace SceneBaker.Number

open Text

inductive Literal where
  /-- The number `digits * 10 ^ power`. -/
  | finite (negative : Bool) (digits : Nat) (power : Int)
  | infinite (negative : Bool)
  | undefined (negative : Bool)
deriving DecidableEq

namespace Literal

/-- A sign, plus unless it says minus, and the rest of a text. -/
def splitSign : List Char → Bool × List Char
  | '-' :: rest => (true, rest)
  | '+' :: rest => (false, rest)
  | text => (false, text)

/-- The power of ten of a mark and a whole number; nothing stands for 0. -/
def power? : List Char → Option Int
  | [] => some 0
  | _ :: text =>
    let (negative, digits) := splitSign text
    let size : Nat := ofDigits 10 digits
    if digits ≠ [] ∧ digits.all Char.isDigit then some (if negative then -size else size) else none

/-- Digits, a point among them and a power of ten. -/
def decimal? (negative : Bool) (text : List Char) : Option Literal := do
  let (mantissa, mark) := text.span fun c => c != 'e' && c != 'E'
  let (whole, rest) := mantissa.span (· != '.')
  let fraction := rest.drop 1
  let digits := whole ++ fraction
  let power ← power? mark
  if digits ≠ [] ∧ digits.all Char.isDigit then
    some (finite negative (ofDigits 10 digits) (power - fraction.length))
  else none

def ofText? (text : String) : Option Literal :=
  let (negative, rest) := splitSign text.toList
  match String.ofList (rest.map Char.toLower) with
  | "inf" | "infinity" => some (infinite negative)
  | "nan" => some (undefined negative)
  | _ => decimal? negative rest

/-- The sign and the magnitude in a format. -/
def magnitude (layout : Layout) : Literal → Bool × Nat
  | finite negative digits power => (negative, layout.ofDecimal digits power)
  | infinite negative => (negative, layout.infinity)
  | undefined negative => (negative, layout.infinity + 2 ^ (layout.fractionBits - 1))

def toSingle (literal : Literal) : Single :=
  let (negative, magnitude) := literal.magnitude .single
  Single.ofMagnitude negative magnitude

def toDouble (literal : Literal) : Double :=
  let (negative, magnitude) := literal.magnitude .double
  Double.ofMagnitude negative magnitude

end Literal

end SceneBaker.Number
