import SceneBaker.Number.Power

/-! # Base 64

Four symbols of six bits spell three octets. At the end, two symbols spell one octet and three spell
two; fill symbols may complete such a group. Bits that belong to no octet have to be zero.
-/

namespace SceneBaker.Text.Base64

/-- The six bits of a symbol. -/
def symbol? (c : Char) : Option Nat :=
  if c.isUpper then some (c.toNat - 'A'.toNat)
  else if c.isLower then some (c.toNat - 'a'.toNat + 26)
  else if c.isDigit then some (c.toNat - '0'.toNat + 52)
  else if c = '+' then some 62
  else if c = '/' then some 63
  else none

def fill : Char := '='

/-- The octets that symbols spell. -/
def octets? : List Nat → Option (List UInt8)
  | a :: b :: c :: d :: rest => do
    let group := ((a * 64 + b) * 64 + c) * 64 + d
    return UInt8.ofNat (group / 2 ^ 16) :: UInt8.ofNat (group / 2 ^ 8) :: UInt8.ofNat group
      :: (← octets? rest)
  | [a, b, c] =>
    let group := (a * 64 + b) * 64 + c
    if group % 4 = 0 then some [UInt8.ofNat (group / 2 ^ 10), UInt8.ofNat (group / 2 ^ 2)]
    else none
  | [a, b] =>
    let group := a * 64 + b
    if group % 16 = 0 then some [UInt8.ofNat (group / 2 ^ 4)] else none
  | [_] => none
  | [] => some []

/-- How many fill symbols may follow so many symbols. -/
def maxFill (count : Nat) : Nat :=
  match count % 4 with
  | 2 => 2
  | 3 => 1
  | _ => 0

/-- The octets of a text. -/
def decode? (text : List Char) : Option (List UInt8) := do
  let (front, back) := text.span (· != fill)
  if back.all (· == fill) ∧ back.length ≤ maxFill front.length then octets? (← front.mapM symbol?)
  else none

end SceneBaker.Text.Base64
